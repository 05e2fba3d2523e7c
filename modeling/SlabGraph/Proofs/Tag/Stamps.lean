import SlabGraph.Proofs.Tag.Ledger
import SlabGraph.Tag.Stamps

/-!
# Reading Stamps

What the stamps of an object are after each change. All lemmas are of one form: the stamp of an
index after the change, in terms of the stamps before.

## Main results

* `Marks.isMarked_iff`, `Numbers.isNumbered_iff`;
* `Marks.stamps_mark`, `Marks.stamps_unmark`, `Marks.stamps_scrub`;
* `Numbers.setNumber_run`, `Numbers.setNumber_refused`.
-/

namespace SlabGraph

namespace Marks

variable {marks : Marks} {marker : Marker}

/-- A marker is set exactly if the stamp at its index is its value. -/
theorem isMarked_iff : marks.isMarked marker = true ↔
    getElem marks.stamps marker.index marker.index.isLt = marker.value := by
  simp [isMarked]

/-- Where nothing was ever marked, the stamps are clean. -/
@[simp] theorem stamps_clean (i : Fin TagKind.marker.capacity) :
    getElem clean.stamps i i.isLt = Tag.clean := by
  simp [clean]

/-- Marking writes the stamp at the index of the marker, and no other one. -/
theorem stamps_mark (marks : Marks) (marker : Marker) (i : Fin TagKind.marker.capacity) :
    getElem (marks.mark marker).2.stamps i i.isLt =
      if i = marker.index then marker.value else getElem marks.stamps i i.isLt :=
  getElem_set_fin _ marker.index i _

/-- Unmarking cleans the stamp at the index of the marker if the marker was set, and touches no
other one. -/
theorem stamps_unmark (marks : Marks) (marker : Marker) (i : Fin TagKind.marker.capacity) :
    getElem (marks.unmark marker).2.stamps i i.isLt =
      if i = marker.index ∧ marks.isMarked marker = true then Tag.clean
      else getElem marks.stamps i i.isLt := by
  unfold unmark
  by_cases hmarked : marks.isMarked marker = true
  · rw [if_pos hmarked, getElem_set_fin]
    simp [hmarked]
  · simp [hmarked]

/-- Unmarking answers whether the marker was set. -/
theorem fst_unmark (marks : Marks) (marker : Marker) :
    (marks.unmark marker).1 = marks.isMarked marker := by
  unfold unmark
  by_cases hmarked : marks.isMarked marker = true <;> simp [hmarked]

/-- A sweep cleans the stamps at the indices that are not in use, and only these. -/
theorem stamps_scrub (ledger : TagLedger .marker) (marks : Marks)
    (i : Fin TagKind.marker.capacity) :
    getElem (marks.scrub ledger).stamps i i.isLt =
      if getElem ledger.used i i.isLt then getElem marks.stamps i i.isLt else Tag.clean := by
  simp [scrub]

end Marks

namespace Numbers

variable {num : Numeration} {value : Int}

/-- There is a number exactly if the stamp at the index of the numeration is its value. -/
theorem isNumbered_iff {numbers : Numbers} : numbers.isNumbered num = true ↔
    (getElem numbers.cells num.index num.index.isLt).stamp = num.value := by
  simp [isNumbered]

/-- Where nothing was ever numbered, the cells are clean. -/
theorem cells_clean (i : Fin TagKind.numeration.capacity) :
    getElem clean.cells i i.isLt = .clean := by
  simp [clean]

/-- A sweep cleans the cells at the indices that are not in use, and only these. -/
theorem cells_scrub (ledger : TagLedger .numeration) (numbers : Numbers)
    (i : Fin TagKind.numeration.capacity) :
    getElem (numbers.scrub ledger).cells i i.isLt =
      if getElem ledger.used i i.isLt then getElem numbers.cells i i.isLt else .clean := by
  simp [scrub]

/-- Taking a number away answers whether there was one. -/
theorem fst_unnumber (numbers : Numbers) (num : Numeration) :
    (numbers.unnumber num).1 = numbers.isNumbered num := by
  unfold unnumber
  by_cases hnumbered : numbers.isNumbered num = true <;> simp [hnumbered]

/-- A number in range is set. -/
theorem setNumber_run (numbers : Numbers) (num : Numeration)
    (hfits : 0 ≤ value ∧ value ≤ 4294967294) : numbers.setNumber num value =
      .ok ⟨numbers.cells.set num.index ⟨num.value, value.toNat⟩ num.index.isLt⟩ := by
  have hfits' : 0 ≤ value ∧ value < noNumber := ⟨hfits.1, by simp only [noNumber]; omega⟩
  exact if_pos hfits'

/-- A number out of range is refused. -/
theorem setNumber_refused (numbers : Numbers) (num : Numeration)
    (hbad : ¬ (0 ≤ value ∧ value ≤ 4294967294)) :
    numbers.setNumber num value = .error .numberOutOfRange := by
  have hbad' : ¬ (0 ≤ value ∧ value < noNumber) := by
    intro hfits
    simp only [noNumber] at hfits
    omega
  exact if_neg hbad'

end Numbers

namespace TagArea

variable {num : Numeration} {value : Int}

/-- A number within the bounds is written, with the stamp of the numeration. -/
theorem setNumber_run (area : TagArea) (num : Numeration)
    (hfits : 0 ≤ value ∧ value ≤ 4294967294) : area.setNumber num value = .ok ((), { area with
      numbers := ⟨area.numbers.cells.set num.index ⟨num.value, value.toNat⟩ num.index.isLt⟩ }) := by
  rw [setNumber, Numbers.setNumber_run _ _ hfits]
  rfl

/-- A number out of the bounds is refused. -/
theorem setNumber_refused (area : TagArea) (num : Numeration)
    (hbad : ¬ (0 ≤ value ∧ value ≤ 4294967294)) :
    area.setNumber num value = .error .numberOutOfRange := by
  rw [setNumber, Numbers.setNumber_refused _ _ hbad]
  rfl

end TagArea

end SlabGraph
