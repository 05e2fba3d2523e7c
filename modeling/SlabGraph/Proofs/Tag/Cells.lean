import SlabGraph.Proofs.Tag.Stamps

/-!
# Cells

Markers and numerations keep their stamps in different places, and are else alike: an object has
one *cell* for each index of a kind, which consists of a stamp and of what counts under the stamp.
An object carries a tag if the stamp of its cell is the value of the tag, and what it carries is
then the number in the cell (`TagArea.carried?`). Under a marker nothing counts but the stamp, so
all that a marked object carries is a zero.

## Main definitions

* `TagArea.stamp`, `TagArea.content`, `TagArea.carried?`, for both kinds of tag;
* `TagArea.scrub`, `TagArea.SameCells`, `TagArea.Puts`.

## Main results

* `TagArea.isMarked_eq`, `TagArea.isNumbered_eq`, `TagArea.number_eq`: what is carried decides what
  the operations on stamps answer;
* `TagArea.carried?_scrub`;
* `TagArea.puts_mark`, `TagArea.puts_unmark`, `TagArea.puts_setNumber`, `TagArea.puts_unnumber`.
-/

namespace SlabGraph

namespace TagArea

/-- The stamp at an index. -/
def stamp (area : TagArea) : {kind : TagKind} → Fin kind.capacity → Nat
  | .marker, i => area.marks.stamps.get i
  | .numeration, i => (area.numbers.cells.get i).stamp

/-- What counts under the stamp at an index. -/
def content (area : TagArea) : {kind : TagKind} → Fin kind.capacity → Nat
  | .marker, _ => 0
  | .numeration, i => (area.numbers.cells.get i).number

/-- What an object carries under a tag, if it carries the tag. -/
def carried? {kind : TagKind} (area : TagArea) (tag : Tag kind) : Option Nat :=
  if area.stamp tag.index = tag.value then some (area.content tag.index) else none

/-- Resets the cells of the indices not in use. -/
def scrub (area : TagArea) : {kind : TagKind} → TagLedger kind → TagArea
  | .marker, ledger => { area with marks := area.marks.scrub ledger }
  | .numeration, ledger => { area with numbers := area.numbers.scrub ledger }

/-- The cells of a kind are the same in two areas. -/
def SameCells (kind : TagKind) (area area' : TagArea) : Prop :=
  ∀ i : Fin kind.capacity, area'.stamp i = area.stamp i ∧ area'.content i = area.content i

/-- One area is another with the cell of a tag changed, to carry something under the tag or
nothing. -/
structure Puts {kind : TagKind} (area : TagArea) (tag : Tag kind) (what : Option Nat)
    (area' : TagArea) : Prop where
  /-- The cells of the other indices stay, and the stamp is at most the value of the tag. -/
  cells : ∀ i : Fin kind.capacity,
    area'.stamp i = area.stamp i ∧ area'.content i = area.content i ∨
      i = tag.index ∧ area'.stamp i ≤ tag.value
  /-- What is carried under the tag. -/
  carried : area'.carried? tag = what

section

variable {kind : TagKind} {area area' : TagArea} {ledger : TagLedger kind} {tag : Tag kind}

/-- Nothing is carried under a tag exactly if the stamp at its index is another value. -/
theorem carried?_eq_none_iff : area.carried? tag = none ↔ area.stamp tag.index ≠ tag.value := by
  simp [carried?]

/-- What is carried under a tag depends on the stamp and the content at its index. -/
theorem carried?_eq_of_cell (hstamp : area'.stamp tag.index = area.stamp tag.index)
    (hcontent : area'.content tag.index = area.content tag.index) :
    area'.carried? tag = area.carried? tag := by
  unfold carried?
  rw [hstamp, hcontent]

/-- Areas with the same cells carry the same under every tag. -/
theorem SameCells.carried? (h : SameCells kind area area') (tag : Tag kind) :
    area'.carried? tag = area.carried? tag :=
  carried?_eq_of_cell (h tag.index).1 (h tag.index).2

/-- The stamps of a clean area are clean. -/
theorem stamp_clean (i : Fin kind.capacity) : clean.stamp i = Tag.clean := by
  cases kind with
  | marker => exact Marks.stamps_clean i
  | numeration => exact congrArg NumberCell.stamp (Numbers.cells_clean i)

/-- A sweep cleans the stamps at the indices that are not in use, and only these. -/
theorem stamp_scrub (area : TagArea) (ledger : TagLedger kind) (i : Fin kind.capacity) :
    (area.scrub ledger).stamp i =
      if getElem ledger.used i i.isLt then area.stamp i else Tag.clean := by
  cases kind with
  | marker => exact Marks.stamps_scrub ledger area.marks i
  | numeration =>
      refine (congrArg NumberCell.stamp (Numbers.cells_scrub ledger area.numbers i)).trans ?_
      exact apply_ite NumberCell.stamp _ _ _

/-- Scrubbing leaves the cells in use alone. -/
theorem content_scrub (area : TagArea) {i : Fin kind.capacity}
    (hused : getElem ledger.used i i.isLt = true) :
    (area.scrub ledger).content i = area.content i := by
  cases kind with
  | marker => rfl
  | numeration =>
      have hcell := Numbers.cells_scrub ledger area.numbers i
      rw [if_pos hused] at hcell
      exact congrArg NumberCell.number hcell

/-- Scrubbing leaves the tags in use alone. -/
theorem carried?_scrub (area : TagArea) (hlive : ledger.isLive tag = true) :
    (area.scrub ledger).carried? tag = area.carried? tag := by
  have hused := (TagLedger.isLive_iff.1 hlive).2.1
  refine carried?_eq_of_cell ?_ (area.content_scrub hused)
  rw [stamp_scrub, if_pos hused]

end

/-! ### Markers -/

section

variable (area : TagArea) (marker : Marker)

/-- A marker is set exactly if something is carried under it. -/
theorem isMarked_eq : area.marks.isMarked marker = (area.carried? marker).isSome := by
  by_cases hstamp : area.marks.stamps[marker.index] = marker.value
  · have hcarried : area.carried? marker = some 0 := if_pos hstamp
    rw [hcarried, Marks.isMarked_iff.2 hstamp]
    rfl
  · have hcarried : area.carried? marker = none := if_neg hstamp
    rw [hcarried, Bool.eq_false_iff.2 fun hbad => hstamp (Marks.isMarked_iff.1 hbad)]
    rfl

/-- Marking puts a zero under the marker. -/
theorem puts_mark : area.Puts marker (some 0)
    { area with marks := (area.marks.mark marker).2 } where
  cells i := by
    by_cases hi : i = marker.index
    · refine .inr ⟨hi, ?_⟩
      exact ((Marks.stamps_mark area.marks marker i).trans (if_pos hi)).le
    · exact .inl ⟨(Marks.stamps_mark area.marks marker i).trans (if_neg hi), rfl⟩
  carried := if_pos ((Marks.stamps_mark area.marks marker marker.index).trans (if_pos rfl))

/-- Unmarking takes away what is carried under the marker. The marker must have a proper value, or
the clean stamp would be its own. -/
theorem puts_unmark (hpos : Tag.clean < marker.value) : area.Puts marker none
    { area with marks := (area.marks.unmark marker).2 } where
  cells i := by
    have hstamp := Marks.stamps_unmark area.marks marker i
    by_cases hi : i = marker.index ∧ area.marks.isMarked marker = true
    · exact .inr ⟨hi.1, (hstamp.trans (if_pos hi)).trans_le (Nat.zero_le _)⟩
    · exact .inl ⟨hstamp.trans (if_neg hi), rfl⟩
  carried := by
    rw [carried?_eq_none_iff]
    intro hbad
    have hstamp := (Marks.stamps_unmark area.marks marker marker.index).symm.trans hbad
    by_cases hmarked : area.marks.isMarked marker = true
    · rw [if_pos ⟨rfl, hmarked⟩] at hstamp
      exact absurd hstamp (Nat.ne_of_lt hpos)
    · rw [if_neg fun hboth => hmarked hboth.2] at hstamp
      exact hmarked (Marks.isMarked_iff.2 hstamp)

/-- Markers leave the cells of the numerations alone. -/
theorem sameCells_marks (marks : Marks) :
    SameCells .numeration area { area with marks } := fun _ => ⟨rfl, rfl⟩

end

/-! ### Numerations -/

section

variable (area : TagArea) (num : Numeration)

/-- There is a number exactly if something is carried under the numeration. -/
theorem isNumbered_eq : area.numbers.isNumbered num = (area.carried? num).isSome := by
  by_cases hstamp : (area.numbers.cells[num.index]).stamp = num.value
  · have hcarried : area.carried? num = some _ := if_pos hstamp
    rw [hcarried, Numbers.isNumbered_iff.2 hstamp]
    rfl
  · have hcarried : area.carried? num = none := if_neg hstamp
    rw [hcarried, Bool.eq_false_iff.2 fun hbad => hstamp (Numbers.isNumbered_iff.1 hbad)]
    rfl

/-- The number is what is carried under the numeration, or the mark for "no number". -/
theorem number_eq : area.numbers.number num = (area.carried? num).getD noNumber := by
  unfold Numbers.number
  by_cases hstamp : (area.numbers.cells[num.index]).stamp = num.value
  · have hcarried : area.carried? num = some _ := if_pos hstamp
    rw [hcarried, if_pos (Numbers.isNumbered_iff.2 hstamp)]
    rfl
  · have hcarried : area.carried? num = none := if_neg hstamp
    rw [hcarried, if_neg fun hbad => hstamp (Numbers.isNumbered_iff.1 hbad)]
    rfl

/-- A cell that is put at the index of a numeration puts its number there, or takes it away. -/
theorem puts_cell (cell : NumberCell) (hle : cell.stamp ≤ num.value) : area.Puts num
    (if cell.stamp = num.value then some cell.number else none)
    { area with numbers := ⟨area.numbers.cells.set num.index cell num.index.isLt⟩ } where
  cells i := by
    have hget := getElem_set_fin area.numbers.cells num.index i cell
    by_cases hi : i = num.index
    · refine .inr ⟨hi, ?_⟩
      rw [if_pos hi] at hget
      exact (congrArg NumberCell.stamp hget).trans_le hle
    · rw [if_neg hi] at hget
      exact .inl ⟨congrArg NumberCell.stamp hget, congrArg NumberCell.number hget⟩
  carried := by
    have hget := getElem_set_fin area.numbers.cells num.index num.index cell
    rw [if_pos rfl] at hget
    unfold carried?
    rw [show stamp _ num.index = cell.stamp from congrArg NumberCell.stamp hget,
      show content _ num.index = cell.number from congrArg NumberCell.number hget]

/-- Setting a number puts it under the numeration. -/
theorem puts_setNumber {value : Int} {numbers : Numbers}
    (hset : area.numbers.setNumber num value = .ok numbers) :
    area.Puts num (some value.toNat) { area with numbers } := by
  by_cases hfits : 0 ≤ value ∧ value ≤ 4294967294
  · rw [Numbers.setNumber_run _ _ hfits] at hset
    cases hset
    have hput := area.puts_cell num ⟨num.value, value.toNat⟩ (Nat.le_refl _)
    rwa [if_pos rfl] at hput
  · rw [Numbers.setNumber_refused _ _ hfits] at hset
    cases hset

/-- Taking a number away takes away what is carried under the numeration. This must have a proper
value, or the clean stamp would be its own. -/
theorem puts_unnumber (hpos : Tag.clean < num.value) : area.Puts num none
    { area with numbers := (area.numbers.unnumber num).2 } := by
  unfold Numbers.unnumber
  by_cases hnumbered : area.numbers.isNumbered num = true
  · rw [if_pos hnumbered]
    have hput := area.puts_cell num .clean (Nat.zero_le _)
    have hne : NumberCell.clean.stamp ≠ num.value := Nat.ne_of_lt hpos
    rwa [if_neg hne] at hput
  · rw [if_neg hnumbered]
    refine ⟨fun i => .inl ⟨rfl, rfl⟩, ?_⟩
    rw [isNumbered_eq] at hnumbered
    simpa using hnumbered

/-- Numerations leave the cells of the markers alone. -/
theorem sameCells_numbers (numbers : Numbers) :
    SameCells .marker area { area with numbers } := fun _ => ⟨rfl, rfl⟩

end

end TagArea

end SlabGraph
