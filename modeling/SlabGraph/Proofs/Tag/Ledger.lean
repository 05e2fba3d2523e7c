import Mathlib.Data.Fintype.Card
import SlabGraph.Tag.Ledger

/-!
# The Tags of a Ledger

Which tags are in use is decided by three components of a ledger, and every operation moves
the set of tags in use by at most one tag: granting adds the answered tag, releasing takes the
named tag out, and starting the values over leaves the set alone.

Tags in use have different indices (`TagLedger.eq_of_isLive`). So a ledger whose indices are
all in use has as many tags in use as there are indices, and only then refuses to grant.

`TagLedger.Sound` bounds the values. It is what keeps the increment from passing the last
value, and the value of a tag in use from being the stamp of an object without tags.

## Main results

* `TagLedger.Sound.grant_run`, `TagLedger.Sound.release_run`, `TagLedger.Sound.restart`;
* `TagLedger.Reached.sound`: the bounds hold of all ledgers that come about;
* `TagLedger.length_eq_capacity_iff`: when all indices are in use.
-/

namespace SlabGraph

/-- What stands at an index after a value was put at an index. -/
theorem getElem_set_fin {α : Type} {n : Nat} (xs : Vector α n) (i j : Fin n) (a : α) :
    getElem (xs.set i a i.isLt) j j.isLt = if j = i then a else getElem xs j j.isLt := by
  by_cases hj : j = i
  · simp [hj]
  · have hval : i.val ≠ j.val := fun heq => hj (Fin.ext heq.symm)
    simp [hj, hval]

/-- There are tags of each kind. -/
theorem TagKind.capacity_pos (kind : TagKind) : 0 < kind.capacity := by
  cases kind <;> decide

namespace TagLedger

variable {kind : TagKind} {ledger : TagLedger kind} {tag tag' : Tag kind}

/-- A tag is in use if it belongs to the ledger, its index is in use, and its value is the last one
granted there. -/
theorem isLive_iff : ledger.isLive tag = true ↔
    tag.owner = ledger.owner ∧ getElem ledger.used tag.index tag.index.isLt = true ∧
      getElem ledger.last tag.index tag.index.isLt = tag.value := by
  simp [isLive, and_assoc]

/-- Tags in use have different indices. -/
theorem eq_of_isLive (h : ledger.isLive tag = true) (h' : ledger.isLive tag' = true)
    (hindex : tag.index = tag'.index) : tag = tag' := by
  obtain ⟨howner, -, hvalue⟩ := isLive_iff.1 h
  obtain ⟨howner', -, hvalue'⟩ := isLive_iff.1 h'
  obtain ⟨owner, index, value⟩ := tag
  obtain ⟨owner', index', value'⟩ := tag'
  simp only at hindex howner howner' hvalue hvalue'
  subst hindex
  rw [howner, howner', ← hvalue, ← hvalue']

/-- There is no unused index exactly if all are in use. -/
theorem freeIndex_eq_none_iff : ledger.freeIndex = none ↔
    ∀ i : Fin kind.capacity, getElem ledger.used i i.isLt = true := by
  simp [freeIndex, List.find?_eq_none]

/-- An unused index is not in use. -/
theorem used_of_freeIndex {i : Fin kind.capacity} (h : ledger.freeIndex = some i) :
    getElem ledger.used i i.isLt = false := by
  simpa using List.find?_some h

/-- The bounds on the values of a ledger. -/
structure Sound (ledger : TagLedger kind) : Prop where
  /-- No value is past the last one. -/
  le_lastValue : ∀ i : Fin kind.capacity, getElem ledger.last i i.isLt ≤ Tag.lastValue
  /-- The value of a tag in use is not that of an object without tags. -/
  pos : ∀ i : Fin kind.capacity, getElem ledger.used i i.isLt = true →
    Tag.clean < getElem ledger.last i i.isLt

/-- The values of a new ledger are within their bounds. -/
theorem sound_ofOwner (owner : UInt32) : (ofOwner owner : TagLedger kind).Sound where
  le_lastValue i := by simp [ofOwner, Tag.clean]
  pos i hi := by simp [ofOwner] at hi

/-- No tag of a new ledger is in use. -/
theorem isLive_ofOwner (owner : UInt32) : (ofOwner owner : TagLedger kind).isLive tag = false := by
  simp [isLive, ofOwner]

/-- A grant at an index that is not in use and has a value left. -/
theorem grant_eq_ok {i : Fin kind.capacity} (hused : getElem ledger.used i i.isLt = false)
    (hlast : getElem ledger.last i i.isLt < Tag.lastValue) :
    ledger.grant i = .ok (⟨ledger.owner, i, ledger.last[i] + 1⟩,
      { ledger with
        last := ledger.last.set i (ledger.last[i] + 1)
        used := ledger.used.set i true }) := by
  have hleft : ledger.exhausted i = false := by simpa [exhausted] using Nat.ne_of_lt hlast
  rw [grant, if_neg (by simp [hused]), if_neg (by simp [hleft]), if_neg (Nat.not_le.2 hlast)]

namespace Sound

/-- The value of a tag in use is not that of an object without tags. -/
theorem value_pos (h : ledger.Sound) (hlive : ledger.isLive tag = true) :
    Tag.clean < tag.value := by
  obtain ⟨-, hused, hvalue⟩ := isLive_iff.1 hlive
  exact hvalue ▸ h.pos tag.index hused

/-- Granting a tag at an index not in use that has a value left. -/
theorem grant_run (h : ledger.Sound) {i : Fin kind.capacity}
    (hused : getElem ledger.used i i.isLt = false) (hleft : ledger.exhausted i = false) :
    ∃ value granted, value = getElem ledger.last i i.isLt + 1 ∧
      ledger.grant i = .ok (⟨ledger.owner, i, value⟩, granted) ∧ granted.Sound ∧
      (∀ j : Fin kind.capacity, getElem granted.last j j.isLt =
        if j = i then value else getElem ledger.last j j.isLt) ∧
      ∀ tag, granted.isLive tag = true ↔
        tag = ⟨ledger.owner, i, value⟩ ∨ ledger.isLive tag = true := by
  have hlast : ledger.last[i] < Tag.lastValue := by
    refine Nat.lt_of_le_of_ne (h.le_lastValue i) ?_
    simpa [exhausted] using hleft
  let granted : TagLedger kind :=
    { ledger with last := ledger.last.set i (ledger.last[i] + 1), used := ledger.used.set i true }
  have hget : ∀ j : Fin kind.capacity, granted.last[j] =
      if j = i then ledger.last[i] + 1 else ledger.last[j] :=
    fun j => getElem_set_fin _ i j _
  have hgetused : ∀ j : Fin kind.capacity, granted.used[j] =
      if j = i then true else ledger.used[j] :=
    fun j => getElem_set_fin _ i j _
  refine ⟨_, granted, rfl, grant_eq_ok hused hlast, ⟨fun j => ?_, fun j hj => ?_⟩, hget,
    fun tag => ?_⟩
  · rw [hget]
    by_cases hj : j = i
    · rw [if_pos hj]
      exact hlast
    · rw [if_neg hj]
      exact h.le_lastValue j
  · rw [hget]
    rw [hgetused] at hj
    by_cases hji : j = i
    · rw [if_pos hji]
      exact Nat.succ_pos _
    · rw [if_neg hji] at hj ⊢
      exact h.pos j hj
  · rw [isLive_iff, isLive_iff, hget, hgetused]
    obtain ⟨owner, index, value⟩ := tag
    by_cases hi : index = i
    · subst hi
      simp [hused, granted, eq_comm]
    · simp [hi, granted]

/-- A tag in use is taken back, and all others stay as they are. -/
theorem release_run (h : ledger.Sound) (hlive : ledger.isLive tag = true) :
    ∃ released, ledger.release tag = .ok released ∧ released.Sound ∧
      released.last = ledger.last ∧
      ∀ tag', released.isLive tag' = true ↔ tag' ≠ tag ∧ ledger.isLive tag' = true := by
  let released : TagLedger kind := { ledger with used := ledger.used.set tag.index false }
  have hget : ∀ j : Fin kind.capacity, released.used[j] =
      if j = tag.index then false else ledger.used[j] :=
    fun j => getElem_set_fin _ tag.index j _
  refine ⟨released, by simp [release, hlive, released], ⟨h.le_lastValue, fun j hj => ?_⟩, rfl,
    fun tag' => ?_⟩
  · rw [hget] at hj
    by_cases hi : j = tag.index
    · rw [if_pos hi] at hj
      exact absurd hj Bool.false_ne_true
    · rw [if_neg hi] at hj
      exact h.pos j hj
  · rw [isLive_iff, hget]
    by_cases hi : tag'.index = tag.index
    · rw [if_pos hi]
      refine ⟨fun hbad => absurd hbad.2.1 Bool.false_ne_true, fun hgood => ?_⟩
      exact absurd (eq_of_isLive hgood.2 hlive hi) hgood.1
    · rw [if_neg hi]
      have hne : tag' ≠ tag := fun heq => hi (by rw [heq])
      exact ⟨fun hgood => ⟨hne, isLive_iff.2 hgood⟩, fun hgood => isLive_iff.1 hgood.2⟩

end Sound

/-! ### Starting the values over -/

/-- A restart sets the last value back at the indices that are not in use, and only there. -/
theorem last_restart (i : Fin kind.capacity) :
    getElem ledger.restart.last i i.isLt =
      if getElem ledger.used i i.isLt then getElem ledger.last i i.isLt else Tag.clean := by
  simp [restart]

/-- A restart does not change which tags are in use. -/
theorem isLive_restart (tag : Tag kind) : ledger.restart.isLive tag = ledger.isLive tag := by
  rw [Bool.eq_iff_iff, isLive_iff, isLive_iff, last_restart]
  change _ ∧ ledger.used[tag.index] = true ∧ _ ↔ _
  by_cases hused : ledger.used[tag.index] = true
  · rw [if_pos hused]
    exact Iff.rfl
  · simp only [hused, Bool.false_eq_true, false_and, and_false]

/-- The values stay within their bounds when they start over. -/
theorem Sound.restart (h : ledger.Sound) : ledger.restart.Sound where
  le_lastValue i := by
    rw [last_restart]
    by_cases hused : ledger.used[i] = true
    · rw [if_pos hused]
      exact h.le_lastValue i
    · rw [if_neg hused]
      exact Nat.zero_le _
  pos i hi := by
    have hused : ledger.used[i] = true := hi
    rw [last_restart, if_pos hused]
    exact h.pos i hused

/-- An index without a value left has one after the values have started over. -/
theorem exhausted_restart {i : Fin kind.capacity}
    (hused : getElem ledger.used i i.isLt = false) : ledger.restart.exhausted i = false := by
  rw [exhausted, last_restart, hused]
  rfl

/-! ### Ledgers as they come about -/

/-- A grant that succeeds is one at an index that is not in use and has a value left. -/
theorem of_grant {i : Fin kind.capacity} {granted : TagLedger kind}
    (h : ledger.grant i = .ok (tag, granted)) :
    getElem ledger.used i i.isLt = false ∧ ledger.exhausted i = false := by
  unfold grant at h
  by_cases hused : ledger.used[i] = true
  · rw [if_pos hused] at h
    cases h
  · by_cases hleft : ledger.exhausted i = true
    · rw [if_neg hused, if_pos hleft] at h
      cases h
    · exact ⟨by simpa using hused, by simpa using hleft⟩

/-- A release that succeeds is one of a tag in use. -/
theorem of_release {released : TagLedger kind} (h : ledger.release tag = .ok released) :
    ledger.isLive tag = true := by
  unfold release at h
  by_cases hlive : ledger.isLive tag = true
  · exact hlive
  · rw [if_neg hlive] at h
    cases h

/-- A ledger that comes about from a new one by granting, releasing and starting the values
over. A copy of such a ledger is one as well. -/
inductive Reached : TagLedger kind → Prop
  | new (owner : UInt32) : Reached (ofOwner owner)
  | grant {ledger granted : TagLedger kind} {i : Fin kind.capacity} {tag : Tag kind} :
      Reached ledger → ledger.grant i = .ok (tag, granted) → Reached granted
  | release {ledger released : TagLedger kind} {tag : Tag kind} :
      Reached ledger → ledger.release tag = .ok released → Reached released
  | restart {ledger : TagLedger kind} : Reached ledger → Reached ledger.restart

/-- The values of such a ledger are within their bounds. -/
theorem Reached.sound (h : ledger.Reached) : ledger.Sound := by
  induction h with
  | new owner => exact sound_ofOwner owner
  | grant _ hrun ih =>
      obtain ⟨hused, hleft⟩ := of_grant hrun
      obtain ⟨_, _, -, hrun', hsound, -⟩ := ih.grant_run hused hleft
      rw [hrun] at hrun'
      cases hrun'
      exact hsound
  | release _ hrun ih =>
      obtain ⟨_, hrun', hsound, -⟩ := ih.release_run (of_release hrun)
      rw [hrun] at hrun'
      cases hrun'
      exact hsound
  | restart _ ih => exact ih.restart

/-! ### Counting the tags in use -/

/-- The tags in use are as many as there are indices exactly if every index is in use. -/
theorem length_eq_capacity_iff {tags : List (Tag kind)} (hnodup : tags.Nodup)
    (hmem : ∀ tag, tag ∈ tags ↔ ledger.isLive tag = true) :
    tags.length = kind.capacity ↔
      ∀ i : Fin kind.capacity, getElem ledger.used i i.isLt = true := by
  have hindices : (tags.map Tag.index).Nodup := by
    refine hnodup.map_on fun tag h tag' h' hindex => ?_
    exact eq_of_isLive ((hmem tag).1 h) ((hmem tag').1 h') hindex
  constructor
  · intro hlen i
    have hall : i ∈ tags.map Tag.index := by
      have hcard : (tags.map Tag.index).toFinset = Finset.univ := by
        rw [← Finset.card_eq_iff_eq_univ, List.toFinset_card_of_nodup hindices, List.length_map,
          hlen, Fintype.card_fin]
      exact List.mem_toFinset.1 (hcard ▸ Finset.mem_univ i)
    obtain ⟨tag, htag, rfl⟩ := List.mem_map.1 hall
    exact (isLive_iff.1 ((hmem tag).1 htag)).2.1
  · intro hused
    have hall : (tags.map Tag.index).toFinset = Finset.univ := by
      refine Finset.eq_univ_iff_forall.2 fun i => List.mem_toFinset.2 (List.mem_map.2 ?_)
      exact ⟨⟨ledger.owner, i, ledger.last[i]⟩, (hmem _).2 (isLive_iff.2 ⟨rfl, hused i, rfl⟩), rfl⟩
    have hcard := List.toFinset_card_of_nodup hindices
    rw [hall, Finset.card_univ, Fintype.card_fin, List.length_map] at hcard
    exact hcard.symm

end TagLedger

end SlabGraph
