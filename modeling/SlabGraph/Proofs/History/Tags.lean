import SlabGraph.Proofs.History.Carried
import SlabGraph.Proofs.History.World
import SlabGraph.Proofs.Tag.Cells

/-!
# Tags and Histories

A view and a history agree about a kind of tag (`View.TagsAgree`): the tags in use are those that
were granted and not taken back, and under a tag in use an entity carries exactly what the history
says.

The invariant that carries this is that no stamp of any entity is greater than the value that
was last granted at its index. So the next value of an index is the stamp of no entity, and
nothing is carried under a tag that is granted with it. When the values of an index start over, a
sweep has put all stamps of the index back before. The tags in use keep their stamps and their
values, since a sweep leaves their indices alone.

What a move does to the tags of one kind is one of six things (`View.TagStep`). For each of the
two kinds, every move is such a step.

## Main definitions

* `BearsTags`, `View.TagsAgree`, `View.TagStep`.

## Main results

* `View.TagsAgree.grant`, `View.TagsAgree.put`, `View.TagsAgree.step`;
* `Move.markerStep`, `Move.numStep`: the moves are steps for both kinds.
-/

namespace SlabGraph

variable {N E : Type}

/-- The entities of views bear the tags of a kind. Changes of the ledger leave them alone, and a
sweep scrubs them. -/
class BearsTags (N E : Type) (kind : TagKind) [TagHost (View N E) kind] : Prop extends
    LawfulTagHost (View N E) kind where
  area?_setLedger : ∀ (V : View N E) (l : TagLedger kind) {entity : EntityKind}
    (x : Handle entity), (TagHost.setLedger V l).area? x = V.area? x
  area?_sweep : ∀ (V : View N E) {entity : EntityKind} (x : Handle entity),
    (TagHost.sweep kind V).area? x =
      (V.area? x).map fun area => area.scrub (TagHost.ledger V : TagLedger kind)
  ledger_setArea : ∀ (V : View N E) (area : TagArea) {entity : EntityKind} (x : Handle entity),
    (TagHost.ledger (V.setArea area x) : TagLedger kind) = TagHost.ledger V

instance : BearsTags N E .marker where
  area?_setLedger _ l _ x := View.area?_setMarkers l x
  area?_sweep _ _ x := View.area?_mapAreas _ x
  ledger_setArea _ _ entity _ := by cases entity <;> rfl

instance : BearsTags N E .numeration where
  area?_setLedger _ l _ x := View.area?_setNums l x
  area?_sweep _ _ x := View.area?_mapAreas _ x
  ledger_setArea _ _ entity _ := by cases entity <;> rfl

namespace View

variable {kind : TagKind} [TagHost (View N E) kind] {V V' : View N E} {past : History N E}

/-- A view agrees with a history about a kind of tag. -/
structure TagsAgree (kind : TagKind) [TagHost (View N E) kind] (V : View N E)
    (past : History N E) : Prop where
  /-- The values of the ledger are within their bounds. -/
  sound : (TagHost.ledger V : TagLedger kind).Sound
  /-- No stamp is greater than the value granted last. -/
  bounded : ∀ {entity : EntityKind} (x : Handle entity) (area : TagArea),
    V.area? x = some area → ∀ i : Fin kind.capacity,
      area.stamp i ≤ getElem (TagHost.ledger V : TagLedger kind).last i i.isLt
  /-- The tags in use. -/
  inUse : ∀ tag, tag ∈ History.tags kind past ↔
    (TagHost.ledger V : TagLedger kind).isLive tag = true
  /-- No tag is in use twice. -/
  nodup : (History.tags kind past).Nodup
  /-- What the entities carry. -/
  carried : ∀ {entity : EntityKind} (x : Handle entity) (area : TagArea) (tag : Tag kind),
    V.area? x = some area → (TagHost.ledger V : TagLedger kind).isLive tag = true →
    area.carried? tag = History.carried? tag ⟨entity, x⟩ past

/-- What a change of a view may do to the tags of a kind, with the deeds it stands for. -/
inductive TagStep (kind : TagKind) [TagHost (View N E) kind] (V : View N E) :
    History N E → View N E → Prop
  | grant {deed : Deed N E} {tag : Tag kind} {V' : View N E}
      (run : TagHost.grant kind V = .ok tag V') (grants : deed.grants? kind = some tag) :
      TagStep kind V [deed] V'
  | refuse {e : Fault} {V' : View N E} (run : TagHost.grant kind V = .error e V') :
      TagStep kind V [] V'
  | free {deed : Deed N E} {tag : Tag kind} {V' : View N E}
      (run : TagHost.release tag V = .ok () V') (frees : deed.frees? kind = some tag) :
      TagStep kind V [deed] V'
  | sweep : TagStep kind V [] (TagHost.sweep kind V)
  /-- Something is put under a tag in use. -/
  | put {deed : Deed N E} {entity : EntityKind} (x : Handle entity) (tag : Tag kind)
      {what : Option Nat} {area area' : TagArea}
      (inUse : (TagHost.ledger V : TagLedger kind).isLive tag = true)
      (live : V.area? x = some area) (puts : deed.puts? kind = some (⟨entity, x⟩, tag, what))
      (cell : Tag.clean < tag.value → area.Puts tag what area') :
      TagStep kind V [deed] (V.setArea area' x)
  /-- The tags of the kind are left alone. New entities carry none. -/
  | apart {deeds : History N E} {V' : View N E}
      (ledger : (TagHost.ledger V' : TagLedger kind) = TagHost.ledger V)
      (deeds_apart : ∀ deed ∈ deeds, deed.Apart kind)
      (areas : ∀ {entity : EntityKind} (x : Handle entity) (area' : TagArea),
        V'.area? x = some area' →
        ((∃ deed ∈ deeds, deed.adds = some ⟨entity, x⟩) ∧ area' = .clean) ∨
        ((∀ deed ∈ deeds, deed.adds ≠ some ⟨entity, x⟩) ∧
          ∃ area, V.area? x = some area ∧ area.SameCells kind area')) :
      TagStep kind V deeds V'

namespace TagsAgree

/-- A view without entities, with a new ledger. -/
theorem of_empty {owner : UInt32} (hledger : (TagHost.ledger V : TagLedger kind) = .ofOwner owner)
    (hempty : ∀ {entity : EntityKind} (x : Handle entity), V.area? x = none) :
    V.TagsAgree kind [] where
  sound := hledger ▸ TagLedger.sound_ofOwner owner
  bounded x area hx := by
    rw [hempty] at hx
    cases hx
  inUse tag := by
    rw [hledger, TagLedger.isLive_ofOwner]
    simp [History.tags]
  nodup := List.nodup_nil
  carried x area tag hx := by
    rw [hempty] at hx
    cases hx

/-! ### Leaving the tags alone -/

/-- What is left over keeps what it carries, and a new entity carries nothing. -/
theorem apart (h : V.TagsAgree kind past) {deeds : History N E}
    (hledger : (TagHost.ledger V' : TagLedger kind) = TagHost.ledger V)
    (hdeeds : ∀ deed ∈ deeds, deed.Apart kind)
    (hareas : ∀ {entity : EntityKind} (x : Handle entity) (area' : TagArea),
      V'.area? x = some area' →
      ((∃ deed ∈ deeds, deed.adds = some ⟨entity, x⟩) ∧ area' = .clean) ∨
      ((∀ deed ∈ deeds, deed.adds ≠ some ⟨entity, x⟩) ∧
        ∃ area, V.area? x = some area ∧ area.SameCells kind area')) :
    V'.TagsAgree kind (deeds ++ past) := by
  have htags : History.tags kind (deeds ++ past) = History.tags kind past := by
    rw [History.tags_append fun deed hdeed => (hdeeds deed hdeed).frees,
      List.filterMap_eq_nil_iff.2 fun deed hdeed => (hdeeds deed hdeed).grants, List.nil_append]
  refine ⟨hledger ▸ h.sound, fun x area' hx' i => ?_, fun tag => ?_, htags ▸ h.nodup,
    fun x area' tag hx' hlive => ?_⟩
  · rw [hledger]
    rcases hareas x area' hx' with ⟨-, rfl⟩ | ⟨-, area, hx, hsame⟩
    · exact (TagArea.stamp_clean i).trans_le (Nat.zero_le _)
    · exact (hsame i).1.trans_le (h.bounded x area hx i)
  · rw [hledger, htags]
    exact h.inUse tag
  · rw [hledger] at hlive
    rcases hareas x area' hx' with ⟨hnew, rfl⟩ | ⟨hold, area, hx, hsame⟩
    · rw [History.carried?_append_of_adds (fun deed hdeed => (hdeeds deed hdeed).puts) hnew,
        TagArea.carried?_eq_none_iff, TagArea.stamp_clean]
      exact Nat.ne_of_lt (h.sound.value_pos hlive)
    · rw [History.carried?_append (fun deed hdeed => by simp [(hdeeds deed hdeed).grants]) hold
        (fun deed hdeed => by simp [(hdeeds deed hdeed).puts]), hsame.carried?]
      exact h.carried x area tag hx hlive

/-! ### Sweeping -/

variable [BearsTags N E kind]

/-- A sweep leaves the tags in use alone. -/
theorem sweep (h : V.TagsAgree kind past) : (TagHost.sweep kind V).TagsAgree kind past where
  sound := by
    rw [LawfulTagHost.ledger_sweep]
    exact h.sound
  bounded x area' hx' i := by
    rw [BearsTags.area?_sweep] at hx'
    obtain ⟨area, hx, rfl⟩ := Option.map_eq_some_iff.1 hx'
    rw [LawfulTagHost.ledger_sweep, TagArea.stamp_scrub]
    split
    · exact h.bounded x area hx i
    · exact Nat.zero_le _
  inUse tag := by
    rw [LawfulTagHost.ledger_sweep]
    exact h.inUse tag
  nodup := h.nodup
  carried x area' tag hx' hlive := by
    rw [BearsTags.area?_sweep] at hx'
    obtain ⟨area, hx, rfl⟩ := Option.map_eq_some_iff.1 hx'
    rw [LawfulTagHost.ledger_sweep] at hlive
    rw [TagArea.carried?_scrub area hlive]
    exact h.carried x area tag hx hlive

/-- Starting the values over after a sweep leaves the tags in use alone, and the stamps of the
other indices are what the values start from. -/
theorem restart (h : V.TagsAgree kind past) : (TagHost.restart kind V).TagsAgree kind past := by
  have hledger : (TagHost.ledger (TagHost.restart kind V) : TagLedger kind) =
      (TagHost.ledger V : TagLedger kind).restart := by
    rw [TagHost.restart, LawfulTagHost.ledger_setLedger, LawfulTagHost.ledger_sweep]
  have hareas : ∀ {entity : EntityKind} (x : Handle entity),
      (TagHost.restart kind V).area? x = (TagHost.sweep kind V).area? x :=
    fun x => BearsTags.area?_setLedger _ _ x
  refine ⟨hledger ▸ h.sound.restart, fun x area' hx' i => ?_, fun tag => ?_, h.nodup,
    fun x area' tag hx' hlive => ?_⟩
  · rw [hareas, BearsTags.area?_sweep] at hx'
    obtain ⟨area, hx, rfl⟩ := Option.map_eq_some_iff.1 hx'
    rw [hledger, TagArea.stamp_scrub, TagLedger.last_restart]
    by_cases hused : (TagHost.ledger V : TagLedger kind).used[i] = true
    · rw [if_pos hused, if_pos hused]
      exact h.bounded x area hx i
    · rw [if_neg hused, if_neg hused]
  · rw [hledger, TagLedger.isLive_restart]
    exact h.inUse tag
  · rw [hareas] at hx'
    rw [hledger, TagLedger.isLive_restart] at hlive
    refine h.sweep.carried x area' tag hx' ?_
    rwa [LawfulTagHost.ledger_sweep]

/-- A view stays in agreement with its history when room is made for a grant. -/
theorem makeRoom (h : V.TagsAgree kind past) (i : Fin kind.capacity) :
    (TagHost.makeRoom kind i V).TagsAgree kind past := by
  unfold TagHost.makeRoom
  split
  · exact h.restart
  · exact h

/-! ### Granting and releasing -/

/-- A grant with a free index succeeds, and under the tag nothing is carried. -/
theorem grant (h : V.TagsAgree kind past) {tag : Tag kind}
    (hrun : TagHost.grant kind V = .ok tag V') {deed : Deed N E}
    (hgrants : deed.grants? kind = some tag) : V'.TagsAgree kind (deed :: past) := by
  obtain ⟨hfree, granted, rfl, hsound, hvalue, hlast, hlive⟩ := TagHost.of_grant h.sound hrun
  have hroom := h.makeRoom tag.index
  have hledger := LawfulTagHost.ledger_setLedger (TagHost.makeRoom kind tag.index V) granted
  have hold : (TagHost.ledger V : TagLedger kind).isLive tag = false := by
    simp [TagLedger.isLive, TagLedger.used_of_freeIndex hfree]
  refine ⟨hledger.symm ▸ hsound, fun x area hx j => ?_, fun tag' => ?_, ?_,
    fun x area tag' hx hlive' => ?_⟩
  · rw [BearsTags.area?_setLedger] at hx
    have hle := hroom.bounded x area hx j
    rw [hledger, hlast]
    by_cases hj : j = tag.index
    · rw [if_pos hj, hvalue]
      subst hj
      exact Nat.le_succ_of_le hle
    · rw [if_neg hj]
      exact hle
  · rw [hledger, hlive, ← h.inUse, History.tags_cons_of_grants? hgrants, List.mem_cons]
  · rw [History.tags_cons_of_grants? hgrants]
    refine List.nodup_cons.2 ⟨fun hmem => ?_, h.nodup⟩
    rw [h.inUse, hold] at hmem
    cases hmem
  · rw [hledger] at hlive'
    rw [BearsTags.area?_setLedger] at hx
    rcases (hlive tag').1 hlive' with rfl | hlive'
    · rw [History.carried?_cons_of_new (.inl hgrants), TagArea.carried?_eq_none_iff]
      -- the value is past all stamps of the index
      have hle := hroom.bounded x area hx tag'.index
      intro hbad
      rw [hbad, hvalue] at hle
      exact absurd hle (Nat.not_succ_le_self _)
    · have hne : tag' ≠ tag := by
        rintro rfl
        rw [hold] at hlive'
        cases hlive'
      obtain ⟨-, hputs, hadds⟩ := Deed.of_grants? hgrants
      rw [History.carried?_cons (by simp [hgrants, Ne.symm hne]) (by simp [hadds])
        (by simp [hputs])]
      exact hroom.carried x area tag' hx
        ((TagHost.isLive_makeRoom tag.index V tag').trans hlive')

/-- A tag that was taken back is in use no more. -/
theorem release (h : V.TagsAgree kind past) {tag : Tag kind}
    (hrun : TagHost.release tag V = .ok () V') {deed : Deed N E}
    (hfrees : deed.frees? kind = some tag) : V'.TagsAgree kind (deed :: past) := by
  obtain ⟨-, released, rfl, hsound, hlast, hlive⟩ := TagHost.of_release h.sound hrun
  have hledger := LawfulTagHost.ledger_setLedger V released
  obtain ⟨hgrants, hputs, hadds⟩ := Deed.of_frees? hfrees
  refine ⟨hledger.symm ▸ hsound, fun x area hx i => ?_, fun tag' => ?_, ?_,
    fun x area tag' hx hlive' => ?_⟩
  · rw [BearsTags.area?_setLedger] at hx
    rw [hledger, hlast]
    exact h.bounded x area hx i
  · rw [hledger, hlive, History.tags_cons_of_frees? hfrees, h.nodup.mem_erase_iff, h.inUse]
  · rw [History.tags_cons_of_frees? hfrees]
    exact h.nodup.erase tag
  · rw [BearsTags.area?_setLedger] at hx
    rw [hledger, hlive] at hlive'
    rw [History.carried?_cons (by simp [hgrants]) (by simp [hadds]) (by simp [hputs])]
    exact h.carried x area tag' hx hlive'.2

/-! ### Putting -/

/-- What is put under a tag in use on an entity is carried, and nothing else changes. -/
theorem put (h : V.TagsAgree kind past) {entity : EntityKind} {x : Handle entity} {tag : Tag kind}
    {what : Option Nat} {area area' : TagArea}
    (hlive : (TagHost.ledger V : TagLedger kind).isLive tag = true) (hx : V.area? x = some area)
    (hcell : area.Puts tag what area') {deed : Deed N E}
    (hputs : deed.puts? kind = some (⟨entity, x⟩, tag, what)) :
    (V.setArea area' x).TagsAgree kind (deed :: past) := by
  have hsome : (V.area? x).isSome = true := by simp [hx]
  have hledger : (TagHost.ledger (V.setArea area' x) : TagLedger kind) = TagHost.ledger V :=
    BearsTags.ledger_setArea V area' x
  have hvalue := (TagLedger.isLive_iff.1 hlive).2.2
  obtain ⟨hgrants, hfrees, -⟩ := Deed.of_puts? hputs
  have htags := History.tags_cons hgrants hfrees past
  refine ⟨hledger ▸ h.sound, fun {entity'} y b hy i => ?_, fun tag' => ?_, htags ▸ h.nodup,
    fun {entity'} y b tag' hy hlive' => ?_⟩
  · rw [hledger]
    by_cases hyx : (⟨entity', y⟩ : AnyHandle) = ⟨entity, x⟩
    · cases hyx
      rw [View.area?_setArea_self _ hsome] at hy
      obtain rfl := Option.some.inj hy
      rcases hcell.cells i with ⟨hsame, -⟩ | ⟨rfl, hle⟩
      · exact hsame.trans_le (h.bounded x area hx i)
      · exact hle.trans_eq hvalue.symm
    · rw [View.area?_setArea_of_ne _ hsome hyx] at hy
      exact h.bounded y b hy i
  · rw [hledger, htags]
    exact h.inUse tag'
  · rw [hledger] at hlive'
    rw [History.carried?_cons_of_puts? hputs]
    by_cases hyx : (⟨entity', y⟩ : AnyHandle) = ⟨entity, x⟩
    · cases hyx
      rw [View.area?_setArea_self _ hsome] at hy
      obtain rfl := Option.some.inj hy
      -- another tag in use has another index, and its cell is as it was
      by_cases hsame : tag' = tag
      · rw [if_pos ⟨rfl, hsame⟩, hsame]
        exact hcell.carried
      · rw [if_neg fun hboth => hsame hboth.2]
        have hindex : tag'.index ≠ tag.index :=
          fun heq => hsame (TagLedger.eq_of_isLive hlive' hlive heq)
        rcases hcell.cells tag'.index with ⟨hstamp, hcontent⟩ | ⟨hbad, -⟩
        · rw [TagArea.carried?_eq_of_cell hstamp hcontent]
          exact h.carried x area tag' hx hlive'
        · exact absurd hbad hindex
    · rw [View.area?_setArea_of_ne _ hsome hyx] at hy
      rw [if_neg fun hboth => hyx hboth.1]
      exact h.carried y b tag' hy hlive'

/-! ### All steps -/

/-- A step keeps a view in agreement with its history. -/
theorem step (h : V.TagsAgree kind past) {deeds : History N E} (hstep : TagStep kind V deeds V') :
    V'.TagsAgree kind (deeds ++ past) := by
  cases hstep with
  | grant run grants => exact h.grant run grants
  | refuse run =>
      obtain ⟨rfl, -, -⟩ := TagHost.of_grant_error h.sound run
      exact h
  | free run frees => exact h.release run frees
  | sweep => exact h.sweep
  | put x tag inUse live puts cell => exact h.put inUse live (cell (h.sound.value_pos inUse)) puts
  | apart ledger deeds_apart areas => exact h.apart ledger deeds_apart areas

end TagsAgree

/-! ### The other kind -/

/-- The tags of a kind are the same in two views. -/
structure SameTags (kind : TagKind) [TagHost (View N E) kind] (V V' : View N E) : Prop where
  /-- The ledgers are the same. -/
  ledger : (TagHost.ledger V' : TagLedger kind) = TagHost.ledger V
  /-- What is left over has the same cells. -/
  cells : ∀ {entity : EntityKind} (x : Handle entity) (area' : TagArea),
    V'.area? x = some area' → ∃ area, V.area? x = some area ∧ area.SameCells kind area'

namespace SameTags

variable {V'' : View N E}

/-- The tags of a kind are the same in one view. -/
theorem refl (V : View N E) : SameTags kind V V :=
  ⟨rfl, fun _ area h => ⟨area, h, fun _ => ⟨rfl, rfl⟩⟩⟩

/-- The tags of a kind are the same after two changes that leave them alone. -/
theorem trans (h : SameTags kind V V') (h' : SameTags kind V' V'') : SameTags kind V V'' where
  ledger := h'.ledger.trans h.ledger
  cells x area'' hx'' := by
    obtain ⟨area', hx', hcells'⟩ := h'.cells x area'' hx''
    obtain ⟨area, hx, hcells⟩ := h.cells x area' hx'
    exact ⟨area, hx, fun i =>
      ⟨(hcells' i).1.trans (hcells i).1, (hcells' i).2.trans (hcells i).2⟩⟩

/-- New tags of an entity with the same cells. -/
theorem setArea [BearsTags N E kind] {entity : EntityKind} {x : Handle entity}
    {area area' : TagArea} (hx : V.area? x = some area) (hcells : area.SameCells kind area') :
    SameTags kind V (V.setArea area' x) where
  ledger := BearsTags.ledger_setArea V area' x
  cells {entity'} y b hy := by
    have hsome : (V.area? x).isSome = true := by simp [hx]
    by_cases hyx : (⟨entity', y⟩ : AnyHandle) = ⟨entity, x⟩
    · cases hyx
      rw [View.area?_setArea_self area' hsome] at hy
      exact ⟨area, hx, Option.some.inj hy ▸ hcells⟩
    · rw [View.area?_setArea_of_ne area' hsome hyx] at hy
      exact (refl V).cells y b hy

/-- Replacing the ledger of the numerations leaves the markers alone. -/
theorem setNums (V : View N E) (l : TagLedger .numeration) :
    SameTags .marker V (TagHost.setLedger V l) where
  ledger := rfl
  cells x area hx := (refl V).cells x area (by rwa [View.area?_setNums] at hx)

/-- Sweeping numerations leaves the markers alone. -/
theorem sweepNums (V : View N E) : SameTags .marker V (TagHost.sweep .numeration V) where
  ledger := rfl
  cells x area' hx' := by
    obtain ⟨area, hx, rfl⟩ := Option.map_eq_some_iff.1 ((View.area?_mapAreas _ x).symm.trans hx')
    exact ⟨area, hx, area.sameCells_numbers _⟩

/-- Replacing the ledger of the markers leaves the numerations alone. -/
theorem setMarkers (V : View N E) (l : TagLedger .marker) :
    SameTags .numeration V (TagHost.setLedger V l) where
  ledger := rfl
  cells x area hx := (refl V).cells x area (by rwa [View.area?_setMarkers] at hx)

/-- Sweeping markers leaves the numerations alone. -/
theorem sweepMarkers (V : View N E) : SameTags .numeration V (TagHost.sweep .marker V) where
  ledger := rfl
  cells x area' hx' := by
    obtain ⟨area, hx, rfl⟩ := Option.map_eq_some_iff.1 ((View.area?_mapAreas _ x).symm.trans hx')
    exact ⟨area, hx, area.sameCells_marks _⟩

/-- Granting a numeration leaves the markers alone. -/
theorem grantNum (V : View N E) : SameTags .marker V ((TagHost.grant .numeration).after V) :=
  TagHost.grant_preserves refl trans setNums sweepNums V

/-- Taking a numeration back leaves the markers alone. -/
theorem freeNum (V : View N E) (num : Numeration) :
    SameTags .marker V ((TagHost.release num).after V) :=
  TagHost.release_preserves refl setNums V num

/-- Granting a marker leaves the numerations alone. -/
theorem grantMarker (V : View N E) : SameTags .numeration V ((TagHost.grant .marker).after V) :=
  TagHost.grant_preserves refl trans setMarkers sweepMarkers V

/-- Taking a marker back leaves the numerations alone. -/
theorem freeMarker (V : View N E) (marker : Marker) :
    SameTags .numeration V ((TagHost.release marker).after V) :=
  TagHost.release_preserves refl setMarkers V marker

/-- A change that leaves the tags of a kind alone, without a deed. -/
theorem silent (h : SameTags kind V V') : TagStep kind V [] V' :=
  .apart h.ledger (by simp) fun x area' hx' => .inr ⟨by simp, h.cells x area' hx'⟩

/-- A change that leaves the tags of a kind alone, with a deed that adds nothing. -/
theorem single (h : SameTags kind V V') {deed : Deed N E} (hdeed : deed.Apart kind)
    (hadds : deed.adds = none) : TagStep kind V [deed] V' :=
  .apart h.ledger (by simpa using hdeed) fun x area' hx' =>
    .inr ⟨by simp [hadds], h.cells x area' hx'⟩

end SameTags

/-! ### New graphs -/

/-- A blank view has no entities. -/
theorem area?_blank (id : GraphId) (nodeRoom edgeRoom : Nat) (markers : TagLedger .marker)
    (nums : TagLedger .numeration) {entity : EntityKind} (x : Handle entity) :
    (blank id nodeRoom edgeRoom markers nums : View N E).area? x = none := by
  cases entity <;> simp [blank, area?, Population.area?]

/-- A blank view agrees with the empty history about markers. -/
theorem tagsAgree_blank_markers (id : GraphId) (nodeRoom edgeRoom : Nat) (owner : UInt32)
    (nums : TagLedger .numeration) :
    (blank id nodeRoom edgeRoom (.ofOwner owner) nums : View N E).TagsAgree .marker [] :=
  .of_empty rfl fun _ => area?_blank ..

/-- A blank view agrees with the empty history about numerations. -/
theorem tagsAgree_blank_nums (id : GraphId) (nodeRoom edgeRoom : Nat)
    (markers : TagLedger .marker) (owner : UInt32) :
    (blank id nodeRoom edgeRoom markers (.ofOwner owner) : View N E).TagsAgree .numeration [] :=
  .of_empty rfl fun _ => area?_blank ..

end View

/-! ### Moves are steps -/

section

variable {V V' : View N E} {deeds : History N E}

/-- A change that is not about tags is a step for both kinds. -/
theorem Structural.step {kind : TagKind} [TagHost (View N E) kind] (hs : Structural V deeds V')
    (hledger : (TagHost.ledger V' : TagLedger kind) = TagHost.ledger V) :
    View.TagStep kind V deeds V' := by
  refine .apart hledger (fun deed hdeed => Deed.apart_of_onTags (hs.offTags deed hdeed))
    fun x area' hx' => ?_
  rcases hs.areas x area' hx' with hnew | ⟨hold, hx⟩
  · exact .inl hnew
  · exact .inr ⟨hold, (View.SameTags.refl V).cells x area' hx⟩

/-- Every move is a step for the markers. -/
theorem Move.markerStep (hmove : Move V deeds V') : View.TagStep .marker V deeds V' := by
  rcases hmove.tags_or_structural with change | hs
  · cases change with
    | grantMarker run => exact .grant run rfl
    | refuseMarker run => exact .refuse run
    | freeMarker run => exact .free run rfl
    | sweepMarkers => exact .sweep
    | @mark kind x marker area inUse live =>
        exact .put x marker inUse live rfl fun _ => area.puts_mark marker
    | @unmark kind x marker area inUse live =>
        exact .put x marker inUse live rfl fun hpos => area.puts_unmark marker hpos
    | grantNum run =>
        exact (Action.after_of_ok run ▸ View.SameTags.grantNum V).single ⟨rfl, rfl, rfl⟩ rfl
    | refuseNum run => exact (Action.after_of_error run ▸ View.SameTags.grantNum V).silent
    | freeNum run =>
        exact (Action.after_of_ok run ▸ View.SameTags.freeNum V _).single ⟨rfl, rfl, rfl⟩ rfl
    | sweepNums => exact (View.SameTags.sweepNums V).silent
    | @setNumber kind x num value area numbers inUse live fits =>
        exact (View.SameTags.setArea live (area.sameCells_numbers _)).single ⟨rfl, rfl, rfl⟩ rfl
    | @unnumber kind x num area inUse live =>
        exact (View.SameTags.setArea live (area.sameCells_numbers _)).single ⟨rfl, rfl, rfl⟩ rfl
  · exact hs.step hs.markers

/-- Every move is a step for the numerations. -/
theorem Move.numStep (hmove : Move V deeds V') : View.TagStep .numeration V deeds V' := by
  rcases hmove.tags_or_structural with change | hs
  · cases change with
    | grantNum run => exact .grant run rfl
    | refuseNum run => exact .refuse run
    | freeNum run => exact .free run rfl
    | sweepNums => exact .sweep
    | @setNumber kind x num value area numbers inUse live fits =>
        exact .put x num inUse live rfl fun _ => area.puts_setNumber num fits
    | @unnumber kind x num area inUse live =>
        exact .put x num inUse live rfl fun hpos => area.puts_unnumber num hpos
    | grantMarker run =>
        exact (Action.after_of_ok run ▸ View.SameTags.grantMarker V).single ⟨rfl, rfl, rfl⟩ rfl
    | refuseMarker run => exact (Action.after_of_error run ▸ View.SameTags.grantMarker V).silent
    | freeMarker run =>
        exact (Action.after_of_ok run ▸ View.SameTags.freeMarker V _).single ⟨rfl, rfl, rfl⟩ rfl
    | sweepMarkers => exact (View.SameTags.sweepMarkers V).silent
    | @mark kind x marker area inUse live =>
        exact (View.SameTags.setArea live (area.sameCells_marks _)).single ⟨rfl, rfl, rfl⟩ rfl
    | @unmark kind x marker area inUse live =>
        exact (View.SameTags.setArea live (area.sameCells_marks _)).single ⟨rfl, rfl, rfl⟩ rfl
  · exact hs.step hs.nums

end

end SlabGraph
