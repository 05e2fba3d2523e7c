import SlabGraph.Proofs.Graph.Population

/-!
# Relocated Populations

A population is relocated if its members stand in other slots: in the same order, with the same
ids, tags and payloads, and with the same id to come. What stands in a slot may name slots
itself, so it is carried along.

Members are matched by a map of slots. The map is one-to-one on the members, since a population
has no member twice, and all that a change of a population asks about slots, which one is meant
and which are kept, is answered in both populations alike.

A handle names slots as well. Two handles that agree apart from their slots find the same in both
populations, provided that neither is at odds with them (`Population.Places`): if the entity is a
member, the slot of the handle is where it stands.

## Main definitions

* `Handle.unplaced`, a handle without its slot;
* `Population.RelocatedBy`, `Population.Places`.

## Main results

* `Population.RelocatedBy.add`, `RelocatedBy.keep`, `RelocatedBy.alter`, `RelocatedBy.write`;
* `Population.RelocatedBy.find?_eq`, `RelocatedBy.slot_eq`.
-/

namespace SlabGraph

/-- A handle with its slot left out. -/
def Handle.unplaced {kind : EntityKind} (x : Handle kind) : Handle kind :=
  { x with slot := default }

/-- Handles that agree apart from their slots. -/
theorem Handle.unplaced_inj {kind : EntityKind} {x y : Handle kind} :
    x.unplaced = y.unplaced ↔ x.graph = y.graph ∧ x.uid = y.uid := by
  simp [unplaced]

/-- A body that names other slots. -/
def Body.relocate {κ δ : Type} (f : κ → κ) (b : Body κ δ) : Body κ δ :=
  { b with incidence := f b.incidence }

namespace Population

variable {kind : EntityKind} {κ δ : Type} {ρ : Ptr → Ptr} {f : κ → κ} {P P' : Population κ δ}

/-- A population is another one with its members in other slots. -/
structure RelocatedBy (ρ : Ptr → Ptr) (f : κ → κ) (P P' : Population κ δ) : Prop where
  /-- The members stand in the same order. -/
  members : P'.members = P.members.map ρ
  /-- What stands in a slot is carried along. -/
  body : ∀ p b, P.body p = some b → P'.body (ρ p) = some (b.relocate f)
  /-- The id to come is the same. -/
  next : P'.next = P.next

/-- A handle is not at odds with a population: if its entity is a member, it stands in the slot of
the handle. -/
def Places (P : Population κ δ) (graph : GraphId) (x : Handle kind) : Prop :=
  ∀ p b, P.body p = some b → x.graph = graph → x.uid = b.uid → p = x.slot

/-- A live handle is not at odds with its population. -/
theorem Consistent.places_of_find? (hc : P.Consistent) {graph : GraphId} {x : Handle kind}
    {b : Body κ δ} (hb : P.find? graph x = some b) : P.Places graph x := by
  intro p c hp _ huid
  obtain ⟨hbody, heq⟩ := find?_eq_some_iff.1 hb
  exact hc.uid_inj hp hbody (huid.symm.trans (congrArg Handle.uid heq))

namespace RelocatedBy

/-! ### Matching slots -/

/-- Members in different slots stay in different slots. -/
theorem slot_inj (h : P.RelocatedBy ρ f P') (hc : P.Consistent) (hc' : P'.Consistent) {p q : Ptr}
    (hp : (P.body p).isSome = true) (hq : (P.body q).isSome = true) : ρ p = ρ q ↔ p = q := by
  refine ⟨fun heq => ?_, congrArg ρ⟩
  have hnodup : (P.members.map ρ).Nodup := h.members ▸ hc'.nodup
  exact List.inj_on_of_nodup_map hnodup ((hc.mem_iff p).2 hp) ((hc.mem_iff q).2 hq) heq

/-- Every member is the image of one. -/
theorem exists_of_body (h : P.RelocatedBy ρ f P') (hc : P.Consistent) (hc' : P'.Consistent)
    {p' : Ptr} {b' : Body κ δ} (hb' : P'.body p' = some b') :
    ∃ p b, P.body p = some b ∧ ρ p = p' ∧ b' = b.relocate f := by
  have hmem := hc'.mem_of_body hb'
  rw [h.members] at hmem
  obtain ⟨p, hp, rfl⟩ := List.mem_map.1 hmem
  obtain ⟨b, hb⟩ := Option.isSome_iff_exists.1 ((hc.mem_iff p).1 hp)
  exact ⟨p, b, hb, rfl, Option.some.inj (hb'.symm.trans (h.body p b hb))⟩

/-- Only what happens to members matters. -/
theorem congr {ρ' : Ptr → Ptr} {f' : κ → κ} (h : P.RelocatedBy ρ f P') (hc : P.Consistent)
    (hρ : ∀ p, (P.body p).isSome = true → ρ' p = ρ p)
    (hf : ∀ p b, P.body p = some b → f' b.incidence = f b.incidence) : P.RelocatedBy ρ' f' P' where
  members := by
    rw [h.members]
    exact List.map_congr_left fun p hp => (hρ p ((hc.mem_iff p).1 hp)).symm
  body p b hb := by
    rw [hρ p (by simp [hb]), h.body p b hb, Body.relocate, Body.relocate, hf p b hb]
  next := h.next

/-! ### Changes -/

/-- A new member may be put into any free slot. -/
theorem add (h : P.RelocatedBy ρ f P') (hc : P.Consistent) {p p' : Ptr} {b : Body κ δ}
    (hp : P.body p = none) (hp' : P'.body p' = none) :
    (P.add p b).RelocatedBy (Function.update ρ p p') f (P'.add p' (b.relocate f)) where
  members := by
    have hold : ∀ q ∈ P.members, ρ q = Function.update ρ p p' q := fun q hq => by
      have hsome := (hc.mem_iff q).1 hq
      have hne : q ≠ p := by
        rintro rfl
        simp [hp] at hsome
      rw [Function.update_of_ne hne]
    simp only [Population.add, List.map_cons, Function.update_self, h.members]
    rw [List.map_congr_left hold]
  body q c hq := by
    by_cases hqp : q = p
    · subst hqp
      rw [body_add_self, Option.some.injEq] at hq
      rw [Function.update_self, body_add_self, hq]
    · rw [body_add_of_ne b hqp] at hq
      have hbody := h.body q c hq
      have hne : ρ q ≠ p' := by
        rintro heq
        rw [heq, hp'] at hbody
        cases hbody
      rw [Function.update_of_ne hqp, body_add_of_ne _ hne, hbody]
  next := congrArg (· + 1) h.next

/-- Members that match are kept alike. -/
theorem keep (h : P.RelocatedBy ρ f P') (hc : P.Consistent) {k k' : Ptr → Bool}
    (hk : ∀ p, (P.body p).isSome = true → k' (ρ p) = k p) :
    (P.keep k).RelocatedBy ρ f (P'.keep k') where
  members := by
    simp only [Population.keep, h.members, List.filter_map]
    congr 1
    exact List.filter_congr fun p hp => hk p ((hc.mem_iff p).1 hp)
  body p b hb := by
    rw [body_keep] at hb
    cases hkp : k p with
    | false => simp [hkp] at hb
    | true =>
        have hb' : P.body p = some b := by simpa [hkp] using hb
        rw [body_keep, hk p (by simp [hb']), hkp, if_pos rfl, h.body p b hb']
  next := h.next

/-- What stands in slots that match is altered alike. -/
theorem alter (h : P.RelocatedBy ρ f P') {g g' : Ptr → Body κ δ → Body κ δ}
    (hg : ∀ p b, P.body p = some b → g' (ρ p) (b.relocate f) = (g p b).relocate f) :
    (P.alter g).RelocatedBy ρ f (P'.alter g') where
  members := h.members
  body p c hp := by
    obtain ⟨b, hb, rfl⟩ := Option.map_eq_some_iff.1 hp
    rw [body_alter, h.body p b hb, Option.map_some, hg p b hb]
  next := h.next

/-- One member is altered. -/
theorem write (h : P.RelocatedBy ρ f P') (hc : P.Consistent) (hc' : P'.Consistent) {p : Ptr}
    (hp : (P.body p).isSome = true) {k k' : Body κ δ → Body κ δ}
    (hk : ∀ b, k' (b.relocate f) = (k b).relocate f) :
    (P.write p k).RelocatedBy ρ f (P'.write (ρ p) k') := by
  refine h.alter fun q b hq => ?_
  have hslot := h.slot_inj hc hc' (p := q) (by simp [hq]) hp
  by_cases hqp : q = p
  · rw [if_pos hqp, if_pos (congrArg ρ hqp), hk]
  · rw [if_neg hqp, if_neg fun heq => hqp (hslot.1 heq)]

/-- Populations without members. -/
theorem of_members_nil (hc : P.Consistent) (hP : P.members = []) (hP' : P'.members = [])
    (hnext : P'.next = P.next) : P.RelocatedBy ρ f P' where
  members := by rw [hP, hP', List.map_nil]
  body p b hb := by
    have hmem := hc.mem_of_body hb
    rw [hP] at hmem
    cases hmem
  next := hnext

/-! ### Handles -/

section

variable {graph : GraphId} {x x' : Handle kind}

/-- Handles of one entity find the same. -/
theorem find?_eq (h : P.RelocatedBy ρ f P') (hc : P.Consistent) (hc' : P'.Consistent)
    (hxx' : x.unplaced = x'.unplaced) (hx : P.Places graph x) (hx' : P'.Places graph x') :
    P'.find? graph x' = (P.find? graph x).map (Body.relocate f) := by
  obtain ⟨hgraph, huid⟩ := Handle.unplaced_inj.1 hxx'
  by_cases howner : x.graph = graph
  swap
  · have howner' : ¬ x'.graph = graph := fun heq => howner (hgraph.trans heq)
    simp [Population.find?, howner, howner']
  have howner' : x'.graph = graph := hgraph.symm.trans howner
  cases hb : P.find? graph x with
  | some b =>
      obtain ⟨hbody, heq⟩ := find?_eq_some_iff.1 hb
      have hbody' := h.body _ b hbody
      have hslot : ρ x.slot = x'.slot :=
        hx' _ _ hbody' howner' (huid.symm.trans (congrArg Handle.uid heq))
      rw [hslot] at hbody'
      refine find?_eq_some_iff.2 ⟨hbody', ?_⟩
      rw [← howner']
      exact congrArg (Handle.mk x'.graph · x'.slot) (huid.symm.trans (congrArg Handle.uid heq))
  | none =>
      refine Option.eq_none_iff_forall_ne_some.2 fun b' hb' => ?_
      obtain ⟨hbody', heq'⟩ := find?_eq_some_iff.1 hb'
      obtain ⟨p, b, hbody, -, rfl⟩ := h.exists_of_body hc hc' hbody'
      have hxuid : x.uid = b.uid := huid.trans (congrArg Handle.uid heq')
      obtain rfl := hx p b hbody howner hxuid
      have hfound : P.find? graph x = some b := by
        refine find?_eq_some_iff.2 ⟨hbody, ?_⟩
        rw [← howner, ← hxuid]
      rw [hb] at hfound
      cases hfound

/-- Live handles of one entity name slots that match. -/
theorem slot_eq (h : P.RelocatedBy ρ f P') (hxx' : x.unplaced = x'.unplaced)
    (hx' : P'.Places graph x') {b : Body κ δ} (hb : P.find? graph x = some b) :
    x'.slot = ρ x.slot := by
  obtain ⟨hgraph, huid⟩ := Handle.unplaced_inj.1 hxx'
  obtain ⟨hbody, heq⟩ := find?_eq_some_iff.1 hb
  refine (hx' _ _ (h.body _ b hbody) ?_ ?_).symm
  · exact hgraph.symm.trans (congrArg Handle.graph heq)
  · exact huid.symm.trans (congrArg Handle.uid heq)

end

end RelocatedBy

end Population

end SlabGraph
