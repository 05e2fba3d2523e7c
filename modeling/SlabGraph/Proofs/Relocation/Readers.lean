import SlabGraph.Proofs.Listing
import SlabGraph.Proofs.Verify
import SlabGraph.Proofs.Relocation.Alike

/-!
# Readers That Agree

Two readers agree if they answer things that are related, or both fail with faults that are the
same up to slots (`Agree`). What is put together from readers that agree agrees too.

The rosters of populations of which one is the other relocated are read alike. Members are matched
in their order, so the first of all members, and the member after or before another one, are
matched as well.

## Main definitions

* `Agree`, `Handle.SameOption`, `Handle.SameAll`;
* `Roster.Mirrors`.

## Main results

* `Agree.bind`, `Agree.response`;
* `Roster.Mirrors.lookup`, `Mirrors.first`, `Mirrors.next`, `Mirrors.prev`.
-/

namespace SlabGraph

/-! ### Readers that agree -/

/-- Two readers answer what is related, or they fail with the same fault up to slots. -/
inductive Agree {α β : Type} (same : α → β → Prop) : Except Fault α → Except Fault β → Prop
  /-- Both answer. -/
  | ok {a : α} {b : β} (h : same a b) : Agree same (.ok a) (.ok b)
  /-- Both fail. -/
  | error {e e' : Fault} (h : e.unplaced = e'.unplaced) : Agree same (.error e) (.error e')

namespace Agree

variable {α α' β β' : Type} {same : α → α' → Prop} {same' : β → β' → Prop} {x : Except Fault α}
  {x' : Except Fault α'}

/-- Readers that answer the same agree. -/
theorem of_eq {x x' : Except Fault α} (h : x = x') : Agree Eq x x' := by
  subst h
  cases x with
  | ok a => exact .ok rfl
  | error e => exact .error rfl

/-- Readers that go on from what they have read. -/
theorem bind {f : α → Except Fault β} {f' : α' → Except Fault β'} (h : Agree same x x')
    (hf : ∀ a a', same a a' → Agree same' (f a) (f' a')) : Agree same' (x >>= f) (x' >>= f') := by
  cases h with
  | ok hsame => exact hf _ _ hsame
  | error hfault => exact .error hfault

/-- Readers agree after functions were applied to their answers that keep them related. -/
theorem map {f : α → β} {f' : α' → β'} (h : Agree same x x')
    (hf : ∀ a a', same a a' → same' (f a) (f' a')) : Agree same' (f <$> x) (f' <$> x') := by
  cases h with
  | ok hsame => exact .ok (hf _ _ hsame)
  | error hfault => exact .error hfault

/-- Readers that agree give the same response. -/
theorem response {N E : Type} {answer : α → Answer N E} {answer' : α' → Answer N E}
    (h : Agree same x x')
    (hanswer : ∀ a a', same a a' → (answer a).unplaced = (answer' a').unplaced) :
    Response.unplaced (answer <$> x : Except Fault (Answer N E)) =
      Response.unplaced (answer' <$> x' : Except Fault (Answer N E)) := by
  cases h with
  | ok hsame => exact congrArg Except.ok (hanswer _ _ hsame)
  | error hfault => exact congrArg Except.error hfault

end Agree

namespace Handle

variable {kind : EntityKind}

/-- Optional handles of one entity. -/
def SameOption (x? x'? : Option (Handle kind)) : Prop := x?.map unplaced = x'?.map unplaced

/-- Handles of the same entities in the same order. -/
def SameAll (xs xs' : List (Handle kind)) : Prop := xs.map unplaced = xs'.map unplaced

/-- Handles that are the same up to slots begin with one that is. -/
theorem SameAll.head? {xs xs' : List (Handle kind)} (h : SameAll xs xs') :
    SameOption xs.head? xs'.head? := by
  simpa only [SameOption, List.head?_map] using congrArg List.head? h

/-- Handles that are the same up to slots end with one that is. -/
theorem SameAll.getLast? {xs xs' : List (Handle kind)} (h : SameAll xs xs') :
    SameOption xs.getLast? xs'.getLast? := by
  simpa only [SameOption, List.getLast?_map] using congrArg List.getLast? h

end Handle

/-! ### Rosters -/

namespace Population.RelocatedBy

variable {kind : EntityKind} {κ δ : Type} {ρ : Ptr → Ptr} {k : κ → κ} {P P' : Population κ δ}

/-- Members that match have handles of one entity. -/
theorem sameAll_handleAt (h : P.RelocatedBy ρ k P') {xs : List Ptr}
    (hxs : ∀ p ∈ xs, (P.body p).isSome = true) (kind : EntityKind) (graph : GraphId) :
    Handle.SameAll (xs.map (P.handleAt kind graph)) ((xs.map ρ).map (P'.handleAt kind graph)) := by
  rw [Handle.SameAll, List.map_map, List.map_map, List.map_map]
  refine List.map_congr_left fun p hp => ?_
  obtain ⟨b, hb⟩ := Option.isSome_iff_exists.1 (hxs p hp)
  simp [handleAt_eq hb, handleAt_eq (h.body p b hb), Handle.unplaced, Body.relocate]

end Population.RelocatedBy

/-- Two handles, one for each of two populations, stand for one entity. -/
structure Population.Corresponds {kind : EntityKind} {κ δ : Type} (P P' : Population κ δ)
    (graph : GraphId) (x x' : Handle kind) : Prop where
  /-- They agree apart from their slots. -/
  unplaced : x.unplaced = x'.unplaced
  /-- The first one is not at odds with the first population. -/
  left : P.Places graph x
  /-- The second one is not at odds with the second population. -/
  right : P'.Places graph x'

namespace Roster

variable {slots : Nat} [NeZero slots] {ι κ δ : Type} {f : ι → κ} {k : κ → κ} {graph : GraphId}
  {roster roster' : Roster slots ι δ} {P P' : Population κ δ} {ρ : Ptr → Ptr} {kind : EntityKind}

/-- From each member one goes back to the member before it. -/
theorem Shows.prev_run (h : Shows f graph roster P) (hc : P.Consistent) {as bs : List Ptr} {p : Ptr}
    (hmembers : P.members = as ++ p :: bs) :
    (do let record ← roster.lookup graph (P.handleAt kind graph p)
        roster.handle? kind graph (← record.links.prevAt allSlot)) =
      .ok (as.getLast?.map (P.handleAt kind graph)) := by
  obtain ⟨r, hr, -, -, hprev, hbody⟩ := h.member_run hc hmembers
  have hfind : P.find? graph (P.handleAt kind graph p) = some (r.body f) :=
    Population.find?_handleAt hbody
  obtain ⟨s, hrun, hs, -⟩ := h.lookup_run hfind
  obtain rfl : r = s := Option.some.inj (hr.symm.trans hs)
  rw [hrun, ok_bind, hprev, ok_bind]
  refine h.handle?_run kind fun q hq => (hc.mem_iff q).1 ?_
  rw [hmembers]
  exact List.mem_append_left _ (List.mem_of_getLast? hq)

/-- Two rosters show populations of which the second is the first one relocated. -/
structure Mirrors (ρ : Ptr → Ptr) (k : κ → κ) (f : ι → κ) (graph : GraphId) (P P' : Population κ δ)
    (roster roster' : Roster slots ι δ) : Prop where
  /-- The first roster. -/
  left : Shows f graph roster P
  /-- The second roster. -/
  right : Shows f graph roster' P'
  /-- The populations. -/
  relocated : P.RelocatedBy ρ k P'
  /-- The first population. -/
  leftConsistent : P.Consistent
  /-- The second population. -/
  rightConsistent : P'.Consistent

namespace Mirrors

variable (m : Mirrors ρ k f graph P P' roster roster')

include m

/-- Both rosters count as many members. -/
theorem count_eq : roster'.count = roster.count := by
  rw [m.left.count, m.right.count, m.relocated.members, List.length_map]

/-- The handles of all members. -/
theorem sameAll_handles (kind : EntityKind) :
    Handle.SameAll (P.handles kind graph) (P'.handles kind graph) := by
  rw [Population.handles, Population.handles, m.relocated.members]
  exact m.relocated.sameAll_handleAt (fun p hp => (m.leftConsistent.mem_iff p).1 hp) kind graph

/-- The first of all members. -/
theorem first (kind : EntityKind) :
    Agree Handle.SameOption (roster.handle? kind graph roster.first.unpack)
      (roster'.handle? kind graph roster'.first.unpack) := by
  have hlive : ∀ p, P.members.head? = some p → (P.body p).isSome = true := fun p hp =>
    (m.leftConsistent.mem_iff p).1 (List.mem_of_head? hp)
  have hlive' : ∀ p, P'.members.head? = some p → (P'.body p).isSome = true := fun p hp =>
    (m.rightConsistent.mem_iff p).1 (List.mem_of_head? hp)
  rw [m.left.head, m.right.head, m.left.handle?_run kind hlive, m.right.handle?_run kind hlive',
    ← List.head?_map, ← List.head?_map]
  exact .ok (m.sameAll_handles kind).head?

variable {x x' : Handle kind} (hx : P.Corresponds P' graph x x')

include hx

/-- Handles of one entity find the same. -/
theorem find?_eq : (roster'.find? graph x').map (Record.body f) =
    ((roster.find? graph x).map (Record.body f)).map (Body.relocate k) := by
  rw [m.left.find?_map, m.right.find?_map]
  exact m.relocated.find?_eq m.leftConsistent m.rightConsistent hx.unplaced hx.left hx.right

/-- They are both refused, or they are the handles of members that match. -/
theorem member_cases :
    (roster.lookup graph x = .error (x.refusal graph) ∧
      roster'.lookup graph x' = .error (x'.refusal graph)) ∨
    ∃ as p bs, P.members = as ++ p :: bs ∧ P'.members = as.map ρ ++ ρ p :: bs.map ρ ∧
      x = P.handleAt kind graph p ∧ x' = P'.handleAt kind graph (ρ p) := by
  have hfind := m.relocated.find?_eq m.leftConsistent m.rightConsistent hx.unplaced hx.left hx.right
  cases hb : P.find? graph x with
  | none =>
      rw [hb] at hfind
      exact .inl ⟨m.left.lookup_refused hb, m.right.lookup_refused hfind⟩
  | some b =>
      obtain ⟨hbody, heq⟩ := Population.find?_eq_some_iff.1 hb
      rw [hb] at hfind
      obtain ⟨hbody', heq'⟩ := Population.find?_eq_some_iff.1 hfind
      rw [m.relocated.slot_eq hx.unplaced hx.right hb] at hbody' heq'
      obtain ⟨as, bs, hmembers⟩ := List.append_of_mem (m.leftConsistent.mem_of_body hbody)
      refine .inr ⟨as, x.slot, bs, hmembers, by simp [m.relocated.members, hmembers], ?_, ?_⟩
      · exact heq.trans (Population.handleAt_eq hbody).symm
      · exact heq'.trans (Population.handleAt_eq hbody').symm

/-- The records of an entity say the same. -/
theorem lookup : Agree (fun r r' => r'.body f = (r.body f).relocate k) (roster.lookup graph x)
    (roster'.lookup graph x') := by
  rcases m.member_cases hx with ⟨hrefused, hrefused'⟩ | ⟨as, p, bs, hmembers, -, heq, heq'⟩
  · rw [hrefused, hrefused']
    exact .error (Handle.unplaced_refusal hx.unplaced graph)
  · obtain ⟨b, hb⟩ := Option.isSome_iff_exists.1
      ((m.leftConsistent.mem_iff p).1 (by simp [hmembers]))
    obtain ⟨r, hrun, -, hbody⟩ := m.left.lookup_run (heq ▸ Population.find?_handleAt hb)
    obtain ⟨r', hrun', -, hbody'⟩ :=
      m.right.lookup_run (heq' ▸ Population.find?_handleAt (m.relocated.body p b hb))
    rw [hrun, hrun']
    exact .ok (by rw [hbody, hbody'])

/-- The member after another one. -/
theorem next :
    Agree Handle.SameOption
      (do let record ← roster.lookup graph x
          roster.handle? kind graph (← record.links.nextAt allSlot))
      (do let record ← roster'.lookup graph x'
          roster'.handle? kind graph (← record.links.nextAt allSlot)) := by
  rcases m.member_cases hx with
    ⟨hrefused, hrefused'⟩ | ⟨as, p, bs, hmembers, hmembers', heq, heq'⟩
  · rw [hrefused, hrefused']
    exact .error (Handle.unplaced_refusal hx.unplaced graph)
  · have hlive : ∀ q ∈ bs, (P.body q).isSome = true := fun q hq =>
      (m.leftConsistent.mem_iff q).1 (by simp [hmembers, hq])
    rw [heq, heq', m.left.next_run m.leftConsistent hmembers,
      m.right.next_run m.rightConsistent hmembers', ← List.head?_map, ← List.head?_map]
    exact .ok (m.relocated.sameAll_handleAt hlive kind graph).head?

/-- The member before another one. -/
theorem prev :
    Agree Handle.SameOption
      (do let record ← roster.lookup graph x
          roster.handle? kind graph (← record.links.prevAt allSlot))
      (do let record ← roster'.lookup graph x'
          roster'.handle? kind graph (← record.links.prevAt allSlot)) := by
  rcases m.member_cases hx with
    ⟨hrefused, hrefused'⟩ | ⟨as, p, bs, hmembers, hmembers', heq, heq'⟩
  · rw [hrefused, hrefused']
    exact .error (Handle.unplaced_refusal hx.unplaced graph)
  · have hlive : ∀ q ∈ as, (P.body q).isSome = true := fun q hq =>
      (m.leftConsistent.mem_iff q).1 (by simp [hmembers, hq])
    rw [heq, heq', m.left.prev_run m.leftConsistent hmembers,
      m.right.prev_run m.rightConsistent hmembers', ← List.getLast?_map, ← List.getLast?_map]
    exact .ok (m.relocated.sameAll_handleAt hlive kind graph).getLast?

end Mirrors

end Roster

end SlabGraph
