import SlabGraph.Proofs.Walk

/-!
# The Lists of All Entities

Going through all nodes, or through all edges, answers the handles of the members in their
order (`Graph.Holds.nodeList_run`, `Graph.Holds.edgeList_run`), which is that of their ids, the
newest first. Both are the same walk over a roster (`Roster.Shows.list_run`), each of whose
steps looks the last handle up and builds the one of the entity after it.

## Main definitions

* `Population.handleAt`, the handle of the member in a slot, and `Population.handles`.

## Main results

* `Population.Consistent.mem_handles`, `Population.Consistent.handles_newest_first`;
* `Graph.Holds.nodeList_run`, `Graph.Holds.edgeList_run`.
-/

namespace SlabGraph

/-! ### Handles of a population -/

namespace Population

variable {κ δ : Type} {P : Population κ δ} {kind : EntityKind} {graph : GraphId}

/-- The handle of the member in a slot. -/
def handleAt (kind : EntityKind) (P : Population κ δ) (graph : GraphId) (p : Ptr) : Handle kind :=
  ⟨graph, (P.body p).elim 0 Body.uid, p⟩

/-- The handles of all members, the newest first. -/
def handles (kind : EntityKind) (P : Population κ δ) (graph : GraphId) : List (Handle kind) :=
  P.members.map (P.handleAt kind graph)

/-- The handle of the member in a slot has its id. -/
theorem handleAt_eq {p : Ptr} {b : Body κ δ} (hb : P.body p = some b) :
    P.handleAt kind graph p = ⟨graph, b.uid, p⟩ := by
  simp [handleAt, hb]

/-- The handle of the member in a slot finds it. -/
theorem find?_handleAt {p : Ptr} {b : Body κ δ} (hb : P.body p = some b) :
    P.find? graph (P.handleAt kind graph p) = some b :=
  find?_eq_some_iff.2 ⟨hb, handleAt_eq hb⟩

namespace Consistent

/-- The handles of members are those that find something. -/
theorem mem_handles (h : P.Consistent) {x : Handle kind} :
    x ∈ P.handles kind graph ↔ (P.find? graph x).isSome = true := by
  rw [handles, List.mem_map, Option.isSome_iff_exists]
  constructor
  · rintro ⟨p, hp, rfl⟩
    obtain ⟨b, hb⟩ := Option.isSome_iff_exists.1 ((h.mem_iff p).1 hp)
    exact ⟨b, find?_handleAt hb⟩
  · rintro ⟨b, hb⟩
    obtain ⟨hbody, hx⟩ := find?_eq_some_iff.1 hb
    exact ⟨x.slot, h.mem_of_body hbody, (handleAt_eq hbody).trans hx.symm⟩

/-- Their ids decrease. -/
theorem handles_newest_first (h : P.Consistent) (kind : EntityKind) (graph : GraphId) :
    (P.handles kind graph).Pairwise fun x y => y.uid < x.uid := by
  refine List.pairwise_map.2 (h.newest_first.imp_of_mem fun {p q} hp hq hlt => ?_)
  obtain ⟨a, ha⟩ := Option.isSome_iff_exists.1 ((h.mem_iff p).1 hp)
  obtain ⟨b, hb⟩ := Option.isSome_iff_exists.1 ((h.mem_iff q).1 hq)
  rw [handleAt_eq ha, handleAt_eq hb]
  exact hlt a b ha hb

/-- No handle is listed twice. -/
theorem nodup_handles (h : P.Consistent) (kind : EntityKind) (graph : GraphId) :
    (P.handles kind graph).Nodup := by
  refine (h.handles_newest_first kind graph).imp fun hlt heq => ?_
  rw [heq] at hlt
  exact Nat.lt_irrefl _ hlt

end Consistent

/-- The handles of members that are kept. -/
theorem handles_keep (P : Population κ δ) (k : Ptr → Bool) (kind : EntityKind) (graph : GraphId) :
    (P.keep k).handles kind graph = (P.handles kind graph).filter fun x => k x.slot := by
  rw [handles, handles, List.filter_map]
  refine List.map_congr_left fun p hp => ?_
  simp [handleAt, body_keep, (List.mem_filter.1 hp).2]

/-- The handle of a new member comes before those of the others. -/
theorem Consistent.handles_add (h : P.Consistent) {p : Ptr} (b : Body κ δ)
    (hp : P.body p = none) (kind : EntityKind) (graph : GraphId) :
    (P.add p b).handles kind graph = ⟨graph, b.uid, p⟩ :: P.handles kind graph := by
  have hold : ∀ q ∈ P.members, (P.add p b).handleAt kind graph q = P.handleAt kind graph q := by
    intro q hq
    obtain ⟨c, hc⟩ := Option.isSome_iff_exists.1 ((h.mem_iff q).1 hq)
    rw [handleAt_eq hc, handleAt_eq (body_add_of_body b hp hc)]
  refine List.cons_eq_cons.2 ⟨handleAt_eq (body_add_self p b), ?_⟩
  exact List.map_congr_left hold

/-- The handles stay when a body is altered. -/
theorem handles_write (P : Population κ δ) (p : Ptr) {k : Body κ δ → Body κ δ}
    (hk : ∀ b, (k b).uid = b.uid) (kind : EntityKind) (graph : GraphId) :
    (P.write p k).handles kind graph = P.handles kind graph := by
  refine List.map_congr_left fun q _ => ?_
  rw [handleAt, handleAt, body_write]
  by_cases hq : q = p
  · rw [if_pos hq]
    cases P.body q with
    | none => rfl
    | some b => exact congrArg (fun uid => (⟨graph, uid, q⟩ : Handle kind)) (hk b)
  · rw [if_neg hq]

/-- When one member leaves, there is one less. -/
theorem Consistent.length_keep_ne (h : P.Consistent) {p : Ptr} {b : Body κ δ}
    (hb : P.body p = some b) : (P.keep (· != p)).members.length + 1 = P.members.length := by
  have hmem := h.mem_of_body hb
  have hkeep : (P.keep (· != p)).members = P.members.erase p := (h.nodup.erase_eq_filter p).symm
  rw [hkeep, List.length_erase_of_mem hmem]
  have hpos := List.length_pos_of_mem hmem
  omega

/-- There are as many handles as members. -/
theorem length_handles (P : Population κ δ) (kind : EntityKind) (graph : GraphId) :
    (P.handles kind graph).length = P.members.length := List.length_map _

end Population

/-! ### Walks over a roster -/

namespace Roster.Shows

variable {slots : Nat} [NeZero slots] {ι κ δ : Type} {f : ι → κ} {graph : GraphId}
  {roster : Roster slots ι δ} {P : Population κ δ} {kind : EntityKind}

/-- The handle of an optional member. -/
theorem handle?_run (kind : EntityKind) (h : Shows f graph roster P) {p? : Option Ptr}
    (hp : ∀ p, p? = some p → (P.body p).isSome = true) :
    roster.handle? kind graph p? = .ok (p?.map (P.handleAt kind graph)) := by
  cases p? with
  | none => rfl
  | some p =>
      obtain ⟨b, hb⟩ := Option.isSome_iff_exists.1 (hp p rfl)
      rw [handle?, h.handle_run kind hb, Option.map_some, Population.handleAt_eq hb]
      rfl

/-- From each member one goes on to the member after it. -/
theorem next_run (h : Shows f graph roster P) (hc : P.Consistent) {as bs : List Ptr} {p : Ptr}
    (hmembers : P.members = as ++ p :: bs) :
    (do let record ← roster.lookup graph (P.handleAt kind graph p)
        roster.handle? kind graph (← record.links.nextAt allSlot)) =
      .ok (bs.head?.map (P.handleAt kind graph)) := by
  have hlive : ∀ q ∈ as ++ p :: bs, (P.body q).isSome = true := fun q hq =>
    (hc.mem_iff q).1 (hmembers ▸ hq)
  obtain ⟨b, hb⟩ := Option.isSome_iff_exists.1 (hlive p (by simp))
  have hfind : P.find? graph (P.handleAt kind graph p) = some b := Population.find?_handleAt hb
  obtain ⟨r, hrun, hr, -⟩ := h.lookup_run hfind
  have hnext := ((h.complete hc).threaded.links as p bs hmembers).2
  rw [Pool.next_eq (p := p) hr] at hnext
  rw [hrun, ok_bind, show r.links.nextAt allSlot = .ok bs.head? from hnext, ok_bind]
  refine h.handle?_run kind fun q hq => hlive q ?_
  exact List.mem_append_right _ (List.mem_cons_of_mem p (List.mem_of_head? hq))

/-- Going on from the first member meets all of them in their order. -/
theorem list_run (h : Shows f graph roster P) (hc : P.Consistent) :
    (do follow (fun x : Handle kind => do
            let record ← roster.lookup graph x
            roster.handle? kind graph (← record.links.nextAt allSlot))
          (roster.count + 1) (← roster.handle? kind graph roster.first.unpack)) =
      .ok (P.handles kind graph) := by
  have hfirst : ∀ p, P.members.head? = some p → (P.body p).isSome = true := fun p hp =>
    (hc.mem_iff p).1 (List.mem_of_head? hp)
  rw [h.head, h.handle?_run kind hfirst, ok_bind, ← List.head?_map]
  refine follow_run (fun x xs hxs => ?_) ?_
  · obtain ⟨ys, hys⟩ := hxs
    obtain ⟨as, cs, hmembers, rfl, hcs⟩ := List.map_eq_append_iff.1 hys.symm
    obtain ⟨p, bs, rfl, rfl, rfl⟩ := List.map_eq_cons_iff.1 hcs
    rw [h.next_run hc hmembers, List.head?_map]
  · rw [List.length_map, h.count]
    exact Nat.le_succ _

end Roster.Shows

/-! ### Graphs -/

namespace Graph

variable {N E : Type} {g : Graph N E} {V : View N E}

/-- The list of all nodes. -/
theorem Holds.nodeList_run (h : Holds g V) : g.nodeList = .ok (V.nodes.handles .node V.id) := by
  rw [h.shown.id]
  exact h.shown.nodes.list_run h.consistent.nodes

/-- The list of all edges. -/
theorem Holds.edgeList_run (h : Holds g V) : g.edgeList = .ok (V.edges.handles .edge V.id) := by
  rw [h.shown.id]
  exact h.shown.edges.list_run h.consistent.edges

end Graph

end SlabGraph
