import SlabGraph.Proofs.Structure

/-!
# The Structural Check Accepts

`Graph.verify` reads a graph record by record and stops at the first thing that is wrong. A graph
that holds a consistent view has nothing wrong with it, so the check comes to its end
(`Graph.Holds.verify_run`).

Each of the loops of the check is at some member of a list, with the members before it behind
it. What the loop expects of a member then says where in the list the member stands, and the
links of a list say just this. The ids met so far differ from those ahead, since an id names one
member (`Population.Unmet`).

## Main definitions

* `Population.Unmet`.

## Main results

* `Graph.Holds.verifyIncident_run`, `Graph.Holds.verifyNodes_run`, `Graph.Holds.verifyEdges_run`;
* `Graph.Holds.verify_run`.
-/

namespace SlabGraph

/-! ### Members -/

/-- None of some slots holds one of the ids met so far. -/
def Population.Unmet {κ δ : Type} (P : Population κ δ) (seen : List Nat) (xs : List Ptr) : Prop :=
  ∀ p ∈ xs, ∀ b, P.body p = some b → b.uid ∉ seen

/-- The id of a member that is met is not that of a later member. -/
theorem Population.Consistent.unmet_cons {κ δ : Type} {P : Population κ δ} (h : P.Consistent)
    {as : List Ptr} {p : Ptr} {xs : List Ptr} (hxs : P.members = as ++ p :: xs)
    {b : Body κ δ} (hb : P.body p = some b) {seen : List Nat} (hunmet : P.Unmet seen (p :: xs)) :
    P.Unmet (b.uid :: seen) xs := by
  intro q hq c hc hmem
  rcases List.mem_cons.1 hmem with huid | hseen
  · obtain rfl : q = p := h.uid_inj hc hb huid
    have hnodup := h.nodup
    rw [hxs] at hnodup
    exact (List.nodup_cons.1 (List.nodup_append.1 hnodup).2.1).1 hq
  · exact hunmet q (List.mem_cons_of_mem p hq) c hc hseen

/-- What the check reads at a member of a roster. -/
theorem Roster.Shows.member_run {slots : Nat} [NeZero slots] {ι κ δ : Type} {f : ι → κ}
    {graph : GraphId} {roster : Roster slots ι δ} {P : Population κ δ}
    (h : Shows f graph roster P) (hc : P.Consistent) {as : List Ptr} {p : Ptr} {xs : List Ptr}
    (hxs : P.members = as ++ p :: xs) :
    ∃ r, roster.pool.get? p = some r ∧ roster.record p = .ok r ∧ r.graph = graph ∧
      r.links.prevAt allSlot = .ok as.getLast? ∧ P.body p = some (r.body f) := by
  have hp : p ∈ P.members := by simp [hxs]
  obtain ⟨b, hb⟩ := Option.isSome_iff_exists.1 ((hc.mem_iff p).1 hp)
  obtain ⟨r, hr, rfl⟩ := h.exists_record hb
  refine ⟨r, hr, Pool.read_of_get? hr, h.graph p r hr, ?_, hb⟩
  have hprev := ((h.complete hc).threaded.links as p xs hxs).1
  rwa [Pool.prev_eq hr] at hprev

/-! ### The loops -/

/-- A test passes if its condition holds. -/
theorem ensure_run {condition : Bool} {violation : Violation} (h : condition = true) :
    ensure condition violation = .ok () := by
  simp [ensure, h]

/-- A comparison passes if both values are equal. -/
theorem ensureEq_run {α : Type} [DecidableEq α] {found expected : α}
    {violation : α → α → Violation} (h : found = expected) :
    ensureEq found expected violation = .ok () :=
  ensure_run (decide_eq_true h)

namespace Graph

variable {N E : Type} {g : Graph N E} {V : View N E}

/-- The list of a node passes, from any of its members on. -/
theorem Holds.verifyIncident_run (h : Holds g V) {n : Ptr} {node : NodeRecord N}
    (hn : g.nodes.pool.get? n = some node) (uid : Nat) (dir : Direction) (as : List Ptr)
    {xs : List Ptr} (hxs : V.inc n dir = as ++ xs) :
    g.verifyIncident n uid dir as.getLast? xs = .ok xs.length := by
  induction xs generalizing as with
  | nil => rfl
  | cons e xs ih =>
      have he : e ∈ V.inc n dir := by simp [hxs]
      obtain ⟨b, hb, hend⟩ := h.consistent.body_of_mem_inc he
      obtain ⟨edge, hedge, hinc⟩ := h.shown.exists_edge hb
      have hprev := ((h.threaded_inc hn dir).links as e xs hxs).1
      rw [Pool.prev_eq hedge] at hprev
      have hrest : g.verifyIncident n uid dir (some e) xs = .ok xs.length := by
        rw [← List.getLast?_concat (l := as)]
        exact ih (as ++ [e]) (by simp [hxs])
      have hrecord : g.edges.record e = .ok edge := Pool.read_of_get? hedge
      have hat : edge.incidence.get dir.rev = n := by rw [hinc, hend]
      rw [verifyIncident, hrecord, ok_bind, ensureEq_run hat, ok_bind]
      change (edge.links.prevAt _ >>= _) = _
      rw [show edge.links.prevAt (incidenceSlot dir) = .ok as.getLast? from hprev, ok_bind,
        ensureEq_run rfl, ok_bind, hrest, ok_bind]
      rfl

/-- The list of all nodes passes, from any of its members on. -/
theorem Holds.verifyNodes_run (h : Holds g V) {seen : List Nat} (as : List Ptr)
    {xs : List Ptr} (hxs : V.nodes.members = as ++ xs) (hunmet : V.nodes.Unmet seen xs) :
    g.verifyNodes seen as.getLast? xs =
      .ok ((xs.map fun n => (V.inc n .up).length).sum,
        (xs.map fun n => (V.inc n .down).length).sum) := by
  induction xs generalizing seen as with
  | nil => rfl
  | cons n xs ih =>
      obtain ⟨node, hnode, hrecord, hgraph, hprev, hbody⟩ :=
        h.shown.nodes.member_run h.consistent.nodes hxs
      have hlive : (V.nodes.body n).isSome = true := by simp [hbody]
      have huid : node.uid ∉ seen := hunmet n List.mem_cons_self _ hbody
      have hnew : (!seen.contains node.uid) = true := by simpa using huid
      have hrest : g.verifyNodes (node.uid :: seen) (some n) xs =
          .ok ((xs.map fun n => (V.inc n .up).length).sum,
            (xs.map fun n => (V.inc n .down).length).sum) := by
        rw [← List.getLast?_concat (l := as)]
        exact ih (as ++ [n]) (by simp [hxs]) (h.consistent.nodes.unmet_cons hxs hbody hunmet)
      have hlist : ∀ dir, g.verifyIncident n node.uid dir none (V.inc n dir) =
          .ok (V.inc n dir).length := fun dir => h.verifyIncident_run hnode node.uid dir [] rfl
      have hslots : ∀ dir, g.incidentSlots n dir = .ok (V.inc n dir) := h.incidentSlots_run hlive
      simp only [verifyNodes, hrecord, ok_bind, ensure_run hnew, hprev, hslots, hlist, hrest,
        ensureEq_run hgraph, ensureEq_run (Eq.refl as.getLast?)]
      rfl

/-- The ends of an edge pass. -/
theorem Holds.verifyEnd_run (h : Holds g V) {e : Ptr} {edge : EdgeRecord E}
    (he : g.edges.pool.get? e = some edge) (dir : Direction) :
    g.verifyEnd e edge dir = .ok () := by
  have hbody := h.shown.edges.body_of_record he
  have hlive : (V.nodes.body (edge.incidence.get dir)).isSome = true :=
    h.consistent.ends e _ hbody dir
  have hend : (g.nodes.pool.get? (edge.incidence.get dir)).isSome = true := by
    rwa [← h.shown.nodes.isSome_body]
  have hmem : (V.inc (edge.incidence.get dir) dir.rev).contains e = true := by
    rw [List.contains_iff_mem, h.consistent.inc_iff]
    exact ⟨_, hbody, by rw [Direction.rev_rev]; rfl⟩
  simp only [verifyEnd, ensure_run hend, ok_bind, h.incidentSlots_run hlive, ensure_run hmem]

/-- The list of all edges passes, from any of its members on. -/
theorem Holds.verifyEdges_run (h : Holds g V) {seen : List Nat} (as : List Ptr)
    {xs : List Ptr} (hxs : V.edges.members = as ++ xs) (hunmet : V.edges.Unmet seen xs) :
    g.verifyEdges seen as.getLast? xs = .ok () := by
  induction xs generalizing seen as with
  | nil => rfl
  | cons e xs ih =>
      obtain ⟨edge, hedge, hrecord, hgraph, hprev, hbody⟩ :=
        h.shown.edges.member_run h.consistent.edges hxs
      have huid : edge.uid ∉ seen := hunmet e List.mem_cons_self _ hbody
      have hnew : (!seen.contains edge.uid) = true := by simpa using huid
      have hrest : g.verifyEdges (edge.uid :: seen) (some e) xs = .ok () := by
        rw [← List.getLast?_concat (l := as)]
        exact ih (as ++ [e]) (by simp [hxs]) (h.consistent.edges.unmet_cons hxs hbody hunmet)
      have hends : Direction.all.forM (g.verifyEnd e edge) = .ok () :=
        forM_eq_ok_iff.2 fun dir _ => h.verifyEnd_run hedge dir
      simp only [verifyEdges, hrecord, ok_bind, ensure_run hnew, hprev, hends, hrest,
        ensureEq_run hgraph, ensureEq_run (Eq.refl as.getLast?)]

/-! ### The check -/

/-- The check finds nothing wrong with a graph that holds a consistent view. -/
theorem Holds.verify_run (h : Holds g V) : g.verify = .ok () := by
  have hnodes := h.shown.nodes.complete h.consistent.nodes
  have hedges := h.shown.edges.complete h.consistent.edges
  have hverifyNodes : g.verifyNodes [] none V.nodes.members =
      .ok (g.edges.count, g.edges.count) := by
    have hrun := h.verifyNodes_run [] rfl (fun _ _ _ _ => List.not_mem_nil)
    rwa [h.sum_length_inc .up, h.sum_length_inc .down] at hrun
  have hverifyEdges : g.verifyEdges [] none V.edges.members = .ok () :=
    h.verifyEdges_run [] rfl fun _ _ _ _ => List.not_mem_nil
  simp only [verify, h.shown.nodes.members_run h.consistent.nodes, ok_bind, hverifyNodes,
    h.shown.edges.members_run h.consistent.edges, hverifyEdges,
    ensureEq_run hnodes.count.symm, ensureEq_run hedges.count.symm,
    ensureEq_run (hnodes.live.trans hnodes.count.symm),
    ensureEq_run (hedges.live.trans hedges.count.symm), ensureEq_run (Eq.refl g.edges.count)]

end Graph

end SlabGraph
