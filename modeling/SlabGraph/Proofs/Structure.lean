import Mathlib.Algebra.BigOperators.Group.List.Lemmas
import Mathlib.Data.List.Flatten
import Mathlib.Data.Set.List
import SlabGraph.Graph.Verify
import SlabGraph.Proofs.History.World

/-!
# The Structure of a Graph

`Graph.WellFormed` says in terms of records and links what it is for a graph to be in order. The
list of all nodes, the list of all edges, and the two lists of each node are finite, have no
member twice, and are linked backwards as they are linked forwards. The first two hold each live
record, and the `dir` list of a node holds each edge of which the node is the `dir.rev` end, and
nothing else. The ends of a live edge are live, and all counts agree.

Every graph is in order at every point between two calls (`World.wellFormed`), whatever graphs
there are, whatever the calls are given, and whether or not they succeed. The reason is that
each graph holds a consistent view, and a graph that does is in order
(`Graph.Holds.in_order`).

## Main definitions

* `Chain.Threaded`, `Graph.WellFormed`.

## Main results

* `mapM_eq_ok_iff`, `forM_eq_ok_iff`: when a reader or a check that goes through a list succeeds;
* `Graph.Holds.in_order`, `World.wellFormed`.
-/

namespace SlabGraph

/-! ### Lists -/

namespace Chain

section

variable {S P : Type} {slots : Nat} [Reserved P] [DecidableEq P] [ChainStorage S P slots]

/-- From a head on, the links of a slot lead through the members of a list and back. -/
structure Threaded (s : S) (slot : Nat) (head : Option P) (xs : List P) : Prop where
  /-- The way from the head on comes to an end, and meets the members in order. -/
  walk : walk s slot head = .ok xs
  /-- It meets no item twice. -/
  nodup : xs.Nodup
  /-- A member is linked to the member before it and to the member after it. -/
  links : ∀ as p bs, xs = as ++ p :: bs →
    prev s p slot = .ok as.getLast? ∧ next s p slot = .ok bs.head?
  /-- The links backwards are the inverse of the links forwards. -/
  inverse : ∀ p ∈ xs, ∀ q ∈ xs,
    next s p slot = .ok (some q) ↔ prev s q slot = .ok (some p)

/-- Linked lists are threaded. -/
theorem threaded_of_isList {s : S} {slot : Fin slots} {head : Option P} {xs : List P}
    (hxs : LinkMap.IsList (linkMap s slot) xs) (hhead : head = xs.head?)
    (hlen : xs.length ≤ ChainStorage.size s) : Threaded s slot head xs := by
  have hlinks : ∀ as p bs, xs = as ++ p :: bs →
      prev s p slot = .ok as.getLast? ∧ next s p slot = .ok bs.head? := by
    rintro as p bs rfl
    have hp := LinkMap.segment_mid as hxs
    simp only [Option.or_none] at hp
    exact ⟨prev_run hp, next_run hp⟩
  refine ⟨hhead ▸ walk_run hxs hlen, hxs.nodup, hlinks, fun p hp q hq => ?_⟩
  constructor
  · intro hnext
    obtain ⟨as, bs, rfl⟩ := List.append_of_mem hp
    rw [(hlinks as p bs rfl).2] at hnext
    obtain ⟨cs, rfl⟩ := List.head?_eq_some_iff.1 (Except.ok.inj hnext)
    have hq' := (hlinks (as ++ [p]) q cs (by simp)).1
    simpa using hq'
  · intro hprev
    obtain ⟨as, bs, rfl⟩ := List.append_of_mem hq
    rw [(hlinks as q bs rfl).1] at hprev
    obtain ⟨cs, rfl⟩ := List.getLast?_eq_some_iff.1 (Except.ok.inj hprev)
    have hp' := (hlinks cs p (q :: bs) (by simp)).2
    simpa using hp'

end

end Chain

/-! ### Graphs -/

/-- A roster lists all its records and counts them. -/
structure Roster.Complete {slots : Nat} {ι δ : Type} (roster : Roster slots ι δ)
    (xs : List Ptr) : Prop where
  /-- The members are linked. -/
  threaded : Chain.Threaded roster.pool allSlot roster.first.unpack xs
  /-- They are the live records. -/
  mem_iff : ∀ p, p ∈ xs ↔ (roster.pool.get? p).isSome = true
  /-- The roster counts them. -/
  count : roster.count = xs.length
  /-- The pool counts them. -/
  live : roster.pool.live = xs.length

namespace Graph

variable {N E : Type}

/-- A graph is in order. -/
structure WellFormed (g : Graph N E) : Prop where
  /-- The list of all nodes. -/
  nodes : ∃ xs, g.nodes.Complete xs
  /-- The list of all edges. -/
  edges : ∃ xs, g.edges.Complete xs
  /-- The lists of a node. -/
  incident : ∀ n node, g.nodes.pool.get? n = some node → ∀ dir, ∃ xs,
    Chain.Threaded g.edges.pool (incidenceSlot dir) (node.incidence.get dir).unpack xs ∧
    ∀ e, e ∈ xs ↔ ∃ edge, g.edges.pool.get? e = some edge ∧ edge.incidence.get dir.rev = n
  /-- The ends of an edge. -/
  ends : ∀ e edge, g.edges.pool.get? e = some edge → ∀ dir,
    (g.nodes.pool.get? (edge.incidence.get dir)).isSome = true
  /-- The lists of all nodes together. -/
  total : ∀ xs, g.nodes.Complete xs → ∀ dir, ∃ lists,
    xs.mapM (fun n => g.incidentSlots n dir) = .ok lists ∧
    (lists.map List.length).sum = g.edges.count

end Graph

/-- A roster that shows a consistent population lists all its records and counts them. -/
theorem Roster.Shows.complete {slots : Nat} [NeZero slots] {ι κ δ : Type} {f : ι → κ}
    {graph : GraphId} {roster : Roster slots ι δ} {P : Population κ δ}
    (h : Shows f graph roster P) (hc : P.Consistent) : roster.Complete P.members where
  threaded := Chain.threaded_of_isList h.list h.head (by
    change _ ≤ roster.pool.live
    rw [h.live])
  mem_iff p := by rw [hc.mem_iff, h.isSome_body]
  count := h.count
  live := h.live

/-- A roster lists its members. -/
theorem Roster.Shows.members_run {slots : Nat} [NeZero slots] {ι κ δ : Type} {f : ι → κ}
    {graph : GraphId} {roster : Roster slots ι δ} {P : Population κ δ}
    (h : Shows f graph roster P) (hc : P.Consistent) : roster.members = .ok P.members :=
  (h.complete hc).threaded.walk

/-! ### Readers over lists -/

section

variable {ε α β : Type} {f : α → Except ε β} {xs : List α}

/-- A reader that goes through a list answers what it reads off the members, exactly if it
succeeds on each of them. -/
theorem mapM_eq_ok_iff {ys : List β} : xs.mapM f = .ok ys ↔ xs.map f = ys.map .ok := by
  induction xs generalizing ys with
  | nil => cases ys <;> simp [pure, Except.pure]
  | cons a as ih =>
      rw [List.mapM_cons]
      cases ys with
      | nil => cases f a <;> cases as.mapM f <;> simp [pure, Except.pure]
      | cons y ys =>
          rw [List.map_cons, List.map_cons, List.cons.injEq, ← ih]
          cases f a <;> cases as.mapM f <;> simp [pure, Except.pure]

/-- What a reader answers for a list, if it is known what it answers for each member. -/
theorem mapM_eq_ok {k : α → β} (h : ∀ a ∈ xs, f a = .ok (k a)) :
    xs.mapM f = .ok (xs.map k) := by
  rw [mapM_eq_ok_iff, List.map_map]
  exact List.map_congr_left h

/-- A reader that has some answer for each member of a list has one for the list. -/
theorem exists_mapM_eq_ok (h : ∀ a ∈ xs, ∃ b, f a = .ok b) : ∃ bs, xs.mapM f = .ok bs := by
  have hanswers : xs.map f ∈ Set.range (List.map (Except.ok : β → Except ε β)) := by
    rw [Set.range_list_map]
    intro x hx
    obtain ⟨a, ha, rfl⟩ := List.mem_map.1 hx
    obtain ⟨b, hb⟩ := h a ha
    exact ⟨b, hb.symm⟩
  obtain ⟨bs, hbs⟩ := hanswers
  exact ⟨bs, mapM_eq_ok_iff.2 hbs.symm⟩

/-- A check that goes through a list passes, exactly if every member passes. -/
theorem forM_eq_ok_iff {check : α → Except ε Unit} :
    xs.forM check = .ok () ↔ ∀ a ∈ xs, check a = .ok () := by
  induction xs with
  | nil => simp [pure, Except.pure]
  | cons a as ih =>
      rw [List.forall_mem_cons, ← ih, List.forM_eq_forM, List.forM_cons]
      cases check a <;> simp [bind, Except.bind]

end

namespace Graph

variable {N E : Type} {g : Graph N E} {V : View N E}

/-- The list of a node is threaded through the edges. -/
theorem Holds.threaded_inc (h : Holds g V) {n : Ptr} {node : NodeRecord N}
    (hn : g.nodes.pool.get? n = some node) (dir : Direction) :
    Chain.Threaded g.edges.pool (incidenceSlot dir) (node.incidence.get dir).unpack
      (V.inc n dir) := by
  refine Chain.threaded_of_isList (h.shown.lists n dir) (h.shown.heads n node hn dir) ?_
  change _ ≤ g.edges.pool.live
  rw [h.shown.edges.live, ← h.shown.edges.count]
  exact h.length_inc_le n dir

/-- The list of a node can be read as a whole. -/
theorem Holds.incidentSlots_run (h : Holds g V) {n : Ptr}
    (hn : (V.nodes.body n).isSome = true) (dir : Direction) :
    g.incidentSlots n dir = .ok (V.inc n dir) := by
  obtain ⟨node, hnode⟩ := h.shown.exists_node hn
  simp [incidentSlots, Roster.record, Pool.read_of_get? hnode, (h.threaded_inc hnode dir).walk]

/-- Taken together, the lists of one direction hold every edge once. -/
theorem Holds.perm_inc (h : Holds g V) (dir : Direction) :
    (V.nodes.members.flatMap fun n => V.inc n dir).Perm V.edges.members := by
  have hnodup : (V.nodes.members.flatMap fun n => V.inc n dir).Nodup := by
    refine List.nodup_flatMap.2 ⟨fun n _ => h.shown.inc_nodup n dir, ?_⟩
    exact h.consistent.nodes.nodup.imp fun hne => h.shown.apart dir _ _ hne
  refine (List.perm_ext_iff_of_nodup hnodup h.consistent.edges.nodup).2 fun e => ?_
  rw [List.mem_flatMap, h.consistent.edges.mem_iff]
  constructor
  · rintro ⟨n, -, he⟩
    obtain ⟨b, hb, -⟩ := h.consistent.body_of_mem_inc he
    simp [hb]
  · intro he
    obtain ⟨b, hb⟩ := Option.isSome_iff_exists.1 he
    refine ⟨b.incidence.get dir.rev, ?_, (h.consistent.inc_iff _ dir e).2 ⟨b, hb, rfl⟩⟩
    exact (h.consistent.nodes.mem_iff _).2 (h.consistent.ends e b hb dir.rev)

/-- Taken together, the lists of one direction are as long as there are edges. -/
theorem Holds.sum_length_inc (h : Holds g V) (dir : Direction) :
    (V.nodes.members.map fun n => (V.inc n dir).length).sum = g.edges.count := by
  rw [h.shown.edges.count, ← (h.perm_inc dir).length_eq, List.length_flatMap]

/-- A graph that holds a consistent view is in order. -/
theorem Holds.in_order (h : Holds g V) : g.WellFormed where
  nodes := ⟨_, h.shown.nodes.complete h.consistent.nodes⟩
  edges := ⟨_, h.shown.edges.complete h.consistent.edges⟩
  incident n node hn dir := by
    refine ⟨V.inc n dir, h.threaded_inc hn dir, fun e => ?_⟩
    rw [h.consistent.inc_iff]
    constructor
    · rintro ⟨b, hb, hend⟩
      obtain ⟨edge, hedge, hinc⟩ := h.shown.exists_edge hb
      exact ⟨edge, hedge, by rw [hinc, hend]⟩
    · rintro ⟨edge, hedge, hend⟩
      exact ⟨_, h.shown.edges.body_of_record hedge, hend⟩
  ends e edge hedge dir := by
    rw [← h.shown.nodes.isSome_body]
    exact h.consistent.ends e _ (h.shown.edges.body_of_record hedge) dir
  total xs hxs dir := by
    obtain rfl : xs = V.nodes.members := by
      have hwalk := hxs.threaded.walk
      rw [(h.shown.nodes.complete h.consistent.nodes).threaded.walk] at hwalk
      exact (Except.ok.inj hwalk).symm
    refine ⟨V.nodes.members.map fun n => V.inc n dir, mapM_eq_ok fun n hn => ?_, ?_⟩
    · exact h.incidentSlots_run ((h.consistent.nodes.mem_iff n).1 hn) dir
    · rw [List.map_map]
      exact h.sum_length_inc dir

end Graph

/-! ### Worlds -/

namespace World

variable {N E : Type}

/-- Every graph of every world is in order. -/
theorem wellFormed (supply : IdSupply) (steps : List (Step N E)) :
    ∀ r ∈ ((start supply).run steps).graphs, r.graph.WellFormed := by
  intro r hr
  obtain ⟨V, h, -⟩ := exists_view (I := fun _ _ => True) (fun _ _ _ _ _ => trivial)
    (fun _ _ _ => trivial) (fun _ _ => trivial) steps (forall_start supply) r hr
  exact h.in_order

/-- A world in which a node of the first graph has a loop, and the second graph refused it. -/
def withLoop : World Nat Nat :=
  let node : NodeHandle := ⟨⟨0⟩, 0, ⟨0, 0⟩⟩
  (start {}).run [.create ⟨1, 1⟩, .create ⟨255, 1⟩, .call 0 (.newNode 5),
    .call 1 (.newEdge node node 6), .call 0 (.newEdge node node 7)]

/-- The graph with a loop is in order, and the loop is its one edge. -/
theorem wellFormed_withLoop : ∃ h : 0 < withLoop.graphs.length,
    withLoop.graphs[0].graph.edges.count = 1 ∧ withLoop.graphs[0].graph.WellFormed := by
  refine ⟨by decide +kernel, by decide +kernel, ?_⟩
  exact wellFormed {} _ _ (List.getElem_mem _)

end World

end SlabGraph
