import Mathlib.Logic.Relation
import SlabGraph.Proofs.Frame
import SlabGraph.Proofs.Graph.Room
import SlabGraph.Proofs.Order

/-!
# Subdivision of an Edge

Inserting a node into an edge takes three steps: a node is created, the edge gets it as its end,
and a new edge leads from it to the old end. What comes of them is one node and one edge more
(`Graph.Extended`), and the ends and lists of a subdivision (`Graph.Subdivided`). The edge keeps
its place among the outgoing edges of its first node. Among the incoming edges of its last node
the new edge comes first, wherever the old one stood. This holds of a self-loop and of parallel
edges as well, since an edge counts once for each of its ends.

That nodes are reached from each other as before (`Graph.SameReach`) does not depend on lists. The
edges of a graph are a relation between its nodes, and a subdivision is a detour (`Detour`): one
pair of the relation may go, and two pairs lead around over a point that is new. A path after it,
from an old node, is projected to a path before it, where being at the new point counts as being
at the one before.

## Main definitions

* `Detour`, `View.split`;
* `Graph.Arc`, `Graph.Extended`, `Graph.Subdivided`, `Graph.SameReach`.

## Main results

* `Detour.transGen_iff`;
* `Graph.Holds.extended`, `Graph.Holds.subdivided`: from the view to the graph;
* `World.insertNode_subdivides`: all worlds.
-/

namespace SlabGraph

open Relation (TransGen ReflTransGen)

/-! ### Detours -/

/-- A relation in which a pair may be missing, with a way around over a new point. -/
structure Detour {α : Type} (R R' : α → α → Prop) (a b c : α) : Prop where
  /-- The pair. -/
  pair : R a c
  /-- The way to the new point. -/
  enter : R' a b
  /-- The way on from there. -/
  leave : R' b c
  /-- All other pairs are kept. -/
  keeps : ∀ u v, R u v → R' u v ∨ u = a ∧ v = c
  /-- No other pairs are added. -/
  only : ∀ u v, R' u v → R u v ∨ u = a ∧ v = b ∨ u = b ∧ v = c
  /-- The point is new. -/
  fresh : ∀ u v, R u v → u ≠ b ∧ v ≠ b

namespace Detour

variable {α : Type} {R R' : α → α → Prop} {a b c u v : α}

/-- A path leads around where it went through the pair. -/
theorem lift (h : Detour R R' a b c) (huv : TransGen R u v) : TransGen R' u v := by
  refine TransGen.closed (fun x y hxy => ?_) u v huv
  rcases h.keeps x y hxy with hkept | ⟨rfl, rfl⟩
  · exact .single hkept
  · exact .tail (.single h.enter) h.leave

/-- A path to the new point led to the point before it. All other paths were there. -/
theorem project (h : Detour R R' a b c) (hu : u ≠ b) (huv : TransGen R' u v) :
    (v = b → ReflTransGen R u a) ∧ (v ≠ b → TransGen R u v) := by
  -- the last step of a path leads to the new point, on from there, or is an old pair
  induction huv with
  | @single v hstep =>
      rcases h.only u v hstep with hold | ⟨rfl, rfl⟩ | ⟨rfl, -⟩
      · exact ⟨fun heq => absurd heq (h.fresh u v hold).2, fun _ => .single hold⟩
      · exact ⟨fun _ => .refl, fun hne => absurd rfl hne⟩
      · exact absurd rfl hu
  | @tail w v _ hstep ih =>
      rcases h.only w v hstep with hold | ⟨rfl, rfl⟩ | ⟨rfl, rfl⟩
      · obtain ⟨hw, hv⟩ := h.fresh w v hold
        exact ⟨fun heq => absurd heq hv, fun _ => (ih.2 hw).tail hold⟩
      · exact ⟨fun _ => (ih.2 (h.fresh w _ h.pair).1).to_reflTransGen, fun hne => absurd rfl hne⟩
      · exact ⟨fun heq => absurd heq (h.fresh _ v h.pair).2, fun _ => .tail' (ih.1 rfl) h.pair⟩

/-- Between old points, a detour neither opens nor closes a way. -/
theorem transGen_iff (h : Detour R R' a b c) (hu : u ≠ b) (hv : v ≠ b) :
    TransGen R' u v ↔ TransGen R u v :=
  ⟨fun huv => (h.project hu huv).2 hv, h.lift⟩

end Detour

/-! ### The view of a split -/

variable {N E : Type}

namespace View

/-- The edge in the slot `e` gets the new node in the slot `p` as its end. The new edge in the slot
`q` leads from there to `succ`. -/
def split (V : View N E) (e p q succ : Ptr) (nodeData : N) (edgeData : E) : View N E :=
  ((V.newNode p nodeData).retarget e .down p).newEdge q ⟨p, succ⟩ edgeData

variable {V : View N E} {e p q succ : Ptr} {nodeData : N} {edgeData : E}

/-- Splitting an edge leaves the number and the ledgers of the graph alone. -/
theorem sameHost_split : V.SameHost (V.split e p q succ nodeData edgeData) := ⟨rfl, rfl, rfl⟩

/-- The handles of the nodes find what they found before. -/
theorem find?_node_split (hp : V.nodes.body p = none) {x : NodeHandle} {c : Body Unit N}
    (hc : V.nodes.find? V.id x = some c) :
    (V.split e p q succ nodeData edgeData).nodes.find? V.id x = some c :=
  Population.find?_add_of_find? _ hp hc

/-- The handle of the new node finds it. -/
theorem find?_node_split_self :
    (V.split e p q succ nodeData edgeData).nodes.find? V.id (⟨V.id, V.nodes.next, p⟩ : NodeHandle) =
      some ⟨V.nodes.next, (), .clean, nodeData⟩ :=
  Population.find?_add_self _

/-- The nodes that were there keep their bodies. -/
theorem body_node_split (hp : V.nodes.body p = none) {n : Ptr} {c c' : Body Unit N}
    (hc : V.nodes.body n = some c)
    (hc' : (V.split e p q succ nodeData edgeData).nodes.body n = some c') : c' = c :=
  Option.some.inj (hc'.symm.trans (Population.body_add_of_body _ hp hc))

/-! ### Its edges -/

/-- The edges after a split: one has the new node as its end, and one is added. -/
theorem edges_split :
    (V.split e p q succ nodeData edgeData).edges =
      (V.setEnd e .down p).edges.add q ⟨V.edges.next, ⟨p, succ⟩, .clean, edgeData⟩ := rfl

/-- The body of an edge is as before, but for the end that the split edge got. -/
theorem find?_edge_split (hq : V.edges.body q = none) {x : EdgeHandle}
    {b : Body (DirPair Ptr) E} (hb : V.edges.find? V.id x = some b) :
    (V.split e p q succ nodeData edgeData).edges.find? V.id x =
      some (if x.slot = e then { b with incidence := b.incidence.set .down p } else b) :=
  Population.find?_add_of_find? _ ((body_setEnd_eq_none_iff e p .down q).2 hq)
    (find?_setEnd e p .down hb)

/-- The handle of the edge that is split finds it, with the new node as its end. -/
theorem find?_edge_split_end (hq : V.edges.body q = none) {edge : EdgeHandle}
    {b : Body (DirPair Ptr) E} (hb : V.edges.find? V.id edge = some b) :
    (V.split edge.slot p q succ nodeData edgeData).edges.find? V.id edge =
      some { b with incidence := b.incidence.set .down p } := by
  rw [find?_edge_split hq hb, if_pos rfl]

/-- The handles of the other edges find what they found before. -/
theorem find?_edge_split_of_ne (hq : V.edges.body q = none) {edge x : EdgeHandle}
    {b d : Body (DirPair Ptr) E} (hb : V.edges.find? V.id edge = some b)
    (hd : V.edges.find? V.id x = some d) (hne : x ≠ edge) :
    (V.split edge.slot p q succ nodeData edgeData).edges.find? V.id x = some d := by
  have hslot : x.slot ≠ edge.slot := fun heq => hne (Population.eq_of_find? hd hb heq)
  rw [find?_edge_split hq hd, if_neg hslot]

/-- The handle of the new edge finds it. -/
theorem find?_edge_split_self :
    (V.split e p q succ nodeData edgeData).edges.find? V.id (⟨V.id, V.edges.next, q⟩ : EdgeHandle) =
      some ⟨V.edges.next, ⟨p, succ⟩, .clean, edgeData⟩ :=
  Population.find?_add_self _

/-- The handles that find an edge are that of the new edge and those that found one before. -/
theorem isSome_find?_edge_split (hq : V.edges.body q = none) (x : EdgeHandle) :
    ((V.split e p q succ nodeData edgeData).edges.find? V.id x).isSome = true ↔
      x = ⟨V.id, V.edges.next, q⟩ ∨ (V.edges.find? V.id x).isSome = true := by
  have hkept : ((V.setEnd e .down p).edges.find? V.id x).isSome = (V.edges.find? V.id x).isSome :=
    Population.isSome_find?_write fun _ => rfl
  have hfree := (body_setEnd_eq_none_iff e p .down q).2 hq
  rw [edges_split, Population.isSome_find?_add _ hfree, hkept]

/-- The new edge is listed in front of all others, and these keep their order. -/
theorem Consistent.handles_edge_split (h : V.Consistent) (hq : V.edges.body q = none) :
    (V.split e p q succ nodeData edgeData).edges.handles .edge V.id =
      ⟨V.id, V.edges.next, q⟩ :: V.edges.handles .edge V.id := by
  have hconsistent : (V.setEnd e .down p).edges.Consistent := h.edges.write e fun _ => rfl
  have hkept : (V.setEnd e .down p).edges.handles .edge V.id = V.edges.handles .edge V.id := by
    refine Population.handles_write V.edges e ?_ .edge V.id
    exact fun _ => rfl
  have hfree := (body_setEnd_eq_none_iff e p .down q).2 hq
  rw [edges_split, hconsistent.handles_add _ hfree, hkept]

/-! ### Its lists -/

/-- The handles of edges are as before. -/
theorem map_edgeAt_split (hq : V.edges.body q = none) {es : List Ptr}
    (hes : ∀ x ∈ es, (V.edges.body x).isSome = true) :
    es.map (V.split e p q succ nodeData edgeData).edgeAt = es.map V.edgeAt := by
  refine List.map_congr_left fun x hx => ?_
  obtain ⟨b, hb⟩ := Option.isSome_iff_exists.1 (hes x hx)
  exact edgeAt_slot (V := V.split e p q succ nodeData edgeData)
    (find?_edge_split hq (find?_edgeAt hb))

/-- The edge that is split keeps its handle. -/
theorem edgeAt_split_end (hq : V.edges.body q = none) {edge : EdgeHandle}
    {b : Body (DirPair Ptr) E} (hb : V.edges.find? V.id edge = some b) :
    (V.split edge.slot p q succ nodeData edgeData).edgeAt edge.slot = edge :=
  edgeAt_slot (V := V.split edge.slot p q succ nodeData edgeData) (find?_edge_split_end hq hb)

/-- The handle of the edge in the new slot is that of the new edge. -/
theorem edgeAt_split_self :
    (V.split e p q succ nodeData edgeData).edgeAt q = ⟨V.id, V.edges.next, q⟩ :=
  edgeAt_slot (V := V.split e p q succ nodeData edgeData)
    (x := ⟨V.id, V.edges.next, q⟩) find?_edge_split_self

/-- Taking an edge off a list, by its slot or by its handle. -/
theorem map_edgeAt_filter {edge : EdgeHandle} {b : Body (DirPair Ptr) E}
    (hb : V.edges.find? V.id edge = some b) (es : List Ptr) :
    (es.filter (· != edge.slot)).map V.edgeAt =
      (es.map V.edgeAt).filter fun x => x ≠ edge := by
  rw [List.filter_map]
  refine congrArg _ (List.filter_congr fun x _ => ?_)
  have hslot : V.edgeAt x = edge ↔ x = edge.slot :=
    ⟨fun heq => congrArg Handle.slot heq, fun heq => heq ▸ edgeAt_slot hb⟩
  rw [Function.comp_apply, Bool.eq_iff_iff, bne_iff_ne, decide_eq_true_iff, ne_eq, ne_eq, hslot]

/-- What becomes of the incoming edges: the edge that is split arrives at the new node, and the new
edge at the node where it arrived before. -/
theorem inc_split_up (n : Ptr) :
    (V.split e p q succ nodeData edgeData).inc n .up =
      let es := (V.inc n .up).filter (· != e)
      let es := if n = p then e :: es else es
      if n = succ then q :: es else es := rfl

/-- What becomes of the outgoing edges: the new edge leaves the new node. -/
theorem inc_split_down (n : Ptr) :
    (V.split e p q succ nodeData edgeData).inc n .down =
      if n = p then q :: V.inc n .down else V.inc n .down := rfl

/-- The new node has one edge in each list. -/
theorem Consistent.inc_split_self (h : V.Consistent) (hp : V.nodes.body p = none)
    (hsucc : succ ≠ p) :
    (V.split e p q succ nodeData edgeData).inc p .up = [e] ∧
    (V.split e p q succ nodeData edgeData).inc p .down = [q] := by
  constructor
  · simp [inc_split_up, h.inc_of_free hp, Ne.symm hsucc]
  · simp [inc_split_down, h.inc_of_free hp]

/-- The new edge is in front of the edges that arrive where the edge that is split arrived. -/
theorem inc_split_succ (hsucc : succ ≠ p) :
    (V.split e p q succ nodeData edgeData).inc succ .up =
      q :: (V.inc succ .up).filter (· != e) := by
  simp [inc_split_up, hsucc]

/-- The other lists are as before. -/
theorem Consistent.inc_split_of_ne (h : V.Consistent) {b : Body (DirPair Ptr) E}
    (hb : V.edges.body e = some b) (hend : b.incidence.get .down = succ) {n : Ptr} (hn : n ≠ p)
    {dir : Direction} (hother : ¬ (n = succ ∧ dir = .up)) :
    (V.split e p q succ nodeData edgeData).inc n dir = V.inc n dir := by
  cases dir with
  | up =>
      have hne : n ≠ succ := fun heq => hother ⟨heq, rfl⟩
      have hkept : (V.inc n .up).filter (· != e) = V.inc n .up :=
        h.filter_inc hb fun heq => hne (heq.symm.trans hend)
      simp [inc_split_up, hn, hne, hkept]
  | down => simp [inc_split_down, hn]

end View

/-! ### The graph of a split -/

namespace Graph

/-- An edge leads from one node to another one. -/
def Arc (g : Graph N E) (u v : NodeHandle) : Prop :=
  ∃ edge, g.containsEdge edge = true ∧ g.edgeEnd edge .up = .ok u ∧ g.edgeEnd edge .down = .ok v

/-- A graph has one more node and one more edge, and the others read as before. -/
structure Extended (g g' : Graph N E) (node : NodeHandle) (rest : EdgeHandle) (nodeData : N)
    (edgeData : E) : Prop where
  /-- The new node is the first one. -/
  nodes : ∃ xs, g.nodeList = .ok xs ∧ g'.nodeList = .ok (node :: xs)
  /-- The new edge is the first one. -/
  edges : ∃ es, g.edgeList = .ok es ∧ g'.edgeList = .ok (rest :: es)
  /-- Nodes are counted. -/
  numNodes : g'.nodes.count = g.nodes.count + 1
  /-- Edges are counted. -/
  numEdges : g'.edges.count = g.edges.count + 1
  /-- The new node was not there. -/
  node_fresh : g.containsNode node = false
  /-- The new edge was not there. -/
  edge_fresh : g.containsEdge rest = false
  /-- The live nodes. -/
  containsNode_iff : ∀ x, g'.containsNode x = true ↔ x = node ∨ g.containsNode x = true
  /-- The live edges. -/
  containsEdge_iff : ∀ x, g'.containsEdge x = true ↔ x = rest ∨ g.containsEdge x = true
  /-- The payload of the new node. -/
  node_data : g'.nodeData node = .ok nodeData
  /-- The payload of the new edge. -/
  edge_data : g'.edgeData rest = .ok edgeData
  /-- The new node has no tags. -/
  node_area : g'.area node = .ok .clean
  /-- The new edge has no tags. -/
  edge_area : g'.area rest = .ok .clean
  /-- The nodes are as before. -/
  keeps_node : ∀ x, g.containsNode x = true → g.SameNode g' x
  /-- The edges are as before. -/
  keeps_edge : ∀ x, g.containsEdge x = true → g.SameEdge g' x
  /-- The tags in use are as before. -/
  ledgers : g.SameLedgers g'

/-- An edge ends at a new node, from which a new edge leads to where it ended. -/
structure Subdivided (g g' : Graph N E) (edge : EdgeHandle) (node : NodeHandle)
    (rest : EdgeHandle) (succ : NodeHandle) : Prop where
  /-- Where the edge ended. -/
  edge_down : g.edgeEnd edge .down = .ok succ
  /-- The edge begins where it did. -/
  edge_up' : g'.edgeEnd edge .up = g.edgeEnd edge .up
  /-- The edge ends at the new node. -/
  edge_down' : g'.edgeEnd edge .down = .ok node
  /-- The new edge begins at the new node. -/
  rest_up : g'.edgeEnd rest .up = .ok node
  /-- The new edge ends where the edge ended. -/
  rest_down : g'.edgeEnd rest .down = .ok succ
  /-- The ends of the other edges are as before. -/
  keeps_ends : ∀ x, g.containsEdge x = true → x ≠ edge → ∀ dir,
    g'.edgeEnd x dir = g.edgeEnd x dir
  /-- The edge alone leads to the new node. -/
  node_incoming : g'.walkEdges node (.along .up) = .ok [edge]
  /-- The new edge alone leads on. -/
  node_outgoing : g'.walkEdges node (.along .down) = .ok [rest]
  /-- At its end the new edge comes first, and the edge is gone from there. -/
  succ_incoming : ∃ es, g.walkEdges succ (.along .up) = .ok es ∧
    g'.walkEdges succ (.along .up) = .ok (rest :: es.filter fun x => x ≠ edge)
  /-- The other lists of all nodes are as before. -/
  keeps_lists : ∀ x, g.containsNode x = true → ∀ dir, ¬ (x = succ ∧ dir = .up) →
    ∃ es, g.walkEdges x (.along dir) = .ok es ∧ g'.walkEdges x (.along dir) = .ok es

/-- The nodes of a graph are reached from each other as they were. -/
structure SameReach (g g' : Graph N E) : Prop where
  /-- Along one edge or more. -/
  transGen_iff : ∀ u v, g.containsNode u = true → g.containsNode v = true →
    (TransGen g'.Arc u v ↔ TransGen g.Arc u v)
  /-- Along any number of edges. -/
  reflTransGen_iff : ∀ u v, g.containsNode u = true → g.containsNode v = true →
    (ReflTransGen g'.Arc u v ↔ ReflTransGen g.Arc u v)

variable {g g' : Graph N E} {V : View N E} {edge : EdgeHandle} {b : Body (DirPair Ptr) E}
  {succ : NodeHandle} {p q : Ptr} {nodeData : N} {edgeData : E}

section

variable (h : Holds g V) (hp : V.nodes.body p = none) (hq : V.edges.body q = none)
  (h' : Holds g' (V.split edge.slot p q succ.slot nodeData edgeData))

include h hp hq h'

/-- After a split, there is one more node and one more edge, and the others read as before. -/
theorem Holds.extended :
    g.Extended g' ⟨V.id, V.nodes.next, p⟩ ⟨V.id, V.edges.next, q⟩ nodeData edgeData where
  nodes := ⟨_, h.nodeList_run, h'.nodeList_run.trans
    (congrArg _ (h.consistent.nodes.handles_add _ hp .node V.id))⟩
  edges := ⟨_, h.edgeList_run, h'.edgeList_run.trans
    (congrArg _ (h.consistent.handles_edge_split hq))⟩
  numNodes := by rw [h'.shown.nodes.count, h.shown.nodes.count]; rfl
  numEdges := by rw [h'.shown.edges.count, h.shown.edges.count]; rfl
  node_fresh := by
    rw [h.containsNode_eq, Population.find?_of_free hp]
    rfl
  edge_fresh := by
    rw [h.containsEdge_eq, Population.find?_of_free hq]
    rfl
  containsNode_iff x := by
    rw [h'.containsNode_eq, h.containsNode_eq]
    exact Population.isSome_find?_add _ hp
  containsEdge_iff x := by
    rw [h'.containsEdge_eq, h.containsEdge_eq]
    exact View.isSome_find?_edge_split hq x
  node_data := h'.nodeData_run View.find?_node_split_self
  edge_data := h'.edgeData_run View.find?_edge_split_self
  node_area := h'.area_run (congrArg (Option.map Body.area) View.find?_node_split_self)
  edge_area := h'.area_run (congrArg (Option.map Body.area) View.find?_edge_split_self)
  keeps_node x hx := by
    obtain ⟨c, hc⟩ := h.exists_node hx
    exact h.sameNode h' View.sameHost_split hc (View.find?_node_split hp hc) rfl rfl
  keeps_edge x hx := by
    obtain ⟨d, hd⟩ := h.exists_edge hx
    refine h.sameEdge h' View.sameHost_split hd (View.find?_edge_split hq hd) ?_ ?_
    · split <;> rfl
    · split <;> rfl
  ledgers := h.sameLedgers h' View.sameHost_split

variable {c : Body Unit N} (hb : V.edges.find? V.id edge = some b)
  (hc : V.nodes.find? V.id succ = some c) (hend : b.incidence.get .down = succ.slot)

include hb hc hend

/-- The ends and the lists of a split. -/
theorem Holds.subdivided :
    g.Subdivided g' edge ⟨V.id, V.nodes.next, p⟩ ⟨V.id, V.edges.next, q⟩ succ := by
  have hbody := (Population.find?_eq_some_iff.1 hb).1
  have hsucc : succ.slot ≠ p := Population.slot_ne_of_find? hp hc
  -- an end with the same slot is the same node, since all nodes keep their bodies
  have hkept : ∀ {x : EdgeHandle} {d d' : Body (DirPair Ptr) E} {dir : Direction},
      V.edges.find? V.id x = some d →
      (V.split edge.slot p q succ.slot nodeData edgeData).edges.find? V.id x = some d' →
      d'.incidence.get dir = d.incidence.get dir → g'.edgeEnd x dir = g.edgeEnd x dir := by
    intro x d d' dir hd hd' hsame
    refine h.sameEnd h' rfl hd hd' hsame fun a a' ha ha' => ?_
    rw [View.body_node_split hp ha ha']
  constructor
  case edge_down => exact (h.edgeEnd_eq_iff hc hb .down).2 hend
  case edge_up' => exact hkept hb (View.find?_edge_split_end hq hb) rfl
  case edge_down' =>
    exact (h'.edgeEnd_eq_iff View.find?_node_split_self (View.find?_edge_split_end hq hb) .down).2
      rfl
  case rest_up =>
    exact (h'.edgeEnd_eq_iff View.find?_node_split_self View.find?_edge_split_self .up).2 rfl
  case rest_down =>
    exact (h'.edgeEnd_eq_iff (View.find?_node_split hp hc) View.find?_edge_split_self .down).2 rfl
  case keeps_ends =>
    intro x hx hne dir
    obtain ⟨d, hd⟩ := h.exists_edge hx
    exact hkept hd (View.find?_edge_split_of_ne hq hb hd hne) rfl
  case node_incoming =>
    rw [h'.walkAlong_run View.find?_node_split_self, (h.consistent.inc_split_self hp hsucc).1,
      List.map_singleton, View.edgeAt_split_end hq hb]
  case node_outgoing =>
    rw [h'.walkAlong_run View.find?_node_split_self, (h.consistent.inc_split_self hp hsucc).2,
      List.map_singleton, View.edgeAt_split_self]
  case succ_incoming =>
    refine ⟨_, h.walkAlong_run hc .up, ?_⟩
    rw [h'.walkAlong_run (View.find?_node_split hp hc), View.inc_split_succ hsucc, List.map_cons,
      View.edgeAt_split_self, View.map_edgeAt_split hq fun x hx =>
        h.consistent.isSome_of_mem_inc (List.mem_of_mem_filter hx), View.map_edgeAt_filter hb]
  case keeps_lists =>
    intro x hx dir hother
    obtain ⟨d, hd⟩ := h.exists_node hx
    refine ⟨_, h.walkAlong_run hd dir, ?_⟩
    have hother' : ¬ (x.slot = succ.slot ∧ dir = .up) :=
      fun heq => hother ⟨Population.eq_of_find? hd hc heq.1, heq.2⟩
    rw [h'.walkAlong_run (View.find?_node_split hp hd), h.consistent.inc_split_of_ne hbody hend
      (Population.slot_ne_of_find? hp hd) hother', View.map_edgeAt_split hq fun x hx =>
        h.consistent.isSome_of_mem_inc hx]

end

/-! ### Paths -/

/-- A subdivision is a detour. -/
theorem Holds.detour (h : Holds g V) {edge rest : EdgeHandle} {pred node succ : NodeHandle}
    {nodeData : N} {edgeData : E} (hlive : g.containsEdge edge = true)
    (hpred : g.edgeEnd edge .up = .ok pred) (hext : g.Extended g' node rest nodeData edgeData)
    (hsub : g.Subdivided g' edge node rest succ) : Detour g.Arc g'.Arc pred node succ where
  pair := ⟨edge, hlive, hpred, hsub.edge_down⟩
  enter := ⟨edge, (hext.keeps_edge edge hlive).live, hsub.edge_up'.trans hpred, hsub.edge_down'⟩
  leave := ⟨rest, (hext.containsEdge_iff rest).2 (.inl rfl), hsub.rest_up, hsub.rest_down⟩
  keeps := by
    rintro u v ⟨x, hx, hu, hv⟩
    by_cases heq : x = edge
    · subst heq
      exact .inr ⟨Except.ok.inj (hu.symm.trans hpred), Except.ok.inj (hv.symm.trans hsub.edge_down)⟩
    · have hends := hsub.keeps_ends x hx heq
      exact .inl ⟨x, (hext.keeps_edge x hx).live, (hends .up).trans hu, (hends .down).trans hv⟩
  only := by
    rintro u v ⟨x, hx, hu, hv⟩
    rcases (hext.containsEdge_iff x).1 hx with rfl | hold
    · exact .inr (.inr ⟨Except.ok.inj (hu.symm.trans hsub.rest_up),
        Except.ok.inj (hv.symm.trans hsub.rest_down)⟩)
    · by_cases heq : x = edge
      · subst heq
        exact .inr (.inl ⟨Except.ok.inj (hu.symm.trans (hsub.edge_up'.trans hpred)),
          Except.ok.inj (hv.symm.trans hsub.edge_down')⟩)
      · have hends := hsub.keeps_ends x hold heq
        exact .inl ⟨x, hold, (hends .up).symm.trans hu, (hends .down).symm.trans hv⟩
  fresh := by
    rintro u v ⟨x, hx, hu, hv⟩
    have hdead := Bool.eq_false_iff.1 hext.node_fresh
    constructor
    · rintro rfl
      exact hdead (h.containsNode_end hx hu)
    · rintro rfl
      exact hdead (h.containsNode_end hx hv)

/-- Old nodes are reached from each other as they were. -/
theorem Holds.sameReach (h : Holds g V) {edge rest : EdgeHandle} {pred node succ : NodeHandle}
    {nodeData : N} {edgeData : E} (hlive : g.containsEdge edge = true)
    (hpred : g.edgeEnd edge .up = .ok pred) (hext : g.Extended g' node rest nodeData edgeData)
    (hsub : g.Subdivided g' edge node rest succ) : g.SameReach g' := by
  have hdetour := h.detour hlive hpred hext hsub
  have hne : ∀ u, g.containsNode u = true → u ≠ node := by
    rintro u hu rfl
    exact Bool.eq_false_iff.1 hext.node_fresh hu
  have hpaths : ∀ u v, g.containsNode u = true → g.containsNode v = true →
      (TransGen g'.Arc u v ↔ TransGen g.Arc u v) :=
    fun u v hu hv => hdetour.transGen_iff (hne u hu) (hne v hv)
  refine ⟨hpaths, fun u v hu hv => ?_⟩
  rw [Relation.reflTransGen_iff_eq_or_transGen, Relation.reflTransGen_iff_eq_or_transGen,
    hpaths u v hu hv]

end Graph

/-! ### Worlds -/

namespace World

/-- In all worlds, inserting a node into a live edge subdivides the edge, by a node and an edge with
ids that are greater than all before, unless there is no room for them. -/
theorem insertNode_subdivides (supply : IdSupply) (steps : List (Step N E)) :
    ∀ r ∈ ((start supply).run steps).graphs, ∀ edge, r.graph.containsEdge edge = true →
      ∀ nodeData edgeData,
        (∃ node rest succ g', Graph.insertNode edge nodeData edgeData r.graph = .ok node g' ∧
          (∀ x ∈ History.nodesIssued r.history, x.uid < node.uid) ∧
          (∀ x ∈ History.edgesIssued r.history, x.uid < rest.uid) ∧
          r.graph.Extended g' node rest nodeData edgeData ∧
          r.graph.Subdivided g' edge node rest succ ∧ r.graph.SameReach g') ∨
        (¬ r.graph.HasRoom ∧
          ∃ e g', Graph.insertNode edge nodeData edgeData r.graph = .error e g') := by
  intro r hr edge hlive nodeData edgeData
  obtain ⟨V, h, hreg⟩ := registered_run supply steps r hr
  obtain ⟨b, hb⟩ := h.exists_edge hlive
  obtain ⟨pred, -, hpred, -, -⟩ := h.exists_end hb .up
  obtain ⟨succ, c, -, hc, hend⟩ := h.exists_end hb .down
  rcases h.insertNode_cases hb nodeData edgeData with ⟨p, q, g', hrun, hp, hq, h'⟩ | ⟨hroom, hrun⟩
  · rw [hend] at h'
    have hext := h.extended hp hq h'
    have hsub := h.subdivided hp hq h' hb hc hend
    exact .inl ⟨_, _, _, g', hrun, fun x hx => (hreg.nodes.issued_lt x hx).2,
      fun x hx => (hreg.edges.issued_lt x hx).2, hext, hsub, h.sameReach hlive hpred hext hsub⟩
  · exact .inr ⟨fun hall => hroom ⟨h.shown.nodes.hasRoom hall.nodes,
      h.shown.edges.hasRoom hall.edges⟩, hrun⟩

/-- A world with two nodes. The first one has two self-loops, and an edge leads to it. -/
def withTwoLoops : World Nat Nat :=
  let node (uid : Nat) : NodeHandle := ⟨⟨0⟩, uid, ⟨uid, 0⟩⟩
  (start {}).run [.create ⟨1, 1⟩, .call 0 (.newNode 5), .call 0 (.newNode 6),
    .call 0 (.newEdge (node 0) (node 0) 7), .call 0 (.newEdge (node 0) (node 0) 8),
    .call 0 (.newEdge (node 1) (node 0) 9)]

/-- The younger self-loop is in the middle of the incoming edges of its node. -/
theorem insertNode_subdivides_withTwoLoops : ∃ h : 0 < withTwoLoops.graphs.length,
    let g := withTwoLoops.graphs[0].graph
    let node : NodeHandle := ⟨⟨0⟩, 0, ⟨0, 0⟩⟩
    let edge (uid : Nat) : EdgeHandle := ⟨⟨0⟩, uid, ⟨uid, 0⟩⟩
    g.containsEdge (edge 1) = true ∧ g.HasRoom ∧
    g.walkEdges node (.along .up) = .ok [edge 2, edge 1, edge 0] ∧
    ∃ x rest g', Graph.insertNode (edge 1) 30 40 g = .ok x g' ∧
      g.Extended g' x rest 30 40 ∧ g.Subdivided g' (edge 1) x rest node ∧ g.SameReach g' ∧
      g'.walkEdges node (.along .up) = .ok [rest, edge 2, edge 0] := by
  have h : 0 < withTwoLoops.graphs.length := by decide +kernel
  have hlive : withTwoLoops.graphs[0].graph.containsEdge ⟨⟨0⟩, 1, ⟨1, 0⟩⟩ = true := by
    decide +kernel +revert
  have hend : withTwoLoops.graphs[0].graph.edgeEnd ⟨⟨0⟩, 1, ⟨1, 0⟩⟩ .down =
      .ok ⟨⟨0⟩, 0, ⟨0, 0⟩⟩ := by
    decide +kernel +revert
  have hlist : withTwoLoops.graphs[0].graph.walkEdges ⟨⟨0⟩, 0, ⟨0, 0⟩⟩ (.along .up) =
      .ok [⟨⟨0⟩, 2, ⟨2, 0⟩⟩, ⟨⟨0⟩, 1, ⟨1, 0⟩⟩, ⟨⟨0⟩, 0, ⟨0, 0⟩⟩] := by
    decide +kernel +revert
  have hroom : withTwoLoops.graphs[0].graph.HasRoom := by
    constructor <;> constructor <;> decide +kernel +revert
  rcases insertNode_subdivides {} _ _ (List.getElem_mem h) _ hlive 30 40 with
    ⟨x, rest, succ, g', hrun, -, -, hext, hsub, hreach⟩ | ⟨hfull, -⟩
  · obtain rfl := Except.ok.inj (hsub.edge_down.symm.trans hend)
    obtain ⟨es, hes, hes'⟩ := hsub.succ_incoming
    obtain rfl := Except.ok.inj (hes.symm.trans hlist)
    exact ⟨h, hlive, hroom, hlist, x, rest, g', hrun, hext, hsub, hreach, hes'⟩
  · exact absurd hroom hfull

end World

end SlabGraph
