import SlabGraph.Proofs.Handles
import SlabGraph.Proofs.Listing

/-!
# What an Operation Leaves Alone

An operation on a graph changes a few entities and must leave the others alone. What there is to
leave alone is all that is shown of an entity: that it is live, its payload, and its tags with all
that is read through them (`Graph.SameNode`, `Graph.SameEdge`). The ends of an edge and the edges of
a node are said apart, since an operation may change these only.

On the view all of this is what stands in the slot of the entity. The operations here neither touch
the ledgers nor the number of the graph (`View.SameHost`), so a body with the same payload and the
same tags reads the same.

## Main definitions

* `Graph.SameTags`, `Graph.SameNode`, `Graph.SameEdge`, `Graph.SameLedgers`;
* `Graph.isEnd`, whether a node is an end of an edge.

## Main results

* `Graph.Holds.sameNode`, `Graph.Holds.sameEdge`: from bodies to what is shown;
* `Graph.Holds.isEnd_eq`: the edges that have a node as an end are those in its lists.
-/

namespace SlabGraph

variable {N E : Type}

namespace Graph

/-! ### What is shown of an entity -/

/-- An entity has the tags it had, and they are read as before. -/
structure SameTags (g g' : Graph N E) {kind : EntityKind} (x : Handle kind) : Prop where
  /-- The stamps. -/
  area : g'.area x = g.area x
  /-- The markers. -/
  isMarked : ∀ marker, g'.isMarked x marker = g.isMarked x marker
  /-- The numbers. -/
  number : ∀ num, g'.number x num = g.number x num
  /-- Whether there are numbers. -/
  isNumbered : ∀ num, g'.isNumbered x num = g.isNumbered x num

/-- A node is live, with the payload and the tags it had. -/
structure SameNode (g g' : Graph N E) (node : NodeHandle) : Prop where
  /-- The node is live. -/
  live : g'.containsNode node = true
  /-- The payload. -/
  data : g'.nodeData node = g.nodeData node
  /-- The tags. -/
  tags : g.SameTags g' node

/-- An edge is live, with the payload and the tags it had. -/
structure SameEdge (g g' : Graph N E) (edge : EdgeHandle) : Prop where
  /-- The edge is live. -/
  live : g'.containsEdge edge = true
  /-- The payload. -/
  data : g'.edgeData edge = g.edgeData edge
  /-- The tags. -/
  tags : g.SameTags g' edge

/-- The tags in use are those that were. -/
structure SameLedgers (g g' : Graph N E) : Prop where
  /-- The number of the graph. -/
  id : g'.id = g.id
  /-- The ledger of the markers. -/
  markers : g'.markers = g.markers
  /-- The ledger of the numerations. -/
  nums : g'.nums = g.nums

variable {g g' : Graph N E}

/-- A marker passes the check of both graphs or of none. -/
theorem SameLedgers.checkMarker (h : g.SameLedgers g') (marker : Marker) :
    g'.checkTag marker = g.checkTag marker := by
  have hledger : (TagHost.ledger g' : TagLedger .marker) = TagHost.ledger g := h.markers
  rw [checkTag, checkTag, hledger, h.id]

/-- A numeration passes the check of both graphs or of none. -/
theorem SameLedgers.checkNum (h : g.SameLedgers g') (num : Numeration) :
    g'.checkTag num = g.checkTag num := by
  have hledger : (TagHost.ledger g' : TagLedger .numeration) = TagHost.ledger g := h.nums
  rw [checkTag, checkTag, hledger, h.id]

/-- Tags are read off the stamps and the ledgers. -/
theorem SameLedgers.sameTags (h : g.SameLedgers g') {kind : EntityKind} {x : Handle kind}
    (harea : g'.area x = g.area x) : g.SameTags g' x where
  area := harea
  isMarked marker := by
    simp only [Graph.isMarked, rawIsMarked, h.checkMarker, harea]
  number num := by
    simp only [Graph.number, rawNumber, h.checkNum, harea]
  isNumbered num := by
    simp only [Graph.isNumbered, rawIsNumbered, h.checkNum, harea]

end Graph

/-! ### The same on the view -/

/-- A view has the number and the ledgers of another one. -/
structure View.SameHost (V V' : View N E) : Prop where
  /-- The number. -/
  id : V'.id = V.id
  /-- The ledger of the markers. -/
  markers : V'.markers = V.markers
  /-- The ledger of the numerations. -/
  nums : V'.nums = V.nums

namespace Graph

variable {g g' : Graph N E} {V V' : View N E}

/-- Graphs whose views have the same number and the same ledgers have the same tags in use. -/
theorem Holds.sameLedgers (h : Holds g V) (h' : Holds g' V') (hsame : V.SameHost V') :
    g.SameLedgers g' where
  id := by rw [← h.shown.id, ← h'.shown.id, hsame.id]
  markers := by rw [← h.shown.markers, ← h'.shown.markers, hsame.markers]
  nums := by rw [← h.shown.nums, ← h'.shown.nums, hsame.nums]

/-- A node of the graph is found in the view. -/
theorem Holds.exists_node (h : Holds g V) {node : NodeHandle} (hlive : g.containsNode node = true) :
    ∃ b, V.nodes.find? V.id node = some b := by
  rw [h.containsNode_eq] at hlive
  exact Option.isSome_iff_exists.1 hlive

/-- An edge of the graph is found in the view. -/
theorem Holds.exists_edge (h : Holds g V) {edge : EdgeHandle} (hlive : g.containsEdge edge = true) :
    ∃ b, V.edges.find? V.id edge = some b := by
  rw [h.containsEdge_eq] at hlive
  exact Option.isSome_iff_exists.1 hlive

/-- An entity with the same tags in both views has the same tags in both graphs. -/
theorem Holds.sameTags (h : Holds g V) (h' : Holds g' V') (hsame : V.SameHost V')
    {kind : EntityKind} {x : Handle kind} {area : TagArea} (hx : V.area? x = some area)
    (hx' : V'.area? x = some area) : g.SameTags g' x :=
  (h.sameLedgers h' hsame).sameTags (by rw [h.area_run hx, h'.area_run hx'])

/-- A node whose body has the same payload and the same tags. -/
theorem Holds.sameNode (h : Holds g V) (h' : Holds g' V') (hsame : V.SameHost V')
    {node : NodeHandle} {b b' : Body Unit N} (hb : V.nodes.find? V.id node = some b)
    (hb' : V'.nodes.find? V.id node = some b') (hdata : b'.data = b.data)
    (harea : b'.area = b.area) : g.SameNode g' node := by
  rw [← hsame.id] at hb'
  refine ⟨?_, ?_, h.sameTags h' hsame (congrArg (Option.map Body.area) hb) ?_⟩
  · rw [h'.containsNode_eq, hb']
    rfl
  · rw [h.nodeData_run hb, h'.nodeData_run hb', hdata]
  · exact (congrArg (Option.map Body.area) hb').trans (congrArg some harea)

/-- An edge whose body has the same payload and the same tags. -/
theorem Holds.sameEdge (h : Holds g V) (h' : Holds g' V') (hsame : V.SameHost V')
    {edge : EdgeHandle} {b b' : Body (DirPair Ptr) E} (hb : V.edges.find? V.id edge = some b)
    (hb' : V'.edges.find? V.id edge = some b') (hdata : b'.data = b.data)
    (harea : b'.area = b.area) : g.SameEdge g' edge := by
  rw [← hsame.id] at hb'
  refine ⟨?_, ?_, h.sameTags h' hsame (congrArg (Option.map Body.area) hb) ?_⟩
  · rw [h'.containsEdge_eq, hb']
    rfl
  · rw [h.edgeData_run hb, h'.edgeData_run hb', hdata]
  · exact (congrArg (Option.map Body.area) hb').trans (congrArg some harea)

/-! ### The ends of an edge -/

/-- Whether a node is an end of an edge. -/
def isEnd (g : Graph N E) (node : NodeHandle) (edge : EdgeHandle) : Bool :=
  Direction.all.any fun dir => g.edgeEnd edge dir = .ok node

/-- A live node is the `dir` end of a live edge if its slot is in the record. -/
theorem Holds.edgeEnd_eq_iff (h : Holds g V) {node : NodeHandle} {edge : EdgeHandle}
    {c : Body Unit N} {b : Body (DirPair Ptr) E} (hc : V.nodes.find? V.id node = some c)
    (hb : V.edges.find? V.id edge = some b) (dir : Direction) :
    g.edgeEnd edge dir = .ok node ↔ b.incidence.get dir = node.slot := by
  obtain ⟨node', d, hend, hd, hslot⟩ := h.exists_end hb dir
  rw [hend, Except.ok.injEq, hslot]
  constructor
  · intro heq
    exact congrArg Handle.slot heq
  · intro heq
    exact Population.eq_of_find? hd hc heq

/-- The ends of live edges are live. -/
theorem Holds.containsNode_end (h : Holds g V) {edge : EdgeHandle}
    (hlive : g.containsEdge edge = true) {dir : Direction} {node : NodeHandle}
    (hend : g.edgeEnd edge dir = .ok node) : g.containsNode node = true := by
  obtain ⟨b, hb⟩ := h.exists_edge hlive
  obtain ⟨node', c, hrun, hc, -⟩ := h.exists_end hb dir
  obtain rfl := Except.ok.inj (hrun.symm.trans hend)
  rw [h.containsNode_eq, hc]
  rfl

/-- An edge with the same slot at an end has the same node there, if that node keeps its id. -/
theorem Holds.sameEnd (h : Holds g V) (h' : Holds g' V') (hid : V'.id = V.id) {edge : EdgeHandle}
    {b b' : Body (DirPair Ptr) E} (hb : V.edges.find? V.id edge = some b)
    (hb' : V'.edges.find? V.id edge = some b') {dir : Direction}
    (hend : b'.incidence.get dir = b.incidence.get dir)
    (huid : ∀ c c', V.nodes.body (b.incidence.get dir) = some c →
      V'.nodes.body (b.incidence.get dir) = some c' → c'.uid = c.uid) :
    g'.edgeEnd edge dir = g.edgeEnd edge dir := by
  rw [← hid] at hb'
  obtain ⟨c, hc, hrun⟩ := h.edgeEnd_run hb dir
  obtain ⟨c', hc', hrun'⟩ := h'.edgeEnd_run hb' dir
  rw [hend] at hc' hrun'
  rw [hrun, hrun', hid, huid c c' hc hc']

/-- A live node is an end of the live edges in its lists. -/
theorem Holds.isEnd_eq (h : Holds g V) {node : NodeHandle} {edge : EdgeHandle}
    {c : Body Unit N} {b : Body (DirPair Ptr) E} (hc : V.nodes.find? V.id node = some c)
    (hb : V.edges.find? V.id edge = some b) :
    g.isEnd node edge =
      ((V.inc node.slot .down).contains edge.slot || (V.inc node.slot .up).contains edge.slot) := by
  have hbody := (Population.find?_eq_some_iff.1 hb).1
  have hmem : ∀ dir, (V.inc node.slot dir.rev).contains edge.slot =
      decide (g.edgeEnd edge dir = .ok node) := by
    intro dir
    rw [Bool.eq_iff_iff, List.contains_iff_mem, decide_eq_true_iff, h.edgeEnd_eq_iff hc hb,
      h.consistent.inc_iff, Direction.rev_rev]
    constructor
    · rintro ⟨d, hd, hend⟩
      obtain rfl := Option.some.inj (hbody.symm.trans hd)
      exact hend
    · intro hend
      exact ⟨b, hbody, hend⟩
  have hup := hmem .up
  have hdown := hmem .down
  simp only [Direction.rev] at hup hdown
  rw [hup, hdown]
  simp [isEnd, Direction.all]

end Graph

end SlabGraph
