import SlabGraph.Graph.Roster
import SlabGraph.Tag.Host

/-!
# Directed Graphs

A directed multigraph with payloads on nodes and edges. Self-loops and parallel edges are
allowed. Nodes and edges are named by handles, and every operation that takes a handle
checks that it is live in the graph.

All structure is kept in lists through the records: the list of all nodes, the list of all
edges, and for each node the list of its incoming and of its outgoing edges. A member is
always added in front. So each list is in the order in which its members were attached,
the latest first, and adding or removing an edge takes constant time.

## Main definitions

* `Graph`, `GraphConfig`, `Graph.ofConfig`;
* `Graph.node`, `Graph.edge`, the records of live entities;
* `Graph.linkEnd`, `Graph.unlinkEnd`, the membership of an edge in a list of a node.
-/

namespace SlabGraph

/-- How a graph stores its records. -/
structure GraphConfig where
  /-- The number of node records per chunk. -/
  nodeCapacity : Nat := maxChunkEntries
  /-- The number of edge records per chunk. -/
  edgeCapacity : Nat := maxChunkEntries
deriving DecidableEq, Inhabited, Repr

/-- A directed graph with payloads `N` on nodes and `E` on edges. -/
structure Graph (N E : Type) where
  /-- The number of the graph. -/
  id : GraphId
  /-- The nodes. -/
  nodes : Roster 1 (DirPair (Packed Ptr)) N
  /-- The edges. -/
  edges : Roster 3 (DirPair Ptr) E
  /-- The ledger of the markers. -/
  markers : TagLedger .marker
  /-- The ledger of the numerations. -/
  nums : TagLedger .numeration
deriving DecidableEq

namespace Graph

variable {N E α : Type}

/-- An empty graph. Its number is drawn first, and those of its ledgers last, so a refused
configuration uses up the number of the graph only. -/
def ofConfig (config : GraphConfig) : Action IdSupply (Graph N E) := do
  let id ← IdSupply.drawGraph
  let nodeCapacity ← Action.check (Capacity.ofNat config.nodeCapacity)
  let edgeCapacity ← Action.check (Capacity.ofNat config.edgeCapacity)
  let markers ← TagLedger.new
  let nums ← TagLedger.new
  return { id, nodes := .new nodeCapacity, edges := .new edgeCapacity, markers, nums }

/-- Whether a graph has no nodes. -/
def isEmpty (g : Graph N E) : Bool := g.nodes.count == 0

/-! ### Parts -/

/-- Runs an action on the nodes. -/
def onNodes (x : Action (Roster 1 (DirPair (Packed Ptr)) N) α) : Action (Graph N E) α :=
  Action.within Graph.nodes (fun g nodes => { g with nodes }) x

/-- Runs an action on the edges. -/
def onEdges (x : Action (Roster 3 (DirPair Ptr) E) α) : Action (Graph N E) α :=
  Action.within Graph.edges (fun g edges => { g with edges }) x

/-- The record of a live node. -/
def node (g : Graph N E) (node : NodeHandle) : Except Fault (NodeRecord N) :=
  g.nodes.lookup g.id node

/-- The record of a live edge. -/
def edge (g : Graph N E) (edge : EdgeHandle) : Except Fault (EdgeRecord E) :=
  g.edges.lookup g.id edge

/-- Whether a handle names a live node of this graph. -/
def containsNode (g : Graph N E) (node : NodeHandle) : Bool := (g.nodes.find? g.id node).isSome

/-- Whether a handle names a live edge of this graph. -/
def containsEdge (g : Graph N E) (edge : EdgeHandle) : Bool := (g.edges.find? g.id edge).isSome

/-- The handle of the node in a slot. -/
def nodeHandle (g : Graph N E) (slot : Ptr) : Except Fault NodeHandle :=
  g.nodes.handle .node g.id slot

/-- The handle of the edge in a slot. -/
def edgeHandle (g : Graph N E) (slot : Ptr) : Except Fault EdgeHandle :=
  g.edges.handle .edge g.id slot

/-! ### Incidence -/

/-- Replaces the head of the `list` list of the node in a slot. -/
def setHead (node : Ptr) (list : Direction) (head : Packed Ptr) : Action (Graph N E) Unit := do
  let record ← Action.read fun g => g.nodes.record node
  modify fun g => { g with
    nodes := g.nodes.setRecord node
      { record with incidence := record.incidence.set list head } }

/-- Puts an edge in front of the list of the node at its `dir` end. -/
def linkEnd (slot : Ptr) (dir : Direction) : Action (Graph N E) Unit := do
  let edge ← Action.read fun g => g.edges.record slot
  let node := edge.incidence.get dir
  let record ← Action.read fun g => g.nodes.record node
  let head ← onEdges <| Roster.onPool <|
    Chain.pushFront slot (incidenceSlot dir.rev) (record.incidence.get dir.rev)
  setHead node dir.rev head

/-- Takes an edge off the list of the node at its `dir` end. -/
def unlinkEnd (slot : Ptr) (dir : Direction) : Action (Graph N E) Unit := do
  let edge ← Action.read fun g => g.edges.record slot
  let node := edge.incidence.get dir
  let record ← Action.read fun g => g.nodes.record node
  let head ← onEdges <| Roster.onPool <|
    Chain.unlink slot (incidenceSlot dir.rev) (record.incidence.get dir.rev)
  setHead node dir.rev head

/-- The slots of the edges in the `dir` list of the node in a slot. -/
def incidentSlots (g : Graph N E) (node : Ptr) (dir : Direction) : Except Fault (List Ptr) := do
  let record ← g.nodes.record node
  Chain.walk g.edges.pool (incidenceSlot dir) (record.incidence.get dir).unpack

end Graph

end SlabGraph
