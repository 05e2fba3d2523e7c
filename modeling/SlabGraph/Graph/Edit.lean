import SlabGraph.Graph.Basic

/-!
# Changing a Graph

Each operation checks all its handles before it changes anything. What follows the checks
works on slots that are known to be live.

Removing an edge takes it off its three lists, whatever their order, and leaves all other
members in place. Removing a node first removes the edges it is an end of, the outgoing ones
before the incoming ones. A self-loop is on both lists and goes with the first.

## Main definitions

* `Graph.newNode`, `Graph.newEdge`;
* `Graph.deleteNode`, `Graph.deleteEdge`, `Graph.clear`, `Graph.close`;
* `Graph.setEnd`, which retargets one end of an edge;
* `Graph.insertNode`, which splits an edge;
* `Graph.updateNode`, `Graph.updateEdge`, which write payloads.
-/

namespace SlabGraph

namespace Graph

variable {N E : Type}

/-! ### Adding -/

/-- Adds a node. -/
def newNode (data : N) : Action (Graph N E) NodeHandle := do
  let slot ← onNodes (Roster.create (← get).id ⟨.empty, .empty⟩ data)
  Action.read (·.nodeHandle slot)

/-- Adds an edge from `pred` to `succ`. -/
def newEdge (pred succ : NodeHandle) (data : E) : Action (Graph N E) EdgeHandle := do
  let up ← Action.read fun g => g.nodes.resolve g.id pred
  let down ← Action.read fun g => g.nodes.resolve g.id succ
  let slot ← onEdges (Roster.create (← get).id ⟨up, down⟩ data)
  Direction.all.forM (linkEnd slot)
  Action.read (·.edgeHandle slot)

/-! ### Removing -/

/-- Removes the edge in a slot. -/
def removeEdge (slot : Ptr) : Action (Graph N E) (EdgeRecord E) := do
  Direction.all.forM (unlinkEnd slot)
  onEdges (Roster.remove slot)

/-- Removes an edge. Answers its payload. -/
def deleteEdge (edge : EdgeHandle) : Action (Graph N E) E := do
  let slot ← Action.read fun g => g.edges.resolve g.id edge
  let record ← removeEdge slot
  return record.data

/-- The first edge in the `dir` list of the node in a slot. -/
def firstIncidentSlot (g : Graph N E) (node : Ptr) (dir : Direction) :
    Except Fault (Option Ptr) := do
  let record ← g.nodes.record node
  return (record.incidence.get dir).unpack

/-- Removes the edges in the `dir` list of the node in a slot, of which there must be no more
than `fuel`. -/
def removeIncident (node : Ptr) (dir : Direction) : Nat → Action (Graph N E) Unit
  | 0 => do
    let first ← Action.read (·.firstIncidentSlot node dir)
    Action.demand (first = none) .endlessList
  | fuel + 1 => do
    match ← Action.read (·.firstIncidentSlot node dir) with
    | none => return
    | some slot =>
      let _ ← removeEdge slot
      removeIncident node dir fuel

/-- Removes a node and all edges it is an end of. Answers its payload. -/
def deleteNode (node : NodeHandle) : Action (Graph N E) N := do
  let slot ← Action.read fun g => g.nodes.resolve g.id node
  removeIncident slot .down (← get).edges.count
  removeIncident slot .up (← get).edges.count
  let record ← onNodes (Roster.remove slot)
  return record.data

/-- Removes all nodes and all edges. -/
def clear : Action (Graph N E) Unit := do
  onEdges Roster.clear
  onNodes Roster.clear

/-- Gives up a graph. Everything in it is removed, and then both pools are given up, that of the
nodes first. As for a pool, `failing` tells that another fault is already on its way. -/
def close (failing : Bool) : Action (Graph N E) Unit := do
  clear
  Action.read fun g => (g.nodes.pool.close failing).2
  Action.read fun g => (g.edges.pool.close failing).2

/-! ### Retargeting -/

/-- Replaces the node in the record of an edge. -/
def setIncidence (slot : Ptr) (dir : Direction) (node : Ptr) : Action (Graph N E) Unit := do
  let record ← Action.read fun g => g.edges.record slot
  modify fun g => { g with
    edges := g.edges.setRecord slot
      { record with incidence := record.incidence.set dir node } }

/-- Retargets the `dir` end of an edge to a node. The edge moves to the front of a list of
that node, also if it was on it before. -/
def setEnd (edge : EdgeHandle) (dir : Direction) (node : NodeHandle) :
    Action (Graph N E) Unit := do
  let slot ← Action.read fun g => g.edges.resolve g.id edge
  let target ← Action.read fun g => g.nodes.resolve g.id node
  unlinkEnd slot dir
  setIncidence slot dir target
  linkEnd slot dir

/-- The node at the `dir` end of an edge. -/
def edgeEnd (g : Graph N E) (edge : EdgeHandle) (dir : Direction) : Except Fault NodeHandle := do
  let record ← g.edge edge
  g.nodeHandle (record.incidence.get dir)

/-- Splits an edge by a new node. The edge then ends at the new node, and a new edge leads
from there to where the edge ended before. Answers the new node. -/
def insertNode (edge : EdgeHandle) (nodeData : N) (edgeData : E) :
    Action (Graph N E) NodeHandle := do
  let succ ← Action.read (·.edgeEnd edge .down)
  let node ← newNode nodeData
  setEnd edge .down node
  let _ ← newEdge node succ edgeData
  return node

/-! ### Payloads -/

/-- Changes the payload of a live node. Answers the old one. -/
def updateNode (node : NodeHandle) (f : N → N) : Action (Graph N E) N := do
  let record ← Action.read (·.node node)
  modify fun g => { g with
    nodes := g.nodes.setRecord node.slot { record with data := f record.data } }
  return record.data

/-- Changes the payload of a node, if the node is live. Answers the old one. -/
def updateNode? (node : NodeHandle) (f : N → N) : Action (Graph N E) (Option N) := do
  if (← get).containsNode node then some <$> updateNode node f else return none

/-- Changes the payload of a live edge. Answers the old one. -/
def updateEdge (edge : EdgeHandle) (f : E → E) : Action (Graph N E) E := do
  let record ← Action.read (·.edge edge)
  modify fun g => { g with
    edges := g.edges.setRecord edge.slot { record with data := f record.data } }
  return record.data

/-- Changes the payload of an edge, if the edge is live. Answers the old one. -/
def updateEdge? (edge : EdgeHandle) (f : E → E) : Action (Graph N E) (Option E) := do
  if (← get).containsEdge edge then some <$> updateEdge edge f else return none

end Graph

end SlabGraph
