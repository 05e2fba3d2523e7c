import SlabGraph.Graph.Edit

/-!
# Reading a Graph

What can be read through a live handle: the id and the payload of an entity, the neighbours
of an entity in the lists it is a member of, and the first edges of a node. All answers name
entities by handles.

## Main definitions

* `Graph.firstNode`, `Graph.firstEdge`, `Graph.nodeList`, `Graph.edgeList`;
* `Graph.nextNode`, `Graph.prevNode`, `Graph.firstIncident`;
* `Graph.nextEdge`, `Graph.prevEdge`, `Graph.nextIncident`;
* `Graph.nodeData?`, `Graph.edgeData?`.
-/

namespace SlabGraph

namespace Graph

variable {N E : Type}

/-! ### Entities -/

/-- The payload of a node, if the node is live. -/
def nodeData? (g : Graph N E) (node : NodeHandle) : Option N :=
  (g.nodes.find? g.id node).map (·.data)

/-- The payload of an edge, if the edge is live. -/
def edgeData? (g : Graph N E) (edge : EdgeHandle) : Option E :=
  (g.edges.find? g.id edge).map (·.data)

/-- The payload of a live node. -/
def nodeData (g : Graph N E) (node : NodeHandle) : Except Fault N := do
  return (← g.node node).data

/-- The payload of a live edge. -/
def edgeData (g : Graph N E) (edge : EdgeHandle) : Except Fault E := do
  return (← g.edge edge).data

/-- The id of a live node. -/
def nodeUid (g : Graph N E) (node : NodeHandle) : Except Fault Nat := do
  return (← g.node node).uid

/-- The id of a live edge. -/
def edgeUid (g : Graph N E) (edge : EdgeHandle) : Except Fault Nat := do
  return (← g.edge edge).uid

/-! ### The list of all nodes -/

/-- The newest node. -/
def firstNode (g : Graph N E) : Except Fault (Option NodeHandle) :=
  g.nodes.handle? .node g.id g.nodes.first.unpack

/-- The node after a node. -/
def nextNode (g : Graph N E) (node : NodeHandle) : Except Fault (Option NodeHandle) := do
  let record ← g.node node
  g.nodes.handle? .node g.id (← record.links.nextAt allSlot)

/-- The node before a node. -/
def prevNode (g : Graph N E) (node : NodeHandle) : Except Fault (Option NodeHandle) := do
  let record ← g.node node
  g.nodes.handle? .node g.id (← record.links.prevAt allSlot)

/-- All nodes, the newest first. -/
def nodeList (g : Graph N E) : Except Fault (List NodeHandle) := do
  follow g.nextNode (g.nodes.count + 1) (← g.firstNode)

/-! ### The list of all edges -/

/-- The edge after an edge in a list. -/
def nextInList (g : Graph N E) (edge : EdgeHandle) (slot : Nat) :
    Except Fault (Option EdgeHandle) := do
  let record ← g.edge edge
  g.edges.handle? .edge g.id (← record.links.nextAt slot)

/-- The newest edge. -/
def firstEdge (g : Graph N E) : Except Fault (Option EdgeHandle) :=
  g.edges.handle? .edge g.id g.edges.first.unpack

/-- The edge after an edge. -/
def nextEdge (g : Graph N E) (edge : EdgeHandle) : Except Fault (Option EdgeHandle) :=
  g.nextInList edge allSlot

/-- The edge before an edge. -/
def prevEdge (g : Graph N E) (edge : EdgeHandle) : Except Fault (Option EdgeHandle) := do
  let record ← g.edge edge
  g.edges.handle? .edge g.id (← record.links.prevAt allSlot)

/-- All edges, the newest first. -/
def edgeList (g : Graph N E) : Except Fault (List EdgeHandle) := do
  follow g.nextEdge (g.edges.count + 1) (← g.firstEdge)

/-! ### The lists of a node -/

/-- The edge that was attached last to the `dir` list of a node. -/
def firstIncident (g : Graph N E) (node : NodeHandle) (dir : Direction) :
    Except Fault (Option EdgeHandle) := do
  let record ← g.node node
  g.edges.handle? .edge g.id (record.incidence.get dir).unpack

/-- The edge after an edge in the `dir` list of the node at its `dir.rev` end. -/
def nextIncident (g : Graph N E) (edge : EdgeHandle) (dir : Direction) :
    Except Fault (Option EdgeHandle) :=
  g.nextInList edge (incidenceSlot dir)

end Graph

end SlabGraph
