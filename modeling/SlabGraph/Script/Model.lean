import SlabGraph.Graph.Cursor
import SlabGraph.Graph.Tags
import SlabGraph.Graph.Verify
import SlabGraph.Script.Op

/-!
# Running a Script against a Model

The model of a graph is flat: a list of nodes, a list of edges with their ends, the markers
in use, and the marked pairs. A script is carried out on a graph and on its model side by
side. After every operation the structure of the graph is checked, and the graph is compared
with the model: the counts, the ends of every edge, the degrees of every node, and the marks
of every node. At the end all markers are given back, and the graph is given up.

## Main definitions

* `Model`, with the selections `Model.node?`, `Model.edge?`, `Model.marker?`;
* `Trial`, a graph with its model, `Trial.apply`, `Trial.compare`;
* `Script.run`.
-/

namespace SlabGraph

/-- An edge of the model. -/
structure ModelEdge where
  /-- The edge. -/
  edge : EdgeHandle
  /-- Its ends. -/
  ends : DirPair NodeHandle
deriving DecidableEq, Inhabited, Repr

/-- A graph without structure. -/
structure Model where
  /-- The nodes. -/
  nodes : List NodeHandle := []
  /-- The edges. -/
  edges : List ModelEdge := []
  /-- The markers in use. -/
  markers : List Marker := []
  /-- The marked nodes. -/
  marked : List (Marker × NodeHandle) := []
deriving DecidableEq, Repr

/-- The member of a list at a number that wraps around at the end of the list. -/
def pick {α : Type} (xs : List α) (i : Nat) : Option α := xs[i % xs.length]?

/-- Takes a member out of a list, and puts the last member in its place. -/
def replaceByLast {α : Type} (xs : List α) (i : Nat) : List α :=
  match xs.getLast? with
  | some last => (xs.set i last).dropLast
  | none => []

namespace Model

/-- The node that a number names. -/
def node? (model : Model) (i : Nat) : Option NodeHandle := pick model.nodes i

/-- The edge that a number names. -/
def edge? (model : Model) (i : Nat) : Option ModelEdge := pick model.edges i

/-- The marker that a number names. -/
def marker? (model : Model) (i : Nat) : Option Marker := pick model.markers i

/-- Replaces the edge that a number names. -/
def setEdge (model : Model) (i : Nat) (edge : ModelEdge) : Model :=
  { model with edges := model.edges.set (i % model.edges.length) edge }

/-- Whether a node is marked. -/
def isMarked (model : Model) (marker : Marker) (node : NodeHandle) : Bool :=
  model.marked.contains (marker, node)

/-- The number of edges of which a node is the `dir` end. -/
def endCount (model : Model) (node : NodeHandle) (dir : Direction) : Nat :=
  model.edges.countP fun e => e.ends.get dir == node

end Model

/-- A graph with its model. -/
structure Trial where
  /-- The graph. -/
  graph : Graph Nat Nat
  /-- Its model. -/
  model : Model := {}

/-- Fails with a disagreement, which keeps both values, unless they are equal. -/
def agree {β : Type} [DecidableEq β] (graph model : β) (what : β → β → Disagreement) :
    Except Fault Unit :=
  if graph = model then .ok () else .error (.disagreement (what graph model))

namespace Trial

variable {α : Type}

/-- Runs an action on the graph. -/
def onGraph (x : Action (Graph Nat Nat) α) : Action Trial α :=
  Action.within Trial.graph (fun trial graph => { trial with graph }) x

/-- Changes the model. -/
def onModel (f : Model → Model) : Action Trial Unit :=
  modify fun trial => { trial with model := f trial.model }

/-! ### Operations -/

/-- Adds a node to both. -/
def newNode : Action Trial Unit := do
  let node ← onGraph (Graph.newNode (← get).model.nodes.length)
  onModel fun model => { model with nodes := model.nodes ++ [node] }

/-- Adds an edge to both. -/
def newEdge (pred succ : NodeHandle) : Action Trial Unit := do
  let edge ← onGraph (Graph.newEdge pred succ (← get).model.edges.length)
  onModel fun model => { model with edges := model.edges ++ [⟨edge, pred, succ⟩] }

/-- Removes a node from both. -/
def deleteNode (node : NodeHandle) : Action Trial Unit := do
  let _ ← onGraph (Graph.deleteNode node)
  onModel fun model => { model with
    nodes := model.nodes.filter (· != node)
    edges := model.edges.filter fun e => e.ends.up != node && e.ends.down != node
    marked := model.marked.filter (·.2 != node) }

/-- Removes an edge from both. -/
def deleteEdge (i : Nat) (edge : ModelEdge) : Action Trial Unit := do
  onModel fun model => { model with edges := replaceByLast model.edges (i % model.edges.length) }
  let _ ← onGraph (Graph.deleteEdge edge.edge)

/-- Splits an edge in both. -/
def insertNode (i : Nat) (edge : ModelEdge) : Action Trial Unit := do
  let node ← onGraph (Graph.insertNode edge.edge 0 0)
  match ← Action.read (·.graph.firstIncident node .down) with
  | none => throw (.disagreement (.noTail node))
  | some tail =>
    onModel fun model => { model.setEdge i { edge with ends := ⟨edge.ends.up, node⟩ } with
      nodes := model.nodes ++ [node] }
    onModel fun model => { model with
      edges := model.edges ++ [⟨tail, node, edge.ends.down⟩] }

/-- Retargets an end of an edge in both. -/
def setEnd (i : Nat) (edge : ModelEdge) (dir : Direction) (node : NodeHandle) :
    Action Trial Unit := do
  onGraph (Graph.setEnd edge.edge dir node)
  onModel fun model => model.setEdge i { edge with ends := edge.ends.set dir node }

/-- Grants a marker, which may be refused only when all are in use. -/
def newMarker : Action Trial Unit := do
  let (outcome, graph) := (TagHost.grant .marker).outcome (← get).graph
  modify fun trial => { trial with graph }
  match outcome with
  | .ok marker => onModel fun model => { model with markers := model.markers ++ [marker] }
  | .error (.tagsExhausted _) =>
    Action.read fun trial =>
      agree trial.model.markers.length TagKind.marker.capacity .refusal
  | .error fault => throw fault

/-- Takes a marker back. -/
def freeMarker (marker : Marker) : Action Trial Unit := do
  onGraph (TagHost.release marker)
  onModel fun model => { model with
    markers := model.markers.filter (· != marker)
    marked := model.marked.filter (·.1 != marker) }

/-- Sets a marker on a node, which must change the graph exactly if it changes the model. -/
def mark (marker : Marker) (node : NodeHandle) : Action Trial Unit := do
  let newly ← onGraph (Graph.mark node marker)
  let was := (← get).model.isMarked marker node
  onModel fun model =>
    if was then model else { model with marked := (marker, node) :: model.marked }
  Action.check (agree newly (!was) (.change marker node))

/-- Clears a marker on a node, which must change the graph exactly if it changes the model. -/
def unmark (marker : Marker) (node : NodeHandle) : Action Trial Unit := do
  let cleared ← onGraph (Graph.unmark node marker)
  let was := (← get).model.isMarked marker node
  onModel fun model => { model with marked := model.marked.filter (· != (marker, node)) }
  Action.check (agree cleared was (.change marker node))

/-- Carries out an operation. One that names an entity when there is none of its kind does
nothing. -/
def apply (op : Op) : Action Trial Unit := do
  let model := (← get).model
  match op with
  | .newNode => newNode
  | .newEdge a b =>
    match model.node? a, model.node? b with
    | some pred, some succ => newEdge pred succ
    | _, _ => return
  | .deleteNode a => (model.node? a).forM deleteNode
  | .deleteEdge a => (model.edge? a).forM (deleteEdge a)
  | .insertNode a => (model.edge? a).forM (insertNode a)
  | .setPred a b =>
    match model.edge? a, model.node? b with
    | some edge, some node => setEnd a edge .up node
    | _, _ => return
  | .setSucc a b =>
    match model.edge? a, model.node? b with
    | some edge, some node => setEnd a edge .down node
    | _, _ => return
  | .newMarker => newMarker
  | .freeMarker a => (model.marker? a).forM freeMarker
  | .mark a b =>
    match model.marker? a, model.node? b with
    | some marker, some node => mark marker node
    | _, _ => return
  | .unmark a b =>
    match model.marker? a, model.node? b with
    | some marker, some node => unmark marker node
    | _, _ => return

/-! ### Comparison -/

/-- Compares the ends of an edge. -/
def compareEdge (trial : Trial) (e : ModelEdge) : Except Fault Unit :=
  Direction.all.forM fun dir => do
    agree (← trial.graph.edgeEnd e.edge dir) (e.ends.get dir) (.edgeEnd e.edge dir)

/-- Compares the degrees and the marks of a node. -/
def compareNode (trial : Trial) (node : NodeHandle) : Except Fault Unit := do
  let outs := trial.model.endCount node .up
  let ins := trial.model.endCount node .down
  agree (← trial.graph.walkEdges node .outgoing).length outs (.degree node .down)
  agree (← trial.graph.walkEdges node .incoming).length ins (.degree node .up)
  agree (← trial.graph.walkEdges node (.both false)).length (outs + ins) (.totalDegree node)
  trial.model.markers.forM fun marker => do
    agree (← Graph.isMarked node marker trial.graph) (trial.model.isMarked marker node)
      (.mark marker node)

/-- Compares a graph with its model. -/
def compare (trial : Trial) : Except Fault Unit := do
  agree trial.graph.nodes.count trial.model.nodes.length (.count .node)
  agree trial.graph.edges.count trial.model.edges.length (.count .edge)
  trial.model.edges.forM trial.compareEdge
  trial.model.nodes.forM trial.compareNode

/-- Carries out an operation and checks the result. -/
def step (op : Op) : Action Trial Unit := do
  apply op
  Action.read (·.graph.verify)
  Action.read compare

/-- Gives all markers back. -/
def freeMarkers : Action Trial Unit := do
  (← get).model.markers.forM fun marker => onGraph (TagHost.release marker)
  onModel fun model => { model with markers := [] }

end Trial

/-- Runs a script on an empty graph and its model, and gives up the graph in the end. -/
def Script.run (ops : List Op) : Except Fault Unit := do
  let (graph, _) := (Graph.ofConfig {}).outcome {}
  let trial : Trial := { graph := ← graph }
  let actions : Action Trial Unit := do
    ops.forM Trial.step
    Trial.freeMarkers
    Trial.onGraph (Graph.close false)
  (actions.outcome trial).1

end SlabGraph
