import SlabGraph.Graph.Read

/-!
# Edge Cursors

A cursor stands at an edge of a node, or at the end. It is a plain value: it holds no
reference to the graph, so the edge it has just left may be deleted, and it is given the
graph whenever it moves.

There are three walks over the edges of a node: the incoming ones, the outgoing ones, and
both, the incoming ones first. The walk over both does not remember the node. When the
incoming edges run out it finds the node again as the successor of the last of them. A
self-loop is met twice by this walk, once in each half.

All cursors of a walk that stand at the end are equal.

## Main definitions

* `Walk`, `Walk.start`, `Walk.step`;
* `EdgeCursor`, `EdgeCursor.begin`, `EdgeCursor.advance`, `EdgeCursor.edge`;
* `EdgeCursor.edges`, the edges from a cursor on;
* `Graph.walkEdges`, and the views `Graph.preds`, `Graph.succs`, `Graph.adjacent`,
  `Graph.edgesBetween` through it.
-/

namespace SlabGraph

/-- A way of going over the edges of a node. -/
inductive Walk where
  /-- Over the incoming edges. -/
  | incoming
  /-- Over the outgoing edges. -/
  | outgoing
  /-- Over the incoming edges and then over the outgoing ones. -/
  | both (inPreds : Bool)
deriving DecidableEq, Inhabited, Repr

namespace Walk

variable {N E : Type}

/-- The walk as it is at the end. -/
def atEnd : Walk → Walk
  | both _ => both false
  | walk => walk

/-- The first edge of a walk over the edges of a node. -/
def start (g : Graph N E) (node : NodeHandle) : Walk → Except Fault (Option EdgeHandle × Walk)
  | incoming => do return (← g.firstIncident node .up, incoming)
  | outgoing => do return (← g.firstIncident node .down, outgoing)
  | both _ => do
    match ← g.firstIncident node .up with
    | some edge => return (some edge, both true)
    | none => return (← g.firstIncident node .down, both false)

/-- The edge after an edge. -/
def step (g : Graph N E) (edge : EdgeHandle) : Walk → Except Fault (Option EdgeHandle × Walk)
  | incoming => do return (← g.nextIncident edge .up, incoming)
  | outgoing => do return (← g.nextIncident edge .down, outgoing)
  | both false => do return (← g.nextIncident edge .down, both false)
  | both true => do
    match ← g.nextIncident edge .up with
    | some next => return (some next, both true)
    | none =>
      let node ← g.edgeEnd edge .down
      return (← g.firstIncident node .down, both false)

/-- The end of an edge that a walk meets from the other side. -/
def farEnd : Walk → Direction
  | incoming => .up
  | outgoing => .down
  | both true => .up
  | both false => .down

/-- The printed form of a walk. -/
def text : Walk → String
  | incoming => "PredWalk"
  | outgoing => "SuccWalk"
  | both inPreds => s!"UndirWalk \x7b in_preds: {inPreds} \x7d"

end Walk

/-- A position in a walk over the edges of a node. -/
structure EdgeCursor where
  /-- The edge, or nothing at the end. -/
  edge? : Option EdgeHandle
  /-- The walk. -/
  walk : Walk
deriving DecidableEq, Inhabited, Repr

namespace EdgeCursor

variable {N E : Type}

/-- The cursor at the end of a walk. -/
def atEnd (walk : Walk) : EdgeCursor := ⟨none, walk.atEnd⟩

/-- Whether a cursor stands at the end. -/
def isEnd (cursor : EdgeCursor) : Bool := cursor.edge?.isNone

/-- The cursor at a position of a walk. -/
def ofPosition : Option EdgeHandle × Walk → EdgeCursor
  | (some edge, walk) => ⟨some edge, walk⟩
  | (none, walk) => atEnd walk

/-- The cursor at the first edge of a node. -/
def begin (g : Graph N E) (node : NodeHandle) (walk : Walk) : Except Fault EdgeCursor :=
  ofPosition <$> walk.start g node

/-- The edge at which a cursor stands. -/
def edge (cursor : EdgeCursor) : Except Fault EdgeHandle :=
  match cursor.edge? with
  | some edge => .ok edge
  | none => .error .endCursorEdge

/-- The node on the other side of the edge. -/
def neighbour (g : Graph N E) (cursor : EdgeCursor) : Except Fault NodeHandle := do
  g.edgeEnd (← cursor.edge) cursor.walk.farEnd

/-- The cursor at the next edge. -/
def advance (g : Graph N E) (cursor : EdgeCursor) : Except Fault EdgeCursor :=
  match cursor.edge? with
  | some edge => ofPosition <$> cursor.walk.step g edge
  | none => .error .endCursorAdvance

/-- The next edge and the cursor after it, unless the cursor stands at the end. -/
def next? (g : Graph N E) (cursor : EdgeCursor) : Except Fault (Option (EdgeHandle × EdgeCursor)) :=
  match cursor.edge? with
  | some edge => do return some (edge, ← cursor.advance g)
  | none => .ok none

/-- The next edges, at most so many, and the cursor after them. -/
def take (g : Graph N E) : Nat → EdgeCursor → Except Fault (List EdgeHandle × EdgeCursor)
  | 0, cursor => .ok ([], cursor)
  | k + 1, cursor => do
    match ← cursor.next? g with
    | none => return ([], cursor)
    | some (edge, cursor) =>
      let (edges, cursor) ← cursor.take g k
      return (edge :: edges, cursor)

/-- The cursors from one to the end of its walk. -/
def positions (g : Graph N E) (cursor : EdgeCursor) : Except Fault (List EdgeCursor) :=
  let live (cursor : EdgeCursor) := if cursor.isEnd then none else some cursor
  follow (fun cursor => live <$> cursor.advance g) (2 * g.edges.count + 1) (live cursor)

/-- The edges from a cursor on. -/
def edges (g : Graph N E) (cursor : EdgeCursor) : Except Fault (List EdgeHandle) := do
  return (← cursor.positions g).filterMap (·.edge?)

/-- The printed form of a cursor. -/
def text (cursor : EdgeCursor) : String :=
  let edge := match cursor.edge? with
    | some edge => s!"Some({edge})"
    | none => "None"
  s!"EdgeCursor \x7b edge: {edge}, walk: {cursor.walk.text} \x7d"

end EdgeCursor

namespace Graph

variable {N E : Type}

/-- The edges of a node in the order of a walk. -/
def walkEdges (g : Graph N E) (node : NodeHandle) (walk : Walk) :
    Except Fault (List EdgeHandle) := do
  (← EdgeCursor.begin g node walk).edges g

/-- The predecessors of a node, once for each incoming edge. -/
def preds (g : Graph N E) (node : NodeHandle) : Except Fault (List NodeHandle) := do
  (← g.walkEdges node .incoming).mapM (g.edgeEnd · .up)

/-- The successors of a node, once for each outgoing edge. -/
def succs (g : Graph N E) (node : NodeHandle) : Except Fault (List NodeHandle) := do
  (← g.walkEdges node .outgoing).mapM (g.edgeEnd · .down)

/-- The neighbours of a node: its predecessors and then its successors. -/
def adjacent (g : Graph N E) (node : NodeHandle) : Except Fault (List NodeHandle) := do
  return (← g.preds node) ++ (← g.succs node)

/-- The payloads of the edges from one node to another. -/
def edgesBetween (g : Graph N E) (src dst : NodeHandle) : Except Fault (List E) := do
  let edges ← (← g.walkEdges src .outgoing).filterM fun edge => do
    return (← g.edgeEnd edge .down) == dst
  edges.mapM g.edgeData

end Graph

end SlabGraph
