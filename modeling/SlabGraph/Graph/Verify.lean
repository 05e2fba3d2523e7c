import SlabGraph.Graph.Basic

/-!
# The Structural Check

`Graph.verify` reads all lists of a graph and reports the first thing that is wrong: a
record of another graph, an id that occurs twice, a link backwards that disagrees with the
way a record was reached, an edge on a list it does not belong to or missing from one it
belongs to, and counts that do not match.

## Main definitions

* `Graph.verifyNodes`, `Graph.verifyEdges`, `Graph.verify`.
-/

namespace SlabGraph

/-- Fails with a violation unless a condition holds. -/
def ensure (condition : Bool) (violation : Violation) : Except Fault Unit :=
  if condition then .ok () else .error (.corrupt violation)

/-- Fails with a violation, which keeps both values, unless they are equal. -/
def ensureEq {α : Type} [DecidableEq α] (found expected : α) (violation : α → α → Violation) :
    Except Fault Unit :=
  ensure (found = expected) (violation found expected)

namespace Graph

variable {N E : Type}

/-- Checks the edges in the `dir` list of a node, of which `before` was met last. Answers how
many there are. -/
def verifyIncident (g : Graph N E) (node : Ptr) (uid : Nat) (dir : Direction) :
    Option Ptr → List Ptr → Except Fault Nat
  | _, [] => .ok 0
  | before, slot :: rest => do
    let edge ← g.edges.record slot
    ensureEq (edge.incidence.get dir.rev) node (.notIncident edge.uid dir uid)
    ensureEq (← edge.links.prevAt (incidenceSlot dir)) before (.brokenIncidence dir uid edge.uid)
    let count ← g.verifyIncident node uid dir (some slot) rest
    return count + 1

/-- Checks the nodes of a list, given the ids met so far and the node met last. Answers the
number of incoming and the number of outgoing edges. -/
def verifyNodes (g : Graph N E) : List Nat → Option Ptr → List Ptr → Except Fault (Nat × Nat)
  | _, _, [] => .ok (0, 0)
  | seen, before, slot :: rest => do
    let node ← g.nodes.record slot
    ensureEq node.graph g.id (.foreignRecord .node node.uid)
    ensure (!seen.contains node.uid) (.duplicateId .node node.uid)
    ensureEq (← node.links.prevAt allSlot) before (.brokenList .node node.uid)
    let ups ← g.verifyIncident slot node.uid .up none (← g.incidentSlots slot .up)
    let downs ← g.verifyIncident slot node.uid .down none (← g.incidentSlots slot .down)
    let (restUps, restDowns) ← g.verifyNodes (node.uid :: seen) (some slot) rest
    return (ups + restUps, downs + restDowns)

/-- Checks that the `dir` end of an edge is a live node that has the edge on its list. -/
def verifyEnd (g : Graph N E) (slot : Ptr) (edge : EdgeRecord E) (dir : Direction) :
    Except Fault Unit := do
  let node := edge.incidence.get dir
  ensure (g.nodes.pool.get? node).isSome (.deletedEnd edge.uid dir)
  ensure ((← g.incidentSlots node dir.rev).contains slot) (.missingIncidence edge.uid dir)

/-- Checks the edges of a list, given the ids met so far and the edge met last. -/
def verifyEdges (g : Graph N E) : List Nat → Option Ptr → List Ptr → Except Fault Unit
  | _, _, [] => .ok ()
  | seen, before, slot :: rest => do
    let edge ← g.edges.record slot
    ensureEq edge.graph g.id (.foreignRecord .edge edge.uid)
    ensure (!seen.contains edge.uid) (.duplicateId .edge edge.uid)
    ensureEq (← edge.links.prevAt allSlot) before (.brokenList .edge edge.uid)
    Direction.all.forM (g.verifyEnd slot edge)
    g.verifyEdges (edge.uid :: seen) (some slot) rest

/-- Checks the structure of a graph. -/
def verify (g : Graph N E) : Except Fault Unit := do
  let nodes ← g.nodes.members
  let (ups, downs) ← g.verifyNodes [] none nodes
  ensureEq nodes.length g.nodes.count (.wrongCount .node)
  ensureEq g.nodes.pool.live g.nodes.count (.wrongPool .node)
  let edges ← g.edges.members
  g.verifyEdges [] none edges
  ensureEq edges.length g.edges.count (.wrongCount .edge)
  ensureEq g.edges.pool.live g.edges.count (.wrongPool .edge)
  ensureEq ups g.edges.count (.wrongTotal .up)
  ensureEq downs g.edges.count (.wrongTotal .down)

end Graph

end SlabGraph
