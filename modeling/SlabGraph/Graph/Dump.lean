import SlabGraph.Graph.Basic

/-!
# The Printed Forms of a Graph

The *dump* of a graph lists its ids: an opening line, one line per node, one line per edge
with the ids of its two ends, and a closing line. Nodes and edges stand in list order. The
*summary* of a graph is one line with its number and its counts.

## Main definitions

* `Dump`, the ids that are listed, and `Dump.text`, their printed form;
* `Graph.dump`, `Graph.dumpText`, `Graph.summary`.
-/

namespace SlabGraph

/-- The ids of the nodes, and of the two ends of each edge. -/
structure Dump where
  /-- The nodes in list order. -/
  nodes : List Nat
  /-- The ends of the edges in list order, predecessor first. -/
  edges : List (Nat × Nat)
deriving DecidableEq, Inhabited, Repr

/-- The lines of a dump. -/
def Dump.lines (dump : Dump) : List String :=
  "digraph\x7b" :: dump.nodes.map (fun uid => s!"{uid};")
    ++ dump.edges.map (fun (pred, succ) => s!"{pred}->{succ};") ++ ["\x7d"]

/-- The printed form of a dump. Every line ends with a line break. -/
def Dump.text (dump : Dump) : String :=
  String.join (dump.lines.map (· ++ "\n"))

namespace Graph

variable {N E : Type}

/-- The ids of a graph. -/
def dump (g : Graph N E) : Except Fault Dump := do
  let nodes ← (← g.nodes.members).mapM fun slot => do
    return (← g.nodes.record slot).uid
  let edges ← (← g.edges.members).mapM fun slot => do
    let ends := (← g.edges.record slot).incidence
    return ((← g.nodes.record ends.up).uid, (← g.nodes.record ends.down).uid)
  return ⟨nodes, edges⟩

/-- The printed form of the ids of a graph. -/
def dumpText (g : Graph N E) : Except Fault String := do
  return (← g.dump).text

/-- The number and the counts of a graph. -/
def summary (g : Graph N E) : String :=
  let counts := s!"num_nodes: {g.nodes.count}, num_edges: {g.edges.count}"
  s!"DiGraph \x7b id: {g.id.debugText}, {counts}, .. \x7d"

end Graph

end SlabGraph
