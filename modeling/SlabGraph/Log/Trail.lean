import SlabGraph.Graph.Edit
import SlabGraph.Graph.Tags
import SlabGraph.Log.Event

/-!
# The Trail of an Operation

The operations of the library do not write a log. Their events can be told from the state
before, the state after and the outcome, and that is what the functions of this module do.
Each is named for the operation whose events it lists, in the order in which they happen.

An event that precedes a check is listed also when the check fails: a graph is announced
before its configuration is looked at, and a tag is named before it is known to be in use.

## Main definitions

* `Trail.growth`, for everything that stores values;
* `Trail.grant`, `Trail.release`, `Trail.sweep`, for tags;
* `Trail.newNode`, `Trail.newEdge`, `Trail.insertNode`, `Trail.deleteNode`,
  `Trail.deleteEdge`, `Trail.clear`, for graphs.
-/

namespace SlabGraph.Trail

/-! ### Pools -/

/-- The chunks that a pool has gained. -/
def growth {α : Type} (before after : Pool α) : List Event :=
  (List.range' before.chunks.size (after.chunks.size - before.chunks.size)).map fun chunk =>
    .growth chunk after.capacity.entries

/-! ### Tags -/

/-- The grant of a tag by a host with a certain ledger, whose sweeps show as `sweep`. -/
def grant {kind : TagKind} (ledger : TagLedger kind) (sweep : List Event)
    (outcome : Except Fault (Tag kind)) : List Event :=
  let sweeps := match ledger.freeIndex with
    | none => [Event.refusal kind]
    | some i => if ledger.exhausted i then .exhaustion kind i :: sweep else []
  let grants := match outcome with
    | .ok tag => [Event.grant kind tag.index tag.value]
    | .error _ => []
  sweeps ++ grants

/-- The return of a tag. -/
def release {kind : TagKind} (tag : Tag kind) : List Event := [.release kind tag.index tag.value]

/-- The sweep of a graph. -/
def sweep {N E : Type} (kind : TagKind) (g : Graph N E) : List Event := [.sweep kind g.id]

/-! ### Graphs -/

section

variable {N E : Type} (before after : Graph N E)

/-- The construction of a graph. -/
def newGraph (supply : IdSupply) (config : GraphConfig) : List Event :=
  [.newGraph ⟨supply.graph⟩ config]

/-- The creation of a node. -/
def newNode (outcome : Except Fault NodeHandle) : List Event :=
  growth before.nodes.pool after.nodes.pool ++
    match outcome with
    | .ok node => [.newNode before.id node.uid]
    | .error _ => []

/-- The creation of an edge. -/
def newEdge (pred succ : NodeHandle) (outcome : Except Fault EdgeHandle) : List Event :=
  growth before.edges.pool after.edges.pool ++
    match outcome with
    | .ok edge => [.newEdge before.id edge.uid pred.uid succ.uid]
    | .error _ => []

/-- The split of an edge: the creation of a node, and that of an edge from there to where
the edge ended before. -/
def insertNode (edge : EdgeHandle) (outcome : Except Fault NodeHandle) : List Event :=
  growth before.nodes.pool after.nodes.pool ++
    match outcome, before.edgeEnd edge .down with
    | .ok node, .ok succ =>
      .newNode before.id node.uid :: growth before.edges.pool after.edges.pool ++
        [.newEdge before.id before.edges.nextUid node.uid succ.uid]
    | _, _ => []

/-- The removal of an edge. -/
def deleteEdge (edge : EdgeHandle) (outcome : Except Fault E) : List Event :=
  match outcome with
  | .ok _ => [.deleteEdge before.id edge.uid]
  | .error _ => []

/-- The removal of a node. -/
def deleteNode (node : NodeHandle) (outcome : Except Fault N) : List Event :=
  match outcome with
  | .ok _ => [.deleteNode before.id node.uid]
  | .error _ => []

/-- The emptying of a graph. -/
def clear : List Event :=
  if before.nodes.count = 0 then []
  else [.clear before.id before.nodes.count before.edges.count]

end

end SlabGraph.Trail
