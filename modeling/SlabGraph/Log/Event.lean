import SlabGraph.Graph.Basic

/-!
# Events

What the library does can be followed in a log of events. An event says what happened and to
what. Its text is a level, a sentence and named values.

## Main definitions

* `Event`, `Event.text`.
-/

namespace SlabGraph

/-- Something that happened. -/
inductive Event where
  /-- A graph is about to be built. -/
  | newGraph (graph : GraphId) (config : GraphConfig)
  /-- A pool has grown by a chunk. -/
  | growth (chunk capacity : Nat)
  /-- A node was added. -/
  | newNode (graph : GraphId) (uid : Nat)
  /-- An edge was added. -/
  | newEdge (graph : GraphId) (uid pred succ : Nat)
  /-- An edge was removed by its handle. -/
  | deleteEdge (graph : GraphId) (uid : Nat)
  /-- A node was removed. -/
  | deleteNode (graph : GraphId) (uid : Nat)
  /-- A graph with nodes is about to be emptied. -/
  | clear (graph : GraphId) (nodes edges : Nat)
  /-- A tag was refused. -/
  | refusal (kind : TagKind)
  /-- An index has no value left. -/
  | exhaustion (kind : TagKind) (index : Nat)
  /-- The stamps of the entities of a graph are scrubbed. -/
  | sweep (kind : TagKind) (graph : GraphId)
  /-- A tag was granted. -/
  | grant (kind : TagKind) (index value : Nat)
  /-- A tag is about to be taken back. -/
  | release (kind : TagKind) (index value : Nat)
deriving DecidableEq, Repr

namespace Event

/-- The printed form of a configuration. -/
def configText (config : GraphConfig) : String :=
  let nodes := s!"node_chunk_capacity: {config.nodeCapacity}"
  let edges := s!"edge_chunk_capacity: {config.edgeCapacity}"
  s!"GraphConfig \x7b {nodes}, {edges} \x7d"

/-- The printed form of an event. -/
def text : Event → String
  | newGraph graph config => s!"DEBUG new graph graph={graph} config={configText config}"
  | growth chunk capacity =>
    s!"DEBUG slab pool grows a new chunk chunk={chunk} capacity={capacity}"
  | newNode graph uid => s!"TRACE new node graph={graph} node={uid}"
  | newEdge graph uid pred succ =>
    s!"TRACE new edge graph={graph} edge={uid} pred={pred} succ={succ}"
  | deleteEdge graph uid => s!"TRACE delete edge graph={graph} edge={uid}"
  | deleteNode graph uid => s!"TRACE delete node graph={graph} node={uid}"
  | clear graph nodes edges => s!"DEBUG clear graph graph={graph} nodes={nodes} edges={edges}"
  | refusal kind => s!"WARN out of {kind} indices max={kind.capacity}"
  | exhaustion kind index => s!"DEBUG {kind} values exhausted, sweeping objects index={index}"
  | sweep kind graph => s!"DEBUG sweeping {kind} stamps graph={graph}"
  | grant kind index value => s!"TRACE new {kind} index={index} value={value}"
  | release kind index value => s!"TRACE free {kind} index={index} value={value}"

end Event

end SlabGraph
