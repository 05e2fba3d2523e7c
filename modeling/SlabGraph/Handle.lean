import SlabGraph.Ptr

/-!
# Handles of Nodes and Edges

A `Handle` is a plain value that names a node or an edge of one graph. Pool pointers are
given out again after a deallocation, so a pointer alone would sooner or later name
another entity. A handle therefore records three things: the graph that issued it, the id
of the entity, which its graph never reuses, and the slot of its record. It addresses a
live entity of a graph exactly when all three agree.

## Main definitions

* `GraphId`, the number of a graph;
* `Handle`, with `NodeHandle` and `EdgeHandle` for the two kinds of entity;
* `Handle.text`, the printed form `g0/node*0:0`, which leaves out the id.
-/

namespace SlabGraph

/-- The number of a graph. Numbers are given out in order, as 32-bit words. -/
structure GraphId where
  /-- The number itself. -/
  word : UInt32
deriving DecidableEq, Hashable, Inhabited, Repr

namespace GraphId

/-- The printed form of a graph number. -/
def text (id : GraphId) : String := s!"g{id.word.toNat}"

instance : ToString GraphId := ⟨text⟩

/-- The form of a graph number that names its type. -/
def debugText (id : GraphId) : String := s!"GraphId({id.word.toNat})"

instance : Ord GraphId := ⟨fun a b => compare a.word b.word⟩

end GraphId

/-- The two kinds of entity that a graph is made of. -/
inductive EntityKind where
  | node
  | edge
deriving DecidableEq, Inhabited, Repr

/-- The word for a kind of entity. -/
def EntityKind.text : EntityKind → String
  | node => "node"
  | edge => "edge"

instance : ToString EntityKind := ⟨EntityKind.text⟩

/-- The name of an entity: who issued it, its id, and where its record is. -/
structure Handle (kind : EntityKind) where
  /-- The graph that issued the handle. -/
  graph : GraphId
  /-- The id of the entity inside its graph. -/
  uid : Nat
  /-- The slot of the record of the entity. -/
  slot : Ptr
deriving DecidableEq, Hashable, Inhabited, Repr

/-- A handle of a node. -/
abbrev NodeHandle := Handle .node

/-- A handle of an edge. -/
abbrev EdgeHandle := Handle .edge

namespace Handle

variable {kind : EntityKind}

/-- The printed form of a handle. -/
def text (handle : Handle kind) : String := s!"{handle.graph}/{kind}{handle.slot}"

instance : ToString (Handle kind) := ⟨text⟩

/-- Handles are ordered by graph, then by id, then by slot. -/
instance : Ord (Handle kind) :=
  ⟨fun a b => ((compare a.graph b.graph).then (compare a.uid b.uid)).then (compare a.slot b.slot)⟩

end Handle

end SlabGraph
