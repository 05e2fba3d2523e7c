import SlabGraph.Pool.Basic
import SlabGraph.Tag.Stamps

/-!
# Records of Nodes and Edges

Nodes and edges are kept in pools as records. The two kinds of record have most in common:
an id, the graph they belong to, the links of the lists they are members of, their tags and
a payload. They differ in how they touch the other kind. A node holds the heads of its two
edge lists, and an edge holds the slots of the nodes at its two ends.

A node is a member of one list, the list of all nodes. An edge is a member of three: the
list of all edges, the incoming list of its successor and the outgoing list of its
predecessor.

## Main definitions

* `Record`, with `NodeRecord` and `EdgeRecord`;
* `allSlot`, `incidenceSlot`, the list slots.
-/

namespace SlabGraph

/-- A stored entity with `slots` list memberships, an incidence and a payload. -/
structure Record (slots : Nat) (ι δ : Type) where
  /-- The id of the entity, unique in its graph. -/
  uid : Nat
  /-- The graph of the entity. -/
  graph : GraphId
  /-- How the entity touches entities of the other kind. -/
  incidence : ι
  /-- The links of the lists the entity is a member of. -/
  links : Links Ptr slots
  /-- The tags of the entity. -/
  area : TagArea
  /-- The payload. -/
  data : δ
deriving DecidableEq

instance {slots : Nat} {ι δ : Type} : Linked (Record slots ι δ) Ptr slots where
  links := Record.links
  withLinks record links := { record with links }

/-- A record without neighbours and without tags. -/
def Record.fresh {slots : Nat} {ι δ : Type} (graph : GraphId) (uid : Nat) (incidence : ι)
    (data : δ) : Record slots ι δ where
  uid
  graph
  incidence
  links := .unlinked
  area := .clean
  data

/-- A node. Its incidence holds the heads of its edge lists. -/
abbrev NodeRecord (N : Type) := Record 1 (DirPair (Packed Ptr)) N

/-- An edge. Its incidence holds the nodes at its ends. -/
abbrev EdgeRecord (E : Type) := Record 3 (DirPair Ptr) E

/-- The list slot of the list of all entities of a kind. -/
def allSlot : Nat := 0

/-- The list slot of the `dir` lists of nodes. -/
def incidenceSlot : Direction → Nat
  | .up => 1
  | .down => 2

end SlabGraph
