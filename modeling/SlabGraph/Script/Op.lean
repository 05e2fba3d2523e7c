/-!
# Scripts

A script is a list of operations on a graph. Its operations name nodes, edges and markers by
plain numbers, which count through the entities that exist when the operation is carried
out, and wrap around at their end. So every script makes sense on every graph.

## Main definitions

* `Op`, with `Op.name`, `Op.operands` and `Op.ofName`.
-/

namespace SlabGraph

/-- An operation of a script. -/
inductive Op where
  /-- Adds a node. -/
  | newNode
  /-- Adds an edge between two nodes. -/
  | newEdge (pred succ : Nat)
  /-- Removes a node. -/
  | deleteNode (node : Nat)
  /-- Removes an edge. -/
  | deleteEdge (edge : Nat)
  /-- Splits an edge. -/
  | insertNode (edge : Nat)
  /-- Retargets the predecessor end of an edge. -/
  | setPred (edge node : Nat)
  /-- Retargets the successor end of an edge. -/
  | setSucc (edge node : Nat)
  /-- Grants a marker. -/
  | newMarker
  /-- Takes a marker back. -/
  | freeMarker (marker : Nat)
  /-- Sets a marker on a node. -/
  | mark (marker node : Nat)
  /-- Clears a marker on a node. -/
  | unmark (marker node : Nat)
deriving DecidableEq, Inhabited, Repr

namespace Op

/-- The name of an operation. -/
def name : Op → String
  | newNode => "NewNode"
  | newEdge .. => "NewEdge"
  | deleteNode _ => "DeleteNode"
  | deleteEdge _ => "DeleteEdge"
  | insertNode _ => "InsertNode"
  | setPred .. => "SetPred"
  | setSucc .. => "SetSucc"
  | newMarker => "NewMarker"
  | freeMarker _ => "FreeMarker"
  | mark .. => "Mark"
  | unmark .. => "Unmark"

/-- The operands of an operation. -/
def operands : Op → List Nat
  | newNode => []
  | newEdge a b => [a, b]
  | deleteNode a => [a]
  | deleteEdge a => [a]
  | insertNode a => [a]
  | setPred a b => [a, b]
  | setSucc a b => [a, b]
  | newMarker => []
  | freeMarker a => [a]
  | mark a b => [a, b]
  | unmark a b => [a, b]

/-- The operation of a name, given two numbers, of which it takes as many as it has operands. -/
def ofName (name : String) (a b : Nat) : Option Op :=
  match name with
  | "NewNode" => some newNode
  | "NewEdge" => some (newEdge a b)
  | "DeleteNode" => some (deleteNode a)
  | "DeleteEdge" => some (deleteEdge a)
  | "InsertNode" => some (insertNode a)
  | "SetPred" => some (setPred a b)
  | "SetSucc" => some (setSucc a b)
  | "NewMarker" => some newMarker
  | "FreeMarker" => some (freeMarker a)
  | "Mark" => some (mark a b)
  | "Unmark" => some (unmark a b)
  | _ => none

/-- The operation of a kind, by its number, given two numbers of which it takes as many as it
has operands. All numbers from the last kind on name that kind. -/
def ofKind (kind a b : Nat) : Op :=
  match kind with
  | 0 => newNode
  | 1 => newEdge a b
  | 2 => deleteNode a
  | 3 => deleteEdge a
  | 4 => insertNode a
  | 5 => setPred a b
  | 6 => setSucc a b
  | 7 => newMarker
  | 8 => freeMarker a
  | 9 => mark a b
  | _ => unmark a b

end Op

end SlabGraph
