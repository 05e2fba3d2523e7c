/-!
# Directions

An edge has two ends: `up` is the predecessor end and `down` is the successor end. A node
has two lists of edges, named by the same two words: its `up` list holds the incoming
edges and its `down` list the outgoing ones. So an edge stands in the `dir` list of the
node at its `dir.rev` end, and `Direction.rev` is what turns an end into the list it
belongs to.

## Main definitions

* `Direction`, `Direction.rev`, `Direction.all`;
* `DirPair`, one value per direction.
-/

namespace SlabGraph

/-- An end of an edge, or one of the two edge lists of a node. -/
inductive Direction where
  /-- Towards the predecessor. -/
  | up
  /-- Towards the successor. -/
  | down
deriving DecidableEq, Inhabited, Repr

namespace Direction

/-- Both directions, in the order in which the ends of an edge are linked. -/
def all : List Direction := [up, down]

/-- The opposite direction. -/
def rev : Direction → Direction
  | up => down
  | down => up

/-- The number of a direction. -/
def index : Direction → Nat
  | up => 0
  | down => 1

/-- The word for a direction. -/
def text : Direction → String
  | up => "up"
  | down => "down"

instance : ToString Direction := ⟨text⟩

/-- The word for the edges of a node in a direction. -/
def edgesText : Direction → String
  | up => "incoming"
  | down => "outgoing"

/-- The capitalised word for a direction. -/
def title : Direction → String
  | up => "Up"
  | down => "Down"

/-- Turning a direction twice leaves it as it was. -/
@[simp] theorem rev_rev (dir : Direction) : dir.rev.rev = dir := by cases dir <;> rfl

end Direction

/-- One value for each direction. -/
structure DirPair (α : Type) where
  /-- The value of `Direction.up`. -/
  up : α
  /-- The value of `Direction.down`. -/
  down : α
deriving DecidableEq, Inhabited, Repr

namespace DirPair

variable {α : Type}

/-- The value of a direction. -/
def get (pair : DirPair α) : Direction → α
  | .up => pair.up
  | .down => pair.down

/-- Replaces the value of a direction. -/
def set (pair : DirPair α) (dir : Direction) (a : α) : DirPair α :=
  match dir with
  | .up => { pair with up := a }
  | .down => { pair with down := a }

/-- The component of a pair that was replaced. -/
@[simp] theorem get_set_self (pair : DirPair α) (dir : Direction) (a : α) :
    (pair.set dir a).get dir = a := by cases dir <;> rfl

/-- The other component of a pair stays. -/
theorem get_set_of_ne (pair : DirPair α) {dir dir' : Direction} (a : α) (h : dir ≠ dir') :
    (pair.set dir a).get dir' = pair.get dir' := by
  cases dir <;> cases dir' <;> simp_all [get, set]

/-- A pair is its values. -/
theorem ext_get {a b : DirPair α} (h : ∀ dir, a.get dir = b.get dir) : a = b := by
  obtain ⟨up, down⟩ := a
  obtain ⟨up', down'⟩ := b
  obtain rfl : up = up' := h .up
  obtain rfl : down = down' := h .down
  rfl

/-- Replacing a component by itself changes nothing. -/
@[simp] theorem set_get (pair : DirPair α) (dir : Direction) :
    pair.set dir (pair.get dir) = pair := by cases dir <;> rfl

end DirPair

end SlabGraph
