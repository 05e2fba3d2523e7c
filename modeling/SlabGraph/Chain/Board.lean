import SlabGraph.Chain.Storage

/-!
# Boards

A board is the plainest setting for lists: a fixed row of items, each with links for the
same number of slots, and a row of list heads. Nothing ties a head to a slot. A caller may
use any head with any slot and any item, and the checks of the chain operations are all
that stands between such use and broken links.

## Main definitions

* `Board`, `Board.new`;
* `Board.pushFront`, `Board.unlink` on a head, `Board.attach`, `Board.detach`,
  `Board.detachAll` on the items alone;
* `Board.members`, the list at a head.
-/

namespace SlabGraph

/-- A pointer to an item of a board. The greatest 64-bit word is reserved. -/
abbrev Item := Index (UInt64.size - 1)

/-- A row of items and a row of list heads. -/
structure Board (slots : Nat) where
  /-- The links of the items. -/
  items : Array (Links Item slots)
  /-- The heads of the lists. -/
  heads : Array (Packed Item)
deriving DecidableEq, Repr

namespace Board

variable {slots : Nat}

/-- Unlinked items and empty lists. -/
def new (slots items heads : Nat) : Board slots where
  items := .replicate items .unlinked
  heads := .replicate heads .empty

/-- Runs an action on the items. -/
def onItems {α : Type} (x : Action (Array (Links Item slots)) α) : Action (Board slots) α :=
  Action.within Board.items (fun board items => { board with items }) x

/-- The head of a list. -/
def headAt (board : Board slots) (head : Nat) : Except Fault (Packed Item) :=
  match board.heads[head]? with
  | some p => .ok p
  | none => .error (.outOfBounds board.heads.size head)

/-- Puts an item directly in front of `peer`. -/
def attach (item : Item) (slot : Nat) (peer : Item) : Action (Board slots) Unit :=
  onItems (Chain.attach item slot peer)

/-- Takes an item out of its chain of a slot. -/
def detach (item : Item) (slot : Nat) : Action (Board slots) Unit :=
  onItems (Chain.detach item slot)

/-- Takes an item out of its chains of all slots. -/
def detachAll (item : Item) : Action (Board slots) Unit :=
  onItems (Chain.detachAll item)

/-- Makes an item the first member of the list at a head. -/
def pushFront (item : Item) (slot head : Nat) : Action (Board slots) Unit := do
  let old ← Action.read (headAt · head)
  let new ← onItems (Chain.pushFront item slot old)
  modify fun board => { board with heads := board.heads.setIfInBounds head new }

/-- Takes an item out of the list at a head. -/
def unlink (item : Item) (slot head : Nat) : Action (Board slots) Unit := do
  let old ← Action.read (headAt · head)
  let new ← onItems (Chain.unlink item slot old)
  modify fun board => { board with heads := board.heads.setIfInBounds head new }

/-- The items after an item, itself included. -/
def itemsFrom (board : Board slots) (item : Item) (slot : Nat) : Except Fault (List Item) :=
  Chain.walk board.items slot (some item)

/-- The members of the list at a head, in order. -/
def members (board : Board slots) (head slot : Nat) : Except Fault (List Item) := do
  Chain.walk board.items slot (← board.headAt head).unpack

end Board

end SlabGraph
