import SlabGraph.Action
import SlabGraph.Chain.Links

/-!
# Chains

The items of a storage that are linked in one slot form *chains*: doubly linked lists that
are read through the links alone. The operations here work on every storage whose items
embed links (`ChainStorage`), and name an item by a pointer.

A list is a chain with a *head*, the pointer to its first member. The owner of the list
keeps the head, hands it to `Chain.pushFront` and `Chain.unlink`, and gets the new head
back.

Attaching checks its preconditions: an item is never put in front of itself, and never
linked twice in one slot. This is what keeps the chains of a slot disjoint and free of
cycles, so that every walk along the links ends. `Chain.walk` nevertheless counts its
steps, since a walk over arbitrary links need not end: it fails once it has met more
members than the storage has items.

## Main definitions

* `ChainStorage`, with arrays of records as the first instance;
* `Chain.next`, `Chain.prev`, `Chain.hasNeighbours`, `Chain.walk`, which only read;
* `Chain.attach`, `Chain.detach`, `Chain.detachAll`, `Chain.pushFront`, `Chain.unlink`.
-/

namespace SlabGraph

/-- A storage of items that embed links. -/
class ChainStorage (S : Type) (P : outParam Type) (slots : outParam Nat) where
  /-- The links of the item that a pointer names. -/
  links : S → P → Except Fault (Links P slots)
  /-- Replaces the links of an item that is there. -/
  setLinks : S → P → Links P slots → S
  /-- A bound on the number of items. -/
  size : S → Nat

/-- The items of an array are named by their positions. The reserved position names none. -/
instance {R : Type} {top slots : Nat} [Linked R (Index top) slots] :
    ChainStorage (Array R) (Index top) slots where
  links s i :=
    if i.val = top then .error (.outOfBounds s.size i.val)
    else match s[i.val]? with
      | some r => .ok (Linked.links r)
      | none => .error (.outOfBounds s.size i.val)
  setLinks s i links := s.modify i.val (Linked.withLinks · links)
  size := Array.size

/-- The values met from a start on by going from each to the next, of which there must be
no more than `fuel`. -/
def follow {α : Type} (step : α → Except Fault (Option α)) :
    Nat → Option α → Except Fault (List α)
  | _, none => .ok []
  | 0, some _ => .error .endlessList
  | fuel + 1, some a => do
    let rest ← follow step fuel (← step a)
    return a :: rest

namespace Chain

variable {S P : Type} {slots : Nat} [Reserved P] [DecidableEq P] [ChainStorage S P slots]

/-! ### Reading -/

/-- The item after an item. -/
def next (s : S) (p : P) (slot : Nat) : Except Fault (Option P) := do
  (← ChainStorage.links s p).nextAt slot

/-- The item before an item. -/
def prev (s : S) (p : P) (slot : Nat) : Except Fault (Option P) := do
  (← ChainStorage.links s p).prevAt slot

/-- Whether an item has a neighbour. The only member of a list has none. -/
def hasNeighbours (s : S) (p : P) (slot : Nat) : Except Fault Bool := do
  match ← next s p slot with
  | some _ => return true
  | none => return (← prev s p slot).isSome

/-- The members of a chain from `p?` on. A chain meets no item twice, so the number of
items bounds its length. One more step lets a chain that starts outside the storage fail for
that reason. -/
def walk (s : S) (slot : Nat) (p? : Option P) : Except Fault (List P) :=
  follow (next s · slot) (ChainStorage.size s + 1) p?

/-! ### Linking and unlinking -/

/-- Replaces the link of an item to the next one. -/
def setNext (p : P) (slot : Nat) (next : Option P) : Action S Unit := do
  let links ← Action.read (ChainStorage.links · p)
  let links ← Action.check (links.withNext slot next)
  modify (ChainStorage.setLinks · p links)

/-- Replaces the link of an item to the previous one. -/
def setPrev (p : P) (slot : Nat) (prev : Option P) : Action S Unit := do
  let links ← Action.read (ChainStorage.links · p)
  let links ← Action.check (links.withPrev slot prev)
  modify (ChainStorage.setLinks · p links)

/-- Puts an item that has no neighbours directly in front of `peer`. -/
def attach (p : P) (slot : Nat) (peer : P) : Action S Unit := do
  Action.demand (p ≠ peer) .selfAttach
  let linked ← Action.read (hasNeighbours · p slot)
  Action.demand (linked = false) .alreadyLinked
  let before ← Action.read (prev · peer slot)
  setPrev p slot before
  setNext p slot (some peer)
  setPrev peer slot (some p)
  before.forM fun q => setNext q slot (some p)

/-- Takes an item out of its chain and closes the gap. An item without neighbours stays as
it is. -/
def detach (p : P) (slot : Nat) : Action S Unit := do
  let before ← Action.read (prev · p slot)
  let after ← Action.read (next · p slot)
  before.forM fun q => setNext q slot after
  after.forM fun q => setPrev q slot before
  setPrev p slot none
  setNext p slot none

/-- Takes an item out of its chains of all slots. -/
def detachAll (p : P) : Action S Unit :=
  (List.range slots).forM (detach p)

/-- Makes an item the first member of a list. Answers the new head. -/
def pushFront (p : P) (slot : Nat) (head : Packed P) : Action S (Packed P) := do
  head.unpack.forM (attach p slot)
  Action.check (Packed.pack p)

/-- The head that a list has without an item. -/
def headWithout (s : S) (p : P) (slot : Nat) (head : Packed P) : Except Fault (Packed P) :=
  if head.unpack = some p then do Packed.ofOption (← next s p slot) else .ok head

/-- Takes an item out of a list. Answers the new head, which differs from the old one only
if the item was the first member. -/
def unlink (p : P) (slot : Nat) (head : Packed P) : Action S (Packed P) := do
  let head ← Action.read (headWithout · p slot head)
  detach p slot
  return head

end Chain

end SlabGraph
