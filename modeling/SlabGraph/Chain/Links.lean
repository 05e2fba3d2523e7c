import SlabGraph.Packed

/-!
# Links

An item can be a member of several lists at once. It embeds one pair of links for each
list *slot*: the item before it and the item after it in that slot. The lists own nothing
and allocate nothing, since the links are pointers to other items.

An item whose links of a slot are both empty is either in no list of the slot, or the only
member of one. Only the owner of the list's head knows which.

## Main definitions

* `Links`, the embedded links of an item, and `Links.unlinked`;
* `Links.nextAt`, `Links.prevAt`, which fail on a slot past the end;
* `Linked`, records that embed links;
* `Index`, pointers that are positions of an array.
-/

namespace SlabGraph

/-- The embedded links of an item, one pair per slot. -/
structure Links (P : Type) (slots : Nat) where
  /-- The item before this one, per slot. -/
  prev : Vector (Packed P) slots
  /-- The item after this one, per slot. -/
  next : Vector (Packed P) slots
deriving DecidableEq, Repr

/-- A slot, if there is one of that number. -/
def slotAt (slots slot : Nat) : Except Fault (Fin slots) :=
  if h : slot < slots then .ok ⟨slot, h⟩ else .error (.outOfBounds slots slot)

namespace Links

variable {P : Type} [Reserved P] [DecidableEq P] {slots : Nat}

/-- The links of an item without neighbours. -/
def unlinked : Links P slots := ⟨.replicate slots .empty, .replicate slots .empty⟩

instance : Inhabited (Links P slots) := ⟨unlinked⟩

/-- The next item in a slot. -/
def nextAt (links : Links P slots) (slot : Nat) : Except Fault (Option P) := do
  let i ← slotAt slots slot
  return links.next[i].unpack

/-- The previous item in a slot. -/
def prevAt (links : Links P slots) (slot : Nat) : Except Fault (Option P) := do
  let i ← slotAt slots slot
  return links.prev[i].unpack

/-- Replaces the next item in a slot. -/
def withNext (links : Links P slots) (slot : Nat) (next : Option P) :
    Except Fault (Links P slots) := do
  let packed ← Packed.ofOption next
  let i ← slotAt slots slot
  return { links with next := links.next.set i packed }

/-- Replaces the previous item in a slot. -/
def withPrev (links : Links P slots) (slot : Nat) (prev : Option P) :
    Except Fault (Links P slots) := do
  let packed ← Packed.ofOption prev
  let i ← slotAt slots slot
  return { links with prev := links.prev.set i packed }

end Links

/-- A record that embeds links. -/
class Linked (R : Type) (P : outParam Type) (slots : outParam Nat) where
  /-- The embedded links. -/
  links : R → Links P slots
  /-- The record with other links. -/
  withLinks : R → Links P slots → R

/-- Links alone are the plainest record that embeds links. -/
instance {P : Type} {slots : Nat} : Linked (Links P slots) P slots where
  links := id
  withLinks _ links := links

/-- A position of an array, as a pointer that reserves `top`. -/
structure Index (top : Nat) where
  /-- The position. -/
  val : Nat
deriving DecidableEq, Inhabited, Repr

instance {top : Nat} : Reserved (Index top) := ⟨⟨top⟩⟩

end SlabGraph
