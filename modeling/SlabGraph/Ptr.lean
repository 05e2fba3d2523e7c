/-!
# Slab Pointers

A slab pool keeps its entries in chunks of at most `maxChunkEntries` entries, and a `Ptr`
names one entry by the index of its chunk and its position inside that chunk. Both parts
fit in one 32-bit word, the position in the lowest byte, which is what fixes the two
limits of this module.

Position `noPos` is past the end of even the largest chunk. It ends the free chain of a
chunk, and it makes the greatest word free to stand for "no pointer"
(`Ptr.reserved`).

## Main definitions

* `Ptr`, ordered by chunk and then by position, which is the order of the words;
* `Ptr.text`, the printed form `*chunk:pos`.
-/

namespace SlabGraph

/-- The number of entries of the largest chunk. -/
def maxChunkEntries : Nat := 255

/-- The position that addresses no entry. It equals the size of the largest chunk, so the
last entry of such a chunk points at it without a special case. -/
def noPos : Nat := maxChunkEntries

/-- The number of chunks a pool can hold, since 24 bits of a pointer name the chunk. -/
def maxChunks : Nat := 1 <<< 24

/-- The place of an entry in a slab pool. -/
structure Ptr where
  /-- The index of the chunk that holds the entry. -/
  chunk : Nat
  /-- The position of the entry inside its chunk. -/
  pos : Nat
deriving DecidableEq, Hashable, Inhabited, Repr

namespace Ptr

/-- The pointer whose word is the greatest one. Its position is `noPos`, so it never
addresses an entry. -/
def reserved : Ptr := ⟨maxChunks - 1, noPos⟩

/-- The printed form of a pointer. -/
def text (ptr : Ptr) : String := s!"*{ptr.chunk}:{ptr.pos}"

instance : ToString Ptr := ⟨text⟩

/-- The printed form of a pointer that may be missing. -/
def optionText : Option Ptr → String
  | none => "None"
  | some ptr => s!"Some({ptr})"

/-- Pointers are ordered by chunk, and inside a chunk by position. -/
instance : Ord Ptr := ⟨fun a b => (compare a.chunk b.chunk).then (compare a.pos b.pos)⟩

end Ptr

end SlabGraph
