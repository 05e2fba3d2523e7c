import SlabGraph.Chain.Storage

/-!
# Chunks

A chunk is a fixed row of entries. An entry is either free or holds a value. The free
entries form the *free chain* of the chunk: `Chunk.freeEntry` is the position of its first
entry, every free entry holds the position of the next one, and `noPos` ends it. The chain
is in the order of deallocation, last one first, and not in the order of positions.

The chunks of a pool that have a free entry are themselves members of a list, through the
one pair of links in each chunk.

## Main definitions

* `Capacity`, the number of entries of a chunk;
* `Chunk.empty`, `Chunk.hasSpace`;
* `Chunk.take`, which fills the first free entry, and `Chunk.release`, which empties one.
-/

namespace SlabGraph

/-- A possible number of entries of a chunk. -/
structure Capacity where
  /-- The number of entries. -/
  entries : Nat
  /-- A chunk has an entry. -/
  pos : 0 < entries
  /-- The positions of a chunk fit in one byte and leave `noPos` free. -/
  le_max : entries ≤ maxChunkEntries
deriving DecidableEq

namespace Capacity

/-- The number of entries of the largest chunk. -/
def greatest : Capacity := ⟨maxChunkEntries, by decide, by decide⟩

instance : Inhabited Capacity := ⟨greatest⟩

/-- The capacity of so many entries, if there is one. -/
def ofNat (entries : Nat) : Except Fault Capacity :=
  if h : 0 < entries ∧ entries ≤ maxChunkEntries then
    .ok ⟨entries, h.1, h.2⟩
  else
    .error .capacityOutOfRange

end Capacity

/-- An entry of a chunk. -/
inductive Entry (α : Type) where
  /-- A free entry, with the position of the next one of the free chain. -/
  | free (next : Nat)
  /-- An entry that holds a value. -/
  | busy (value : α)
deriving DecidableEq, Inhabited, Repr

/-- The value of an entry. -/
def Entry.value? {α : Type} : Entry α → Option α
  | free _ => none
  | busy a => some a

/-- The position of a chunk in its pool. The greatest 32-bit word is reserved. -/
abbrev ChunkIndex := Index (UInt32.size - 1)

/-- A row of entries. -/
structure Chunk (α : Type) where
  /-- The entries. -/
  entries : Array (Entry α)
  /-- The position of the first free entry, or `noPos`. -/
  freeEntry : Nat
  /-- The number of entries that hold a value. -/
  busy : Nat
  /-- The links of the list of chunks with free entries. -/
  links : Links ChunkIndex 1
deriving DecidableEq, Repr

instance {α : Type} : Linked (Chunk α) ChunkIndex 1 where
  links := Chunk.links
  withLinks chunk links := { chunk with links }

namespace Chunk

variable {α : Type}

/-- A chunk of free entries, whose free chain follows the positions. -/
def empty (capacity : Capacity) : Chunk α where
  entries := .ofFn fun i : Fin capacity.entries =>
    .free (if i.val + 1 < capacity.entries then i.val + 1 else noPos)
  freeEntry := 0
  busy := 0
  links := .unlinked

/-- Whether a chunk has a free entry. -/
def hasSpace (chunk : Chunk α) : Bool := chunk.freeEntry != noPos

/-- The value at a position. -/
def get? (chunk : Chunk α) (pos : Nat) : Option α :=
  chunk.entries[pos]?.bind Entry.value?

/-- Stores a value in the first free entry. -/
def take (chunk : Chunk α) (value : α) : Except Fault (Chunk α) :=
  match chunk.entries[chunk.freeEntry]? with
  | some (.free next) =>
    if chunk.busy < maxChunkEntries then
      .ok { chunk with
        entries := chunk.entries.setIfInBounds chunk.freeEntry (.busy value)
        freeEntry := next
        busy := chunk.busy + 1 }
    else .error .overflow
  | some (.busy _) => .error .entryTaken
  | none => .error (.outOfBounds chunk.entries.size chunk.freeEntry)

/-- Empties the entry at a position and puts it in front of the free chain. Answers the
value it held, or nothing if the position holds none. -/
def release (chunk : Chunk α) (pos : Nat) : Except Fault (Option (α × Chunk α)) :=
  match chunk.entries[pos]? with
  | some (.busy value) =>
    if chunk.busy = 0 then .error .chunkCountsNone
    else .ok (some (value, { chunk with
      entries := chunk.entries.setIfInBounds pos (.free chunk.freeEntry)
      freeEntry := pos
      busy := chunk.busy - 1 }))
  | some (.free _) => .ok none
  | none => .ok none

/-- Replaces the value at a position that holds one. -/
def replace (chunk : Chunk α) (pos : Nat) (value : α) : Chunk α :=
  { chunk with entries := chunk.entries.modify pos fun
      | .busy _ => .busy value
      | .free next => .free next }

end Chunk

end SlabGraph
