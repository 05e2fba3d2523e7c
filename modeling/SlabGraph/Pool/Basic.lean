import SlabGraph.Pool.Chunk

/-!
# Slab Pools

A slab pool stores values in chunks of equal size and names each stored value by a `Ptr`.
It keeps a list of the chunks that have a free entry. Allocation takes the first free
entry of the first chunk on that list, and only when the list is empty does the pool grow
by a chunk. Deallocation puts the entry in front of the free chain of its chunk, and a
chunk that was full in front of the list. So both take constant time, and the places that
were given back last are used first.

An emptied chunk is kept. A pool shrinks only when it is cleared.

Pointers are not generational: a place that was given back is handed out again, and a
pointer kept from before then addresses the new value.

## Main definitions

* `Pool`, `Pool.new`, `Pool.get?`;
* `Pool.allocWith`, `Pool.alloc`, `Pool.construct`;
* `Pool.tryDealloc`, `Pool.dealloc`, `Pool.destroy`;
* `Pool.read`, `Pool.update`, access to a live value.
-/

namespace SlabGraph

/-- A store of values in chunks. -/
structure Pool (α : Type) where
  /-- The number of entries per chunk. -/
  capacity : Capacity
  /-- The chunks. -/
  chunks : Array (Chunk α)
  /-- The head of the list of chunks with free entries. -/
  freeChunk : Packed ChunkIndex
  /-- The number of live entries. -/
  live : Nat
deriving DecidableEq

namespace Pool

variable {α : Type}

/-- A pool without chunks. -/
def new (capacity : Capacity) : Pool α where
  capacity
  chunks := #[]
  freeChunk := .empty
  live := 0

instance : Inhabited (Pool α) := ⟨new .greatest⟩

/-! ### Access -/

/-- The value that a pointer addresses. The reserved pointer addresses none. -/
def get? (pool : Pool α) (ptr : Ptr) : Option α :=
  if ptr = .reserved then none
  else pool.chunks[ptr.chunk]?.bind (·.get? ptr.pos)

/-- The value that a pointer addresses, which must be live. -/
def read (pool : Pool α) (ptr : Ptr) : Except Fault α :=
  match pool.get? ptr with
  | some value => .ok value
  | none => .error .invalidPtr

/-- Replaces the value that a pointer addresses. Without a live value there, the pool stays
as it is. -/
def replace (pool : Pool α) (ptr : Ptr) (value : α) : Pool α :=
  if ptr = .reserved then pool
  else { pool with chunks := pool.chunks.modify ptr.chunk (·.replace ptr.pos value) }

/-- Changes the value that a pointer addresses, if there is one. Answers the old value. -/
def update? (ptr : Ptr) (f : α → α) : Action (Pool α) (Option α) := do
  match (← get).get? ptr with
  | none => return none
  | some value =>
    modify (·.replace ptr (f value))
    return some value

/-- Changes the value that a pointer addresses, which must be live. Answers the old value. -/
def update (ptr : Ptr) (f : α → α) : Action (Pool α) α := do
  match ← update? ptr f with
  | some value => return value
  | none => throw .invalidPtr

/-- A record in a pool is reached through its pointer, which must be live. -/
instance {R : Type} {slots : Nat} [Linked R Ptr slots] : ChainStorage (Pool R) Ptr slots where
  links pool ptr := Linked.links <$> pool.read ptr
  setLinks pool ptr links :=
    match pool.get? ptr with
    | some r => pool.replace ptr (Linked.withLinks r links)
    | none => pool
  size := Pool.live

/-! ### The list of chunks with space -/

/-- Runs an action on the chunks. -/
def onChunks {β : Type} (x : Action (Array (Chunk α)) β) : Action (Pool α) β :=
  Action.within Pool.chunks (fun pool chunks => { pool with chunks }) x

/-- Puts a chunk in front of the list of chunks with space. -/
def listChunk (chunk : ChunkIndex) : Action (Pool α) Unit := do
  let head ← onChunks (Chain.pushFront chunk 0 (← get).freeChunk)
  modify fun pool => { pool with freeChunk := head }

/-- Takes a chunk off the list of chunks with space. -/
def unlistChunk (chunk : ChunkIndex) : Action (Pool α) Unit := do
  let head ← onChunks (Chain.unlink chunk 0 (← get).freeChunk)
  modify fun pool => { pool with freeChunk := head }

/-- The chunk at an index. -/
def chunkAt (pool : Pool α) (chunk : ChunkIndex) : Except Fault (Chunk α) :=
  match pool.chunks[chunk.val]? with
  | some c => .ok c
  | none => .error (.outOfBounds pool.chunks.size chunk.val)

/-- Adds an empty chunk and lists it. -/
def grow : Action (Pool α) ChunkIndex := do
  let chunk : ChunkIndex := ⟨(← get).chunks.size⟩
  Action.demand (chunk.val < maxChunks) .tooManyChunks
  modify fun pool => { pool with chunks := pool.chunks.push (.empty pool.capacity) }
  listChunk chunk
  return chunk

/-- The chunk to store the next value in: the first one with space, or a new one. -/
def openChunk : Action (Pool α) ChunkIndex := do
  match (← get).freeChunk.unpack with
  | some chunk => return chunk
  | none => grow

/-! ### Allocation -/

/-- The pointer to a position of a chunk. -/
def ptrAt (chunk : ChunkIndex) (pos : Nat) : Except Fault Ptr :=
  if maxChunks ≤ chunk.val then .error (.chunkDoesNotFit chunk.val)
  else if pos = noPos then .error .noPosition
  else .ok ⟨chunk.val, pos⟩

/-- Stores a value in the first free entry of a listed chunk, and takes the chunk off the
list if that was its last free entry. -/
def fillEntry (index : ChunkIndex) (chunk : Chunk α) (value : α) : Action (Pool α) Unit := do
  let chunk ← Action.check (chunk.take value)
  modify fun pool => { pool with
    chunks := pool.chunks.setIfInBounds index.val chunk
    live := pool.live + 1 }
  if chunk.hasSpace then return else unlistChunk index

/-- Stores the value that `make` builds from the pointer it will have. The value is built
before an entry is taken, so when `make` fails the pool has at most grown. -/
def allocWith (make : Ptr → Except Fault α) : Action (Pool α) Ptr := do
  let index ← openChunk
  let chunk ← Action.read (·.chunkAt index)
  Action.demand (chunk.freeEntry ≠ noPos) .listedChunkFull
  let ptr ← Action.check (ptrAt index chunk.freeEntry)
  let value ← Action.check (make ptr)
  fillEntry index chunk value
  return ptr

/-- Stores a value. -/
def alloc (value : α) : Action (Pool α) Ptr := allocWith fun _ => .ok value

/-- Stores a value that knows its own pointer. -/
def construct (make : Ptr → α) : Action (Pool α) Ptr := allocWith fun ptr => .ok (make ptr)

/-! ### Deallocation -/

/-- Stores a chunk from which a value was taken, and lists the chunk if it had no space
before. -/
def freeEntry (index : ChunkIndex) (before after : Chunk α) : Action (Pool α) Unit := do
  Action.demand ((← get).live ≠ 0) .underflow
  modify fun pool => { pool with
    chunks := pool.chunks.setIfInBounds index.val after
    live := pool.live - 1 }
  if before.hasSpace then return else listChunk index

/-- Takes out the value that a pointer addresses, if there is one. -/
def tryDealloc (ptr : Ptr) : Action (Pool α) (Option α) := do
  match (← get).chunks[ptr.chunk]? with
  | none => return none
  | some chunk =>
    match ← Action.check (chunk.release ptr.pos) with
    | none => return none
    | some (value, after) =>
      freeEntry ⟨ptr.chunk⟩ chunk after
      return some value

/-- Takes out the value that a pointer addresses, which must be live. -/
def dealloc (ptr : Ptr) : Action (Pool α) α := do
  Action.demand ((← get).live ≠ 0) (.emptyPool ptr)
  match ← tryDealloc ptr with
  | some value => return value
  | none => throw (.notAllocated ptr)

/-- Takes out the value that a pointer addresses and finalises it. Answers the finalised
values. -/
def destroy (ptr : Ptr) : Action (Pool α) (List α) := do
  return [← dealloc ptr]

end Pool

end SlabGraph
