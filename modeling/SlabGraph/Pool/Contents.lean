import SlabGraph.Pool.Basic

/-!
# Contents of a Pool

The values of a pool are visited in *storage order*: chunk by chunk, and by position inside
a chunk. That is the order of their pointers, and in general not the order in which they
were stored.

A pool that is given up must be empty. `Pool.close` reports an offence, and finalises the
remaining values in any case. Values that are finalised are answered, so that every value
that ever entered a pool can be accounted for.

## Main definitions

* `Pool.toList`, the live values with their pointers;
* `Pool.mapAccum`, which visits and changes the live values;
* `Pool.stats`;
* `Pool.clear`, `Pool.close`.
-/

namespace SlabGraph

namespace Pool

variable {α σ : Type}

/-! ### Visiting -/

/-- The live values with their pointers, in storage order. -/
def toList (pool : Pool α) : List (Ptr × α) :=
  pool.chunks.toList.zipIdx.flatMap fun (chunk, i) =>
    chunk.entries.toList.zipIdx.filterMap fun (entry, j) =>
      entry.value?.map fun value => (⟨i, j⟩, value)

/-- The live values, in storage order. -/
def values (pool : Pool α) : List α := pool.toList.map (·.2)

/-- Changes the values of entries from left to right, passing a state along. -/
def mapAccumEntries (f : σ → α → σ × α) (s : σ) : List (Entry α) → σ × List (Entry α)
  | [] => (s, [])
  | .free next :: rest =>
    let (s, rest) := mapAccumEntries f s rest
    (s, .free next :: rest)
  | .busy value :: rest =>
    let (s, value) := f s value
    let (s, rest) := mapAccumEntries f s rest
    (s, .busy value :: rest)

/-- Changes the values of chunks from left to right, passing a state along. -/
def mapAccumChunks (f : σ → α → σ × α) (s : σ) : List (Chunk α) → σ × List (Chunk α)
  | [] => (s, [])
  | chunk :: rest =>
    let (s, entries) := mapAccumEntries f s chunk.entries.toList
    let (s, rest) := mapAccumChunks f s rest
    (s, { chunk with entries := entries.toArray } :: rest)

/-- Changes the live values in storage order, passing a state along. -/
def mapAccum (f : σ → α → σ × α) (s : σ) (pool : Pool α) : σ × Pool α :=
  let (s, chunks) := mapAccumChunks f s pool.chunks.toList
  (s, { pool with chunks := chunks.toArray })

/-- Changes the live values. -/
def map (f : α → α) (pool : Pool α) : Pool α :=
  (pool.mapAccum (fun _ value => ((), f value)) ()).2

/-! ### Statistics -/

/-- The indices of the chunks with space, in the order in which they are used. -/
def chunksWithSpace (pool : Pool α) : Except Fault (List ChunkIndex) :=
  Chain.walk pool.chunks 0 pool.freeChunk.unpack

/-- The figures of a pool. -/
structure Stats where
  /-- The number of live entries. -/
  live : Nat
  /-- The number of chunks, empty ones included. -/
  chunks : Nat
  /-- The number of chunks with a free entry. -/
  chunksWithSpace : Nat
  /-- The number of entries per chunk. -/
  capacity : Nat
deriving DecidableEq, Repr

/-- The figures of a pool. -/
def stats (pool : Pool α) : Except Fault Stats := do
  return {
    live := pool.live
    chunks := pool.chunks.size
    chunksWithSpace := (← pool.chunksWithSpace).length
    capacity := pool.capacity.entries }

/-! ### The end of a pool -/

/-- Finalises all values and releases all chunks. Answers the finalised values. -/
def clear : Action (Pool α) (List α) := do
  let values := (← get).values
  modify fun pool => { pool with chunks := #[], freeChunk := .empty, live := 0 }
  return values

/-- Gives up a pool. The first component holds the values that are finalised by it. A pool
with live entries is an offence, which is not reported while another fault is already on
its way (`failing`). -/
def close (pool : Pool α) (failing : Bool) : List α × Except Fault Unit :=
  (pool.values, if pool.live ≠ 0 ∧ ¬ failing then .error (.poolInUse pool.live) else .ok ())

end Pool

end SlabGraph
