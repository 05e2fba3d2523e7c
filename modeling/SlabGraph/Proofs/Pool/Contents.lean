import SlabGraph.Proofs.Pool.Sound

/-!
# Visiting a Pool

A pool lists its live values by chunk and position. This module says what that list holds and
in which order, and that a visit which may change every value (`Pool.mapAccum`) goes through
exactly this list.

`changeValues` is the visit of a plain list, so `Pool.mapAccum_eq` reduces all that a visit of
a pool does to a recursion over one list.

## Main results

* `Pool.pairwise_toList`: the pointers come in strictly increasing order;
* `Pool.Stocked.mem_toList`: the list holds what pointers address;
* `Pool.mapAccum_eq`: a visit that changes values.
-/

namespace SlabGraph

namespace Pool

variable {α σ : Type}

/-! ### The list of the live values -/

/-- The values of a row of entries, with their pointers into a chunk, from a position on. -/
def entryList (chunk pos : Nat) (entries : List (Entry α)) : List (Ptr × α) :=
  (entries.zipIdx pos).filterMap fun (entry, j) =>
    entry.value?.map fun value => (⟨chunk, j⟩, value)

/-- The values of a row of chunks, with their pointers, from a chunk on. -/
def chunkList (chunk : Nat) (chunks : List (Chunk α)) : List (Ptr × α) :=
  (chunks.zipIdx chunk).flatMap fun (c, i) => entryList i 0 c.entries.toList

/-- The live values of a pool are those of its chunks from the first one on. -/
theorem toList_eq (pool : Pool α) : pool.toList = chunkList 0 pool.chunks.toList := rfl

@[simp] theorem entryList_nil (chunk pos : Nat) :
    entryList chunk pos ([] : List (Entry α)) = [] := rfl

@[simp] theorem entryList_free (chunk pos next : Nat) (es : List (Entry α)) :
    entryList chunk pos (.free next :: es) = entryList chunk (pos + 1) es := rfl

@[simp] theorem entryList_busy (chunk pos : Nat) (v : α) (es : List (Entry α)) :
    entryList chunk pos (.busy v :: es) = (⟨chunk, pos⟩, v) :: entryList chunk (pos + 1) es := rfl

@[simp] theorem chunkList_nil (chunk : Nat) : chunkList chunk ([] : List (Chunk α)) = [] := rfl

@[simp] theorem chunkList_cons (chunk : Nat) (c : Chunk α) (cs : List (Chunk α)) :
    chunkList chunk (c :: cs) =
      entryList chunk 0 c.entries.toList ++ chunkList (chunk + 1) cs := rfl

/-- A value is listed for a row of entries exactly at the pointers into the chunk whose entry holds
it. -/
theorem mem_entryList {chunk pos : Nat} {es : List (Entry α)} {ptr : Ptr} {v : α} :
    (ptr, v) ∈ entryList chunk pos es ↔
      ptr.chunk = chunk ∧ pos ≤ ptr.pos ∧ es[ptr.pos - pos]? = some (.busy v) := by
  simp only [entryList, List.mem_filterMap, Prod.exists, List.mk_mem_zipIdx_iff_le_and_getElem?_sub,
    Option.map_eq_some_iff, Prod.mk.injEq]
  constructor
  · rintro ⟨e, j, ⟨hj, he⟩, w, hw, rfl, rfl⟩
    cases e with
    | free next => cases hw
    | busy u =>
        obtain rfl := Option.some.inj hw
        exact ⟨rfl, hj, he⟩
  · rintro ⟨rfl, hle, he⟩
    exact ⟨.busy v, ptr.pos, ⟨hle, he⟩, v, rfl, rfl, rfl⟩

/-- A value is listed for a row of chunks exactly at the pointers at which one of them holds it. -/
theorem mem_chunkList {chunk : Nat} {cs : List (Chunk α)} {ptr : Ptr} {v : α} :
    (ptr, v) ∈ chunkList chunk cs ↔
      chunk ≤ ptr.chunk ∧ ∃ c, cs[ptr.chunk - chunk]? = some c ∧ c.get? ptr.pos = some v := by
  simp only [chunkList, List.mem_flatMap, Prod.exists, List.mk_mem_zipIdx_iff_le_and_getElem?_sub,
    mem_entryList, Chunk.get?_eq_some_iff]
  constructor
  · rintro ⟨c, i, ⟨hi, hc⟩, rfl, -, he⟩
    exact ⟨hi, c, hc, by simpa using he⟩
  · rintro ⟨hle, c, hc, he⟩
    exact ⟨c, ptr.chunk, ⟨hle, hc⟩, rfl, Nat.zero_le _, by simpa using he⟩

/-- The list holds exactly what pointers address. -/
theorem Stocked.mem_toList {pool : Pool α} (h : Stocked pool) {ptr : Ptr} {v : α} :
    (ptr, v) ∈ pool.toList ↔ pool.get? ptr = some v := by
  rw [toList_eq, mem_chunkList, h.get?_eq_some_iff]
  simp

/-! ### The order of the list -/

/-- Pointers are ordered by chunk, and inside a chunk by position. -/
theorem compare_ptr_eq_lt {p q : Ptr} :
    compare p q = .lt ↔ p.chunk < q.chunk ∨ p.chunk = q.chunk ∧ p.pos < q.pos := by
  change (compare p.chunk q.chunk).then (compare p.pos q.pos) = .lt ↔ _
  rw [Ordering.then_eq_lt, Nat.compare_eq_lt, Nat.compare_eq_lt, Nat.compare_eq_eq]

/-- The values of a row of entries are listed in the order of their pointers. -/
theorem pairwise_entryList (chunk pos : Nat) (es : List (Entry α)) :
    (entryList chunk pos es).Pairwise fun a b => compare a.1 b.1 = .lt := by
  induction es generalizing pos with
  | nil => exact .nil
  | cons e es ih =>
      cases e with
      | free next => exact ih (pos + 1)
      | busy v =>
          rw [entryList_busy, List.pairwise_cons]
          refine ⟨?_, ih (pos + 1)⟩
          rintro ⟨q, w⟩ hq
          obtain ⟨hchunk, hpos, -⟩ := mem_entryList.1 hq
          exact compare_ptr_eq_lt.2 (.inr ⟨hchunk.symm, hpos⟩)

/-- The values of a row of chunks are listed in the order of their pointers. -/
theorem pairwise_chunkList (chunk : Nat) (cs : List (Chunk α)) :
    (chunkList chunk cs).Pairwise fun a b => compare a.1 b.1 = .lt := by
  induction cs generalizing chunk with
  | nil => exact .nil
  | cons c cs ih =>
      rw [chunkList_cons, List.pairwise_append]
      refine ⟨pairwise_entryList chunk 0 _, ih (chunk + 1), ?_⟩
      rintro ⟨p, v⟩ hp ⟨q, w⟩ hq
      obtain ⟨hpchunk, -⟩ := mem_entryList.1 hp
      obtain ⟨hqchunk, -⟩ := mem_chunkList.1 hq
      have hlt : p.chunk < q.chunk := by omega
      exact compare_ptr_eq_lt.2 (.inl hlt)

/-- The pointers of the live values come in strictly increasing order. -/
theorem pairwise_toList (pool : Pool α) :
    pool.toList.Pairwise fun a b => compare a.1 b.1 = .lt :=
  pairwise_chunkList 0 pool.chunks.toList

/-! ### A visit that changes values -/

/-- Changes the values of a list from left to right, passing a state along. -/
def changeValues (f : σ → α → σ × α) (s : σ) : List (Ptr × α) → σ × List (Ptr × α)
  | [] => (s, [])
  | (ptr, v) :: rest =>
      let after := changeValues f (f s v).1 rest
      (after.1, (ptr, (f s v).2) :: after.2)

/-- The state that is passed along goes from the first part of a list on to the second one. -/
theorem changeValues_append (f : σ → α → σ × α) (s : σ) (l l' : List (Ptr × α)) :
    changeValues f s (l ++ l') =
      ((changeValues f (changeValues f s l).1 l').1,
        (changeValues f s l).2 ++ (changeValues f (changeValues f s l).1 l').2) := by
  induction l generalizing s with
  | nil => rfl
  | cons x l ih =>
      obtain ⟨ptr, v⟩ := x
      simp only [List.cons_append, changeValues, ih]

/-- Changing the entries of a row changes the list of their values from left to right. -/
theorem entryList_mapAccum (f : σ → α → σ × α) (s : σ) (chunk pos : Nat) (es : List (Entry α)) :
    ((mapAccumEntries f s es).1, entryList chunk pos (mapAccumEntries f s es).2) =
      changeValues f s (entryList chunk pos es) := by
  induction es generalizing s pos with
  | nil => rfl
  | cons e es ih =>
      cases e with
      | free next => exact ih s (pos + 1)
      | busy v => simp only [mapAccumEntries, entryList_busy, changeValues, ← ih]

/-- Changing the values of a row of chunks changes the list of them from left to right. -/
theorem chunkList_mapAccum (f : σ → α → σ × α) (s : σ) (chunk : Nat) (cs : List (Chunk α)) :
    ((mapAccumChunks f s cs).1, chunkList chunk (mapAccumChunks f s cs).2) =
      changeValues f s (chunkList chunk cs) := by
  induction cs generalizing s chunk with
  | nil => rfl
  | cons c cs ih =>
      simp only [mapAccumChunks, chunkList_cons, changeValues_append, ← ih, ← entryList_mapAccum]

/-- A visit of a pool is the visit of the list of its live values. -/
theorem mapAccum_eq (f : σ → α → σ × α) (s : σ) (pool : Pool α) :
    ((pool.mapAccum f s).1, (pool.mapAccum f s).2.toList) = changeValues f s pool.toList := by
  simp only [toList_eq, ← chunkList_mapAccum]
  rfl

end Pool

end SlabGraph
