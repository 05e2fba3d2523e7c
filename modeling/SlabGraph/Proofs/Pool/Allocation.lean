import SlabGraph.Proofs.Pool.Stacks

/-!
# Allocation and Deallocation

What the operations of a pool do under its invariant. Their guards never fail: an allocation
fails only if its value cannot be built or every chunk that pointers can name is full, and a
deallocation fails exactly where nothing is addressed.

Both operations store a changed chunk and then correct the list of chunks with space, which
may be wrong about that one chunk in between. Taken together the two steps are one step on the
stacks of the pool, which say what place is used and what the next ones will be. Most users of a
pool need not know the places, and for them the stacks are left out.

## Main results

* `Pool.Stacked.allocWith_run`, `Pool.Stacked.dealloc_run`: the operations on pools and stacks;
* `Pool.Sound.allocWith_run`, `Pool.Sound.construct_run`: allocation (`Pool.Allocated`);
* `Pool.Sound.tryDealloc_run`, `Pool.Sound.dealloc_run`: deallocation (`Pool.Deallocated`).
-/

namespace SlabGraph

namespace Pool

variable {α : Type} {pool : Pool α}

/-! ### Storing a chunk and correcting the list -/

/-- Storing a chunk with the links of the old one leaves the list of chunks alone. -/
theorem Listed.store {spare : List ChunkIndex} {i : Nat} {c d : Chunk α} (live : Nat)
    (h : Listed pool spare) (hc : pool.chunks[i]? = some c) (hlinks : d.links = c.links) :
    Listed (pool.store i d live) spare := by
  refine h.of_links rfl fun j => ?_
  rw [getElem?_store hc]
  by_cases hj : i = j
  · subst hj
    simp [hc, hlinks]
  · rw [if_neg hj]

/-- What a pool holds after a chunk was replaced by one that differs in one entry. -/
theorem get?_store_entry {i pos : Nat} {c d : Chunk α} {o : Option α} (live : Nat)
    (hc : pool.chunks[i]? = some c) (hget : ∀ q, d.get? q = if q = pos then o else c.get? q)
    {q : Ptr} (hq : q ≠ .reserved) :
    (pool.store i d live).get? q = if q = ⟨i, pos⟩ then o else pool.get? q := by
  rw [get?_store hc _ _ hq, hget]
  by_cases hchunk : q.chunk = i
  · have hold : pool.get? q = c.get? q.pos := by simp [get?, hq, hchunk, hc]
    have hiff : q.pos = pos ↔ q = ⟨i, pos⟩ := by
      constructor
      · rintro rfl
        rw [← hchunk]
      · rintro rfl
        rfl
    simp only [if_pos hchunk, hiff, hold]
  · have hne : q ≠ ⟨i, pos⟩ := fun heq => hchunk (by rw [heq])
    rw [if_neg hchunk, if_neg hne]

/-- A chunk counts no more live entries than its pool. -/
theorem Stocked.busy_le_live (h : Stocked pool) {i : Nat} {c : Chunk α}
    (hc : pool.chunks[i]? = some c) : c.busy ≤ pool.live := by
  have hsum := sum_busy_set { c with busy := 0 } (l := pool.chunks.toList) (by simpa using hc)
  have := h.live
  simp only at hsum
  omega

namespace Stacked

variable {s : Stacks}

/-- The value is stored at the place on top. A full chunk is taken off the list after its last free
entry was filled. -/
theorem fillEntry_run {i pos : Nat} {c : Chunk α} (h : Stacked pool s)
    (htop : s.top? = some ⟨i, pos⟩) (hc : pool.chunks[i]? = some c) (v : α) :
    ∃ pool', fillEntry ⟨i⟩ c v pool = .ok () pool' ∧ Stacked pool' s.pop ∧
      pool'.capacity = pool.capacity ∧ pool'.live = pool.live + 1 ∧
      ∀ q, q ≠ .reserved → pool'.get? q = if q = ⟨i, pos⟩ then some v else pool.get? q := by
  obtain ⟨spare, rest, hspare, hstack, hpop⟩ := Stacks.exists_of_top? htop
  have hsound := hstack ▸ h.filled.chunk i c hc
  obtain ⟨d, htake, hd, hlinks, hbusy, hget⟩ := hsound.take_run v
  have hconsistent := h.consistent.pop
  have hlist := h.listed.store (d := d) (pool.live + 1) hc hlinks
  have hfilled : Filled (pool.store i d (pool.live + 1)) s.pop := by
    rw [hpop]
    exact h.filled.store hc hd (by omega)
  by_cases hrest : rest = []
  · have hspace : ¬ d.hasSpace = true := fun hspace => hd.hasSpace_iff.1 hspace hrest
    have hmem : (⟨i⟩ : ChunkIndex) ∈ s.spare.map .mk := by simp [hspare]
    obtain ⟨pool', hrun, hlist', hrows⟩ := hlist.unlistChunk_run hmem
    refine ⟨pool', ?_, ⟨hfilled.of_rows hrows, ?_, hconsistent⟩, hrows.capacity, hrows.live,
      fun q hq => ?_⟩
    · simp only [store] at hrun
      simp [fillEntry, htake, hspace, hrun]
    · simpa [hpop, hspare, hrest] using hlist'
    · rw [hrows.get?, get?_store_entry _ hc hget hq]
  · have hspace : d.hasSpace = true := hd.hasSpace_iff.2 hrest
    refine ⟨pool.store i d (pool.live + 1), ?_, ⟨hfilled, ?_, hconsistent⟩, rfl, rfl,
      fun q hq => get?_store_entry _ hc hget hq⟩
    · simp [fillEntry, htake, hspace, store]
    · simpa [hpop, hspare, hrest] using hlist

/-- The place of a value is given back. A chunk that had no space before is listed. -/
theorem freeEntry_run {i pos : Nat} {c d : Chunk α} {v : α} (h : Stacked pool s)
    (hc : pool.chunks[i]? = some c) (hv : c.get? pos = some v)
    (hrelease : c.release pos = .ok (some (v, d))) :
    ∃ pool', freeEntry ⟨i⟩ c d pool = .ok () pool' ∧ Stacked pool' (s.push ⟨i, pos⟩) ∧
      pool'.capacity = pool.capacity ∧ pool'.live + 1 = pool.live ∧
      ∀ q, q ≠ .reserved → pool'.get? q = if q = ⟨i, pos⟩ then none else pool.get? q := by
  have hsound := h.filled.chunk i c hc
  obtain ⟨d', hd', hd, hlinks, hbusy, hget⟩ := hsound.release_run hv
  obtain rfl : d = d' := by simpa using hrelease.symm.trans hd'
  have hle := h.filled.stocked.busy_le_live hc
  have hlive : pool.live ≠ 0 := by omega
  have hlt : i < s.free.length := h.filled.length ▸ lt_of_chunk hc
  have hconsistent : (s.push ⟨i, pos⟩).Consistent := h.consistent.push hlt
  have hlist := h.listed.store (d := d) (pool.live - 1) hc hlinks
  have hfilled : Filled (pool.store i d (pool.live - 1)) (s.push ⟨i, pos⟩) :=
    h.filled.store hc hd (by omega)
  -- only a chunk that was full is off the list and has to be listed
  by_cases hstack : s.stack i = []
  · have hbefore : ¬ c.hasSpace = true := fun hspace => hsound.hasSpace_iff.1 hspace hstack
    have hnot : (⟨i⟩ : ChunkIndex) ∉ s.spare.map .mk := by
      rw [List.mem_map]
      rintro ⟨j, hj, heq⟩
      obtain rfl : j = i := congrArg Index.val heq
      exact (h.consistent.mem_iff j).1 hj hstack
    have hthere : (Chain.linkMap (pool.store i d (pool.live - 1)).chunks 0 ⟨i⟩).isSome = true :=
      isSome_linkMap_chunks (by simpa [store] using lt_of_chunk hc) hfilled.size
    obtain ⟨pool', hrun, hlist', hrows⟩ := hlist.listChunk_run hnot hthere
    refine ⟨pool', ?_, ⟨hfilled.of_rows hrows, ?_, hconsistent⟩, hrows.capacity, ?_,
      fun q hq => ?_⟩
    · simp only [store] at hrun
      simp [freeEntry, hlive, hbefore, hrun]
    · simpa [Stacks.push, hstack] using hlist'
    · rw [hrows.live]
      simp only [store]
      omega
    · rw [hrows.get?, get?_store_entry _ hc hget hq]
  · have hbefore : c.hasSpace = true := hsound.hasSpace_iff.2 hstack
    refine ⟨pool.store i d (pool.live - 1), ?_, ⟨hfilled, ?_, hconsistent⟩, rfl, ?_,
      fun q hq => get?_store_entry _ hc hget hq⟩
    · simp [freeEntry, hlive, hbefore, store]
    · simpa [Stacks.push, hstack] using hlist
    · simp only [store]
      omega

end Stacked

/-! ### The chunk to store the next value in -/

/-- An empty chunk that is added has all its positions on its stack, the lowest one on top. -/
theorem Filled.push {s : Stacks} {spare : List Nat} (h : Filled pool s)
    (hroom : pool.chunks.size < maxChunks) :
    Filled { pool with chunks := pool.chunks.push (.empty pool.capacity) }
      ⟨s.free ++ [List.range pool.capacity.entries], spare⟩ where
  length := by simp [h.length]
  chunk j c hc := by
    change (pool.chunks.push (.empty pool.capacity))[j]? = some c at hc
    rw [Array.getElem?_push] at hc
    rw [Stacks.stack_append, h.length]
    by_cases hj : j = pool.chunks.size
    · rw [if_pos hj] at hc ⊢
      obtain rfl := Option.some.inj hc
      exact Chunk.sound_empty pool.capacity
    · rw [if_neg hj] at hc ⊢
      exact h.chunk j c hc
  live := by simp [h.live, Chunk.empty]
  size := by
    simp only [Array.size_push]
    omega

/-- An added chunk is not listed. -/
theorem Listed.push {spare : List ChunkIndex} (h : Listed pool spare)
    (hsize : pool.chunks.size ∉ spare.map Index.val) :
    Listed { pool with chunks := pool.chunks.push (.empty pool.capacity) } spare := by
  have hsame : ∀ j : ChunkIndex, j.val ≠ pool.chunks.size →
      Chain.linkMap (pool.chunks.push (.empty pool.capacity)) 0 j =
        Chain.linkMap pool.chunks 0 j :=
    fun j hj => linkMap_chunks_congr (by rw [Array.getElem?_push, if_neg hj])
  refine ⟨h.list.of_eq_on fun j hj => ?_, h.head, fun j hj hsome => ?_⟩
  · exact hsame j fun heq => hsize (heq ▸ List.mem_map_of_mem hj)
  · by_cases hj' : j.val = pool.chunks.size
    · obtain ⟨pair, hpair⟩ := Option.isSome_iff_exists.1 hsome
      obtain ⟨l, hl, rfl⟩ := Chain.linkMap_eq_some_iff.1 hpair
      obtain ⟨-, c, hc, rfl⟩ := links_array_eq_ok_iff.1 hl
      rw [Array.getElem?_push, if_pos hj'] at hc
      obtain rfl := Option.some.inj hc
      rw [hpair]
      exact congrArg some (Links.pair_unlinked 0)
    · change (Chain.linkMap (pool.chunks.push (.empty pool.capacity)) 0 j).isSome = true at hsome
      change Chain.linkMap (pool.chunks.push (.empty pool.capacity)) 0 j = some (none, none)
      rw [hsame j hj'] at hsome ⊢
      exact h.unlisted j hj hsome

namespace Stacked

variable {s : Stacks}

/-- Opening a chunk answers the first one of the list, and grows the pool if there is none. It is
refused if there are as many chunks as pointers can name, and all are full. -/
theorem openChunk_run (h : Stacked pool s) :
    (∃ ptr pool', (s.grown pool.capacity.entries).top? = some ptr ∧
      openChunk pool = .ok ⟨ptr.chunk⟩ pool' ∧ Stacked pool' (s.grown pool.capacity.entries) ∧
      pool'.capacity = pool.capacity ∧ pool'.live = pool.live ∧ ∀ q, pool'.get? q = pool.get? q) ∨
    ((s.grown pool.capacity.entries).top? = none ∧ s.grown pool.capacity.entries = s ∧
      openChunk pool = .error .tooManyChunks pool ∧
      pool.live = maxChunks * pool.capacity.entries) := by
  cases hspare : s.spare with
  | cons i spare =>
      obtain ⟨pos, rest, -, htop⟩ := h.consistent.exists_top hspare
      have hhead : pool.freeChunk.unpack = some ⟨i⟩ := by rw [h.listed.head, hspare]; rfl
      rw [Stacks.grown_of_spare (by simp [hspare])]
      exact .inl ⟨_, pool, htop, by simp [openChunk, hhead], h, rfl, rfl, fun _ => rfl⟩
  | nil =>
      have hhead : pool.freeChunk.unpack = none := by rw [h.listed.head, hspare]; rfl
      -- all chunks are full: a new one is listed alone, or there is no room for it
      by_cases hroom : pool.chunks.size < maxChunks
      · have hgrown : s.grown pool.capacity.entries = _ :=
          Stacks.grown_of_room hspare (h.filled.length ▸ hroom)
        have hconsistent := h.consistent.grown pool.capacity.pos
        have hspare' : (s.grown pool.capacity.entries).spare = [pool.chunks.size] := by
          rw [hgrown, h.filled.length]
        obtain ⟨pos, rest, -, htop⟩ := hconsistent.exists_top hspare'
        have hlist := h.listed.push (by simp [hspare])
        have hthere : (Chain.linkMap (pool.chunks.push (.empty pool.capacity)) 0
            ⟨pool.chunks.size⟩).isSome = true :=
          isSome_linkMap_chunks (by simp) (h.filled.push hroom : Filled _ ⟨_, []⟩).size
        rw [hspare] at hlist
        obtain ⟨pool', hrun, hlist', hrows⟩ := hlist.listChunk_run List.not_mem_nil hthere
        refine .inl ⟨_, pool', htop, by simp [openChunk, hhead, grow, hroom, hrun],
          ⟨?_, ?_, hconsistent⟩, hrows.capacity, hrows.live, fun q => ?_⟩
        · rw [hgrown]
          exact (h.filled.push hroom).of_rows hrows
        · rw [hgrown, h.filled.length]
          exact hlist'
        · rw [hrows.get?, Pool.get?, Pool.get?, Array.getElem?_push]
          by_cases hq : q.chunk = pool.chunks.size
          · simp [hq, Chunk.get?_empty]
          · rw [if_neg hq]
      · have hgrown : s.grown pool.capacity.entries = s :=
          Stacks.grown_of_no_room (by rw [h.filled.length]; exact Nat.not_lt.1 hroom)
        have hsize := Nat.le_antisymm h.filled.size (Nat.not_lt.1 hroom)
        rw [hgrown]
        refine .inr ⟨by rw [Stacks.top?, hspare], rfl, by simp [openChunk, hhead, grow, hroom], ?_⟩
        rw [← hsize]
        exact h.live_eq_of_full hspare

end Stacked

/-! ### The two operations -/

/-- A value was stored at `ptr`, which addressed nothing before. -/
structure Allocated (pool : Pool α) (ptr : Ptr) (v : α) (pool' : Pool α) : Prop where
  sound : Sound pool'
  capacity : pool'.capacity = pool.capacity
  live : pool'.live = pool.live + 1
  ne_reserved : ptr ≠ .reserved
  fresh : pool.get? ptr = none
  get? : ∀ q, pool'.get? q = if q = ptr then some v else pool.get? q

/-- No value was stored at `ptr`, which addresses nothing. The pool may have grown. -/
structure Withheld (pool : Pool α) (ptr : Ptr) (pool' : Pool α) : Prop where
  sound : Sound pool'
  capacity : pool'.capacity = pool.capacity
  live : pool'.live = pool.live
  ne_reserved : ptr ≠ .reserved
  fresh : pool.get? ptr = none
  get? : ∀ q, pool'.get? q = pool.get? q

/-- The value at `ptr` was taken out. -/
structure Deallocated (pool : Pool α) (ptr : Ptr) (pool' : Pool α) : Prop where
  sound : Sound pool'
  capacity : pool'.capacity = pool.capacity
  live : pool'.live + 1 = pool.live
  get? : ∀ q, pool'.get? q = if q = ptr then none else pool.get? q

/-- An allocation opens a chunk and takes the place on top for the value that is built for it. If
the value cannot be built, the place is not taken and what the pool holds stays as it is. Without a
place on top every chunk that pointers can name is full. -/
theorem Stacked.allocWith_run {s : Stacks} (h : Stacked pool s) (make : Ptr → Except Fault α) :
    (∃ ptr v pool', (s.grown pool.capacity.entries).top? = some ptr ∧ make ptr = .ok v ∧
      allocWith make pool = .ok ptr pool' ∧ Allocated pool ptr v pool' ∧
      Stacked pool' (s.grown pool.capacity.entries).pop) ∨
    (∃ ptr e pool', (s.grown pool.capacity.entries).top? = some ptr ∧ make ptr = .error e ∧
      allocWith make pool = .error e pool' ∧ Withheld pool ptr pool' ∧
      Stacked pool' (s.grown pool.capacity.entries)) ∨
    ((s.grown pool.capacity.entries).top? = none ∧ s.grown pool.capacity.entries = s ∧
      allocWith make pool = .error .tooManyChunks pool ∧
      pool.live = maxChunks * pool.capacity.entries) := by
  rcases h.openChunk_run with
    ⟨⟨i, pos⟩, opened, htop, hopen, hs, hcap, hlive, hget⟩ | ⟨htop, hsame, herr, hfull⟩
  · obtain ⟨spare, rest, hspare, hstack, -⟩ := Stacks.exists_of_top? htop
    obtain ⟨c, hc⟩ := hs.filled.exists_chunk (Stacks.lt_of_stack (i := i) (by simp [hstack]))
    have hsound := hstack ▸ hs.filled.chunk i c hc
    have hentry : c.freeEntry = pos := hsound.freeEntry_cons
    have hpos : pos ≠ noPos := hsound.ne_noPos_of_lt (hsound.lt_of_mem List.mem_cons_self)
    have hchunk : ¬ maxChunks ≤ i :=
      Nat.not_le.2 (Nat.lt_of_lt_of_le (lt_of_chunk hc) hs.filled.size)
    have hres : (⟨i, pos⟩ : Ptr) ≠ .reserved := fun heq => hpos (congrArg Ptr.pos heq)
    have hfresh : pool.get? ⟨i, pos⟩ = none := by
      obtain ⟨-, next, hnext, -⟩ := hsound.chain
      rw [← hget]
      simp [get?, hc, Chunk.get?_of_next? hnext]
    cases hmake : make ⟨i, pos⟩ with
    | ok v =>
        obtain ⟨pool', hfill, hs', hcap', hlive', hget'⟩ := hs.fillEntry_run htop hc v
        refine .inl ⟨⟨i, pos⟩, v, pool', htop, hmake, ?_, ⟨hs'.sound, hcap'.trans hcap,
          by rw [hlive', hlive], hres, hfresh, fun q => ?_⟩, hs'⟩
        · simp [allocWith, hopen, chunkAt, hc, hentry, hpos, ptrAt, hchunk, hmake, hfill]
        · by_cases hq : q = .reserved
          · rw [hq, get?_reserved, get?_reserved, if_neg (Ne.symm hres)]
          · rw [hget' q hq, hget]
    | error e =>
        refine .inr (.inl ⟨⟨i, pos⟩, e, opened, htop, hmake, ?_,
          ⟨hs.sound, hcap, hlive, hres, hfresh, hget⟩, hs⟩)
        simp [allocWith, hopen, chunkAt, hc, hentry, hpos, ptrAt, hchunk, hmake]
  · exact .inr (.inr ⟨htop, hsame, by simp [allocWith, herr], hfull⟩)

/-- A live entry is taken out, and its place is given back. -/
theorem Stacked.tryDealloc_run {s : Stacks} (h : Stacked pool s) {ptr : Ptr} {v : α}
    (hv : pool.get? ptr = some v) :
    ∃ pool', tryDealloc ptr pool = .ok (some v) pool' ∧ Deallocated pool ptr pool' ∧
      Stacked pool' (s.push ptr) := by
  obtain ⟨hres, c, hc, hvc⟩ := get?_eq_some_iff.1 hv
  obtain ⟨d, hrelease, -, -, -, -⟩ := (h.filled.chunk ptr.chunk c hc).release_run hvc
  obtain ⟨pool', hfree, hs', hcap, hlive', hget⟩ := h.freeEntry_run hc hvc hrelease
  refine ⟨pool', by simp [tryDealloc, hc, hrelease, hfree],
    ⟨hs'.sound, hcap, hlive', fun q => ?_⟩, hs'⟩
  by_cases hq : q = .reserved
  · rw [hq, get?_reserved, get?_reserved, ite_self]
  · exact hget q hq

/-- A deallocation that finds a value is the same whether or not it is allowed to find none. -/
theorem dealloc_of_tryDealloc {ptr : Ptr} {v : α} {pool' : Pool α}
    (hrun : tryDealloc ptr pool = .ok (some v) pool') (hpool : Deallocated pool ptr pool') :
    dealloc ptr pool = .ok v pool' := by
  have hlive : pool.live ≠ 0 := by
    have := hpool.live
    omega
  simp [dealloc, hlive, hrun]

/-- A live entry is deallocated. -/
theorem Stacked.dealloc_run {s : Stacks} (h : Stacked pool s) {ptr : Ptr} {v : α}
    (hv : pool.get? ptr = some v) :
    ∃ pool', dealloc ptr pool = .ok v pool' ∧ Deallocated pool ptr pool' ∧
      Stacked pool' (s.push ptr) := by
  obtain ⟨pool', hrun, hpool, hs'⟩ := h.tryDealloc_run hv
  exact ⟨pool', dealloc_of_tryDealloc hrun hpool, hpool, hs'⟩

namespace Sound

/-- An allocation stores the value that is built for a pointer that addressed nothing. If the
value cannot be built, what the pool holds stays as it is. Otherwise every chunk that pointers
can name is full. -/
theorem allocWith_run (h : Sound pool) (make : Ptr → Except Fault α) :
    (∃ ptr v pool', make ptr = .ok v ∧ allocWith make pool = .ok ptr pool' ∧
      Allocated pool ptr v pool') ∨
    (∃ ptr e pool', make ptr = .error e ∧ allocWith make pool = .error e pool' ∧
      Withheld pool ptr pool') ∨
    (allocWith make pool = .error .tooManyChunks pool ∧
      pool.live = maxChunks * pool.capacity.entries) := by
  obtain ⟨s, hs⟩ := h.exists_stacked
  rcases hs.allocWith_run make with
    ⟨ptr, v, pool', -, hmake, hrun, hpool, -⟩ | ⟨ptr, e, pool', -, hmake, hrun, hpool, -⟩ |
    ⟨-, -, hfull⟩
  · exact .inl ⟨ptr, v, pool', hmake, hrun, hpool⟩
  · exact .inr (.inl ⟨ptr, e, pool', hmake, hrun, hpool⟩)
  · exact .inr (.inr hfull)

/-- An allocation stores the value at a pointer that addressed nothing, or every chunk that
pointers can name is full. -/
theorem construct_run (h : Sound pool) (make : Ptr → α) :
    (∃ ptr pool', construct make pool = .ok ptr pool' ∧ Allocated pool ptr (make ptr) pool') ∨
    (construct make pool = .error .tooManyChunks pool ∧
      pool.live = maxChunks * pool.capacity.entries) := by
  rcases h.allocWith_run fun ptr => .ok (make ptr) with
    ⟨ptr, v, pool', hmake, hrun, hpool⟩ | ⟨_, _, _, hmake, -, -⟩ | hfull
  · obtain rfl := Except.ok.inj hmake
    exact .inl ⟨ptr, pool', hrun, hpool⟩
  · cases hmake
  · exact .inr hfull

/-- A live entry is taken out. -/
theorem tryDealloc_run (h : Sound pool) {ptr : Ptr} {v : α} (hv : pool.get? ptr = some v) :
    ∃ pool', tryDealloc ptr pool = .ok (some v) pool' ∧ Deallocated pool ptr pool' := by
  obtain ⟨s, hs⟩ := h.exists_stacked
  obtain ⟨pool', hrun, hpool, -⟩ := hs.tryDealloc_run hv
  exact ⟨pool', hrun, hpool⟩

/-- Where nothing is addressed, nothing is taken out. -/
theorem tryDealloc_none (h : Sound pool) {ptr : Ptr} (hv : pool.get? ptr = none) :
    tryDealloc ptr pool = .ok none pool := by
  cases hc : pool.chunks[ptr.chunk]? with
  | none => simp [tryDealloc, hc]
  | some c =>
      have hnone : c.release ptr.pos = .ok none := by
        unfold Chunk.release
        cases he : c.entries[ptr.pos]? with
        | none => rfl
        | some e =>
            cases e with
            | free next => rfl
            | busy v =>
                have hvc := Chunk.get?_eq_some_iff.2 he
                rw [h.get?_eq_some_iff.2 ⟨c, hc, hvc⟩] at hv
                cases hv
      simp [tryDealloc, hc, hnone]

/-- A live entry is deallocated. -/
theorem dealloc_run (h : Sound pool) {ptr : Ptr} {v : α} (hv : pool.get? ptr = some v) :
    ∃ pool', dealloc ptr pool = .ok v pool' ∧ Deallocated pool ptr pool' := by
  obtain ⟨s, hs⟩ := h.exists_stacked
  obtain ⟨pool', hrun, hpool, -⟩ := hs.dealloc_run hv
  exact ⟨pool', hrun, hpool⟩

/-- Deallocating where nothing is stored is refused, for an empty pool with a fault of its own. -/
theorem dealloc_refused (h : Sound pool) {ptr : Ptr} (hv : pool.get? ptr = none) :
    dealloc ptr pool =
      .error (if pool.live = 0 then .emptyPool ptr else .notAllocated ptr) pool := by
  by_cases hlive : pool.live = 0
  · simp [dealloc, hlive]
  · simp [dealloc, hlive, h.tryDealloc_none hv]

end Sound

end Pool

end SlabGraph
