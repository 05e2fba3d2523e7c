import SlabGraph.Proofs.Pool.Sound

/-!
# The Stacks of a Pool

Where a pool stores the next value is a matter of two levels of stacks: for each chunk a stack of
its free positions, and one stack of the chunks that have any. `Stacks` is an allocator that keeps
these as plain lists. `Pool.Stacked` says that the free chains and the list of chunks with space of
a pool are the stacks of such an allocator, and the operations of a pool will be carried out on
both.

A pool is determined by its stacks and its values (`Pool.Stacked.eq_of_get?`). There is nothing else
in it: a free entry holds the position under it on the stack of its chunk, and the links of the
chunks are those of the list.

## Main definitions

* `Stacks`, with `Stacks.grown`, `Stacks.top?`, `Stacks.pop` and `Stacks.push`;
* `Stacks.Consistent`, the invariant of the allocator;
* `Pool.Filled`, `Pool.Stacked`.

## Main results

* `Pool.Sound.exists_stacked`: a sound pool has stacks;
* `Pool.Stacked.congr`: writing values leaves the stacks alone;
* `Pool.Stacked.eq_of_get?`.
-/

namespace SlabGraph

/-! ### The allocator -/

/-- For each chunk a stack of free positions, and a stack of the chunks that have any. -/
structure Stacks where
  /-- The free positions of each chunk, the next one first. -/
  free : List (List Nat)
  /-- The chunks with free positions, the next one first. -/
  spare : List Nat
deriving DecidableEq, Repr

namespace Stacks

/-- The allocator without chunks. -/
def empty : Stacks := ⟨[], []⟩

/-- The free positions of a chunk. -/
def stack (s : Stacks) (i : Nat) : List Nat := s.free[i]?.getD []

/-- A chunk is added if none has a free position and there are fewer than pointers can name. Its
positions are free in their order. -/
def grown (capacity : Nat) (s : Stacks) : Stacks :=
  if s.spare = [] ∧ s.free.length < maxChunks then
    ⟨s.free ++ [List.range capacity], [s.free.length]⟩
  else s

/-- The place on top: the first free position of the first chunk. -/
def top? (s : Stacks) : Option Ptr :=
  match s.spare with
  | [] => none
  | i :: _ => (s.stack i).head?.map (⟨i, ·⟩)

/-- The place on top is taken. The chunk leaves the stack of chunks with its last free position. -/
def pop (s : Stacks) : Stacks :=
  match s.spare with
  | [] => s
  | i :: spare =>
    ⟨s.free.set i (s.stack i).tail, if (s.stack i).tail = [] then spare else s.spare⟩

/-- A place is given back. The chunk comes on top of the stack of chunks if it was full. -/
def push (ptr : Ptr) (s : Stacks) : Stacks where
  free := s.free.set ptr.chunk (ptr.pos :: s.stack ptr.chunk)
  spare := if s.stack ptr.chunk = [] then ptr.chunk :: s.spare else s.spare

/-- Whether a place is taken. -/
def isLive (capacity : Nat) (s : Stacks) (ptr : Ptr) : Bool :=
  decide (ptr.chunk < s.free.length ∧ ptr.pos < capacity ∧ ptr.pos ∉ s.stack ptr.chunk)

/-- The stack of chunks holds those with free positions, each one once. -/
structure Consistent (s : Stacks) : Prop where
  mem_iff : ∀ i, i ∈ s.spare ↔ s.stack i ≠ []
  nodup : s.spare.Nodup

variable {s : Stacks} {capacity : Nat}

/-- Replacing the stack of a chunk leaves the other stacks alone. -/
theorem stack_set (s : Stacks) {i : Nat} (hi : i < s.free.length) (stack spare : List Nat)
    (j : Nat) :
    (⟨s.free.set i stack, spare⟩ : Stacks).stack j = if i = j then stack else s.stack j := by
  by_cases hj : i = j
  · simp [Stacks.stack, ← hj, hi]
  · simp [Stacks.stack, hj]

/-- A stack that is added is that of the new chunk. -/
theorem stack_append (s : Stacks) (stack spare : List Nat) (j : Nat) :
    (⟨s.free ++ [stack], spare⟩ : Stacks).stack j =
      if j = s.free.length then stack else s.stack j := by
  by_cases hj : j = s.free.length
  · simp [Stacks.stack, hj]
  · by_cases hlt : j < s.free.length
    · simp [Stacks.stack, hj, List.getElem?_append_left hlt]
    · have hnone : (s.free ++ [stack])[j]? = none := by simp; omega
      simp [Stacks.stack, hj, hnone, List.getElem?_eq_none (Nat.not_lt.1 hlt)]

/-- A chunk with a free position exists. -/
theorem lt_of_stack {i : Nat} (h : s.stack i ≠ []) : i < s.free.length := by
  by_contra hi
  exact h (by simp [Stacks.stack, List.getElem?_eq_none (Nat.not_lt.1 hi)])

/-- No chunk is added as long as there is a free position. -/
theorem grown_of_spare (h : s.spare ≠ []) : s.grown capacity = s := if_neg fun hboth => h hboth.1

/-- No chunk is added that pointers could not name. -/
theorem grown_of_no_room (h : maxChunks ≤ s.free.length) : s.grown capacity = s :=
  if_neg fun hboth => Nat.not_lt.2 h hboth.2

/-- A chunk is added when all are full and pointers can name one more. -/
theorem grown_of_room (h : s.spare = []) (hroom : s.free.length < maxChunks) :
    s.grown capacity = ⟨s.free ++ [List.range capacity], [s.free.length]⟩ := if_pos ⟨h, hroom⟩

/-- What is known of an allocator with a place on top. -/
theorem exists_of_top? {ptr : Ptr} (h : s.top? = some ptr) :
    ∃ spare rest, s.spare = ptr.chunk :: spare ∧ s.stack ptr.chunk = ptr.pos :: rest ∧
      s.pop = ⟨s.free.set ptr.chunk rest, if rest = [] then spare else s.spare⟩ := by
  cases hspare : s.spare with
  | nil => simp [top?, hspare] at h
  | cons i spare =>
      simp only [top?, hspare] at h
      obtain ⟨pos, hpos, rfl⟩ := Option.map_eq_some_iff.1 h
      obtain ⟨rest, hstack⟩ := List.head?_eq_some_iff.1 hpos
      exact ⟨spare, rest, rfl, hstack, by simp [pop, hspare, hstack]⟩

namespace Consistent

/-- If no chunk is on the stack of chunks, none has a free position. -/
theorem stack_eq_nil (h : s.Consistent) (hspare : s.spare = []) (i : Nat) : s.stack i = [] := by
  by_contra hi
  have hmem := (h.mem_iff i).2 hi
  rw [hspare] at hmem
  cases hmem

/-- The chunk on top has a free position, which is the place on top. -/
theorem exists_top (h : s.Consistent) {i : Nat} {spare : List Nat} (hspare : s.spare = i :: spare) :
    ∃ pos rest, s.stack i = pos :: rest ∧ s.top? = some ⟨i, pos⟩ := by
  have hi : s.stack i ≠ [] := (h.mem_iff i).1 (by simp [hspare])
  obtain ⟨pos, rest, hstack⟩ := List.exists_cons_of_ne_nil hi
  exact ⟨pos, rest, hstack, by simp [top?, hspare, hstack]⟩

/-- Growing keeps the stack of chunks right. -/
theorem grown (h : s.Consistent) (hpos : 0 < capacity) : (s.grown capacity).Consistent := by
  by_cases hboth : s.spare = [] ∧ s.free.length < maxChunks
  · rw [grown_of_room hboth.1 hboth.2]
    refine ⟨fun i => ?_, List.nodup_singleton _⟩
    rw [List.mem_singleton, stack_append]
    by_cases hi : i = s.free.length
    · simp [hi, Nat.ne_of_gt hpos]
    · simpa [hi] using h.stack_eq_nil hboth.1 i
  · rw [Stacks.grown, if_neg hboth]
    exact h

/-- Taking the place on top keeps the stack of chunks right. -/
theorem pop (h : s.Consistent) : s.pop.Consistent := by
  cases hspare : s.spare with
  | nil => rwa [Stacks.pop, hspare]
  | cons i spare =>
      have hnodup := hspare ▸ h.nodup
      have hi : s.stack i ≠ [] := (h.mem_iff i).1 (by simp [hspare])
      have hnot : i ∉ spare := (List.nodup_cons.1 hnodup).1
      have hpop : s.pop = ⟨s.free.set i (s.stack i).tail,
          if (s.stack i).tail = [] then spare else i :: spare⟩ := by
        simp only [Stacks.pop, hspare]
      rw [hpop]
      refine ⟨fun j => ?_, ?_⟩
      · have hold := h.mem_iff j
        rw [hspare] at hold
        rw [stack_set s (lt_of_stack hi)]
        by_cases hj : i = j
        · subst hj
          by_cases htail : (s.stack i).tail = [] <;> simp [htail, hnot]
        · rw [if_neg hj]
          rw [← hold, List.mem_cons, or_iff_right (Ne.symm hj)]
          by_cases htail : (s.stack i).tail = [] <;> simp [htail, Ne.symm hj]
      · by_cases htail : (s.stack i).tail = []
        · simpa [htail] using (List.nodup_cons.1 hnodup).2
        · simpa [htail] using hnodup

/-- Giving a place back keeps the stack of chunks right. -/
theorem push (h : s.Consistent) {ptr : Ptr} (hlt : ptr.chunk < s.free.length) :
    (s.push ptr).Consistent := by
  refine ⟨fun j => ?_, ?_⟩
  · rw [Stacks.push, stack_set s hlt]
    by_cases hj : ptr.chunk = j
    · subst hj
      by_cases hstack : s.stack ptr.chunk = []
      · simp [hstack]
      · simpa [hstack] using (h.mem_iff _).2 hstack
    · rw [if_neg hj]
      rw [← h.mem_iff]
      by_cases hstack : s.stack ptr.chunk = [] <;> simp [hstack, Ne.symm hj]
  · by_cases hstack : s.stack ptr.chunk = []
    · have hnot : ptr.chunk ∉ s.spare := fun hmem => (h.mem_iff _).1 hmem hstack
      simpa [Stacks.push, hstack] using ⟨hnot, h.nodup⟩
    · simpa [Stacks.push, hstack] using h.nodup

end Consistent

end Stacks

/-! ### Pools and their stacks -/

namespace Pool

variable {α : Type} {pool pool' : Pool α} {s s' : Stacks}

/-- The free chains of the chunks are the stacks of an allocator. -/
structure Filled (pool : Pool α) (s : Stacks) : Prop where
  /-- There is a stack for each chunk. -/
  length : s.free.length = pool.chunks.size
  /-- The free chains. -/
  chunk : ∀ (i : Nat) (c : Chunk α), pool.chunks[i]? = some c →
    c.Sound pool.capacity.entries (s.stack i)
  /-- The number of live entries. -/
  live : pool.live = (pool.chunks.toList.map Chunk.busy).sum
  /-- Every chunk can be named by pointers. -/
  size : pool.chunks.size ≤ maxChunks

/-- The free chains and the list of chunks with space are the stacks of an allocator. -/
structure Stacked (pool : Pool α) (s : Stacks) : Prop where
  /-- The free chains. -/
  filled : Filled pool s
  /-- The list of chunks with space. -/
  listed : Listed pool (s.spare.map .mk)
  /-- It is right. -/
  consistent : s.Consistent

namespace Filled

/-- A pool whose free chains are stacks is stocked. -/
theorem stocked (h : Filled pool s) : Stocked pool :=
  ⟨fun i c hc => ⟨_, h.chunk i c hc⟩, h.live, h.size⟩

/-- There is a chunk for each stack. -/
theorem exists_chunk (h : Filled pool s) {i : Nat} (hi : i < s.free.length) :
    ∃ c, pool.chunks[i]? = some c :=
  ⟨_, Array.getElem?_eq_getElem (h.length ▸ hi)⟩

/-- The list of chunks with space plays no part in what the free chains are. -/
theorem of_rows (h : Filled pool s) (hrows : SameRows pool pool') : Filled pool' s where
  length := by rw [hrows.size, h.length]
  chunk i d hd := by
    obtain ⟨c, hc, hbare⟩ := hrows.chunk hd
    exact hrows.capacity ▸ (h.chunk i c hc).of_bare hbare
  live := (h.stocked.of_rows hrows).live
  size := (h.stocked.of_rows hrows).size

/-- A chunk is replaced by one with another free chain. -/
theorem store {i n : Nat} {c d : Chunk α} {free spare : List Nat} (h : Filled pool s)
    (hc : pool.chunks[i]? = some c) (hd : d.Sound pool.capacity.entries free)
    (hn : n + c.busy = pool.live + d.busy) :
    Filled (pool.store i d n) ⟨s.free.set i free, spare⟩ where
  length := by simpa [Pool.store] using h.length
  chunk j e he := by
    have hlt : i < s.free.length := h.length ▸ lt_of_chunk hc
    rw [getElem?_store hc] at he
    rw [Stacks.stack_set s hlt]
    by_cases hj : i = j
    · rw [if_pos hj] at he ⊢
      obtain rfl := Option.some.inj he
      exact hd
    · rw [if_neg hj] at he ⊢
      exact h.chunk j e he
  live := (h.stocked.store hc hd hn).live
  size := (h.stocked.store hc hd hn).size

end Filled

/-- A pool that is described by stacks satisfies the invariant. -/
theorem Stacked.sound (h : Stacked pool s) : Sound pool where
  toStocked := h.filled.stocked
  spare := by
    refine ⟨s.spare.map .mk, h.listed, fun i c hc => ?_⟩
    rw [(h.filled.chunk i c hc).hasSpace_iff, ← h.consistent.mem_iff, List.mem_map]
    constructor
    · rintro ⟨j, hj, heq⟩
      obtain rfl : j = i := congrArg Index.val heq
      exact hj
    · intro hi
      exact ⟨i, hi, rfl⟩

/-- All chunks are full if none is on the stack of chunks. -/
theorem Stacked.live_eq_of_full (h : Stacked pool s) (hspare : s.spare = []) :
    pool.live = pool.chunks.size * pool.capacity.entries :=
  h.filled.stocked.live_eq_of_full fun i c hc hspace =>
    (h.filled.chunk i c hc).hasSpace_iff.1 hspace (h.consistent.stack_eq_nil hspare i)

/-- Every sound pool has stacks. -/
theorem Sound.exists_stacked (h : Sound pool) : ∃ s, Stacked pool s := by
  have hfree : ∀ i : Nat, ∃ free, ∀ c, pool.chunks[i]? = some c →
      c.Sound pool.capacity.entries free := by
    intro i
    cases hc : pool.chunks[i]? with
    | none => exact ⟨[], fun c hc => by cases hc⟩
    | some c =>
        obtain ⟨free, hsound⟩ := h.chunk i c hc
        exact ⟨free, fun d hd => Option.some.inj hd ▸ hsound⟩
  -- the free chains of the chunks, all at once
  choose free hfree using hfree
  obtain ⟨spare, hlisted, hmem⟩ := h.spare
  let s : Stacks := ⟨(List.range pool.chunks.size).map free, spare.map Index.val⟩
  have hstack : ∀ (i : Nat) (c : Chunk α), pool.chunks[i]? = some c → s.stack i = free i := by
    intro i c hc
    simp [s, Stacks.stack, List.getElem?_range (lt_of_chunk hc)]
  have hchunk : ∀ (i : Nat) (c : Chunk α), pool.chunks[i]? = some c →
      c.Sound pool.capacity.entries (s.stack i) := fun i c hc =>
    hstack i c hc ▸ hfree i c hc
  refine ⟨s, ⟨by simp [s], hchunk, h.live, h.size⟩, ?_, fun i => ?_, ?_⟩
  · have hspare : s.spare.map .mk = spare := by simp [s, Function.comp_def]
    exact hspare ▸ hlisted
  · have hval : i ∈ s.spare ↔ (⟨i⟩ : ChunkIndex) ∈ spare := by
      rw [List.mem_map]
      constructor
      · rintro ⟨j, hj, rfl⟩
        exact hj
      · intro hi
        exact ⟨_, hi, rfl⟩
    rw [hval]
    constructor
    · intro hi
      obtain ⟨c, hc⟩ := hlisted.exists_chunk hi
      exact (hchunk i c hc).hasSpace_iff.1 ((hmem i c hc).1 hi)
    · intro hi
      have hlt := Stacks.lt_of_stack hi
      have hc : pool.chunks[i]? = some _ := Array.getElem?_eq_getElem (by simpa [s] using hlt)
      exact (hmem i _ hc).2 ((hchunk i _ hc).hasSpace_iff.2 hi)
  · refine hlisted.list.nodup.map fun i j heq => ?_
    obtain ⟨i⟩ := i
    obtain ⟨j⟩ := j
    exact congrArg Index.mk heq

/-- The links of a chunk follow from the list of chunks with space. -/
theorem Listed.links_eq {spare : List ChunkIndex} (h : Listed pool spare) (h' : Listed pool' spare)
    (hsize : pool.chunks.size ≤ maxChunks) (hsize' : pool'.chunks.size ≤ maxChunks) {i : Nat}
    {c d : Chunk α} (hc : pool.chunks[i]? = some c) (hd : pool'.chunks[i]? = some d) :
    d.links = c.links := by
  have hthere := isSome_linkMap_chunks (i := ⟨i⟩) (lt_of_chunk hc) hsize
  have hthere' := isSome_linkMap_chunks (i := ⟨i⟩) (lt_of_chunk hd) hsize'
  have hmap : Chain.linkMap pool'.chunks 0 ⟨i⟩ = Chain.linkMap pool.chunks 0 ⟨i⟩ := by
    by_cases hi : (⟨i⟩ : ChunkIndex) ∈ spare
    · exact h.list.links_eq h'.list hi
    · rw [h.unlisted _ hi hthere, h'.unlisted _ hi hthere']
  have hpair : ∀ {cs : Array (Chunk α)} {e : Chunk α}, cs[i]? = some e →
      (Chain.linkMap cs 0 ⟨i⟩).isSome = true → Chain.linkMap cs 0 ⟨i⟩ = some (e.links.pair 0) := by
    intro cs e he hsome
    obtain ⟨pair, hpair⟩ := Option.isSome_iff_exists.1 hsome
    obtain ⟨l, hl, rfl⟩ := Chain.linkMap_eq_some_iff.1 hpair
    obtain ⟨-, e', he', rfl⟩ := links_array_eq_ok_iff.1 hl
    obtain rfl : e' = e := Option.some.inj (he'.symm.trans he)
    exact hpair
  rw [hpair hc hthere, hpair hd hthere'] at hmap
  refine Links.eq_of_pair fun slot => ?_
  obtain rfl : slot = 0 := Fin.fin_one_eq_zero slot
  exact Option.some.inj hmap

/-- A pool is its capacity, its stacks and its values. -/
theorem Stacked.eq_of_get? (h : Stacked pool s) (h' : Stacked pool' s)
    (hcapacity : pool'.capacity = pool.capacity) (hget : ∀ ptr, pool'.get? ptr = pool.get? ptr) :
    pool' = pool := by
  have hsize : pool'.chunks.size = pool.chunks.size := by
    rw [← h.filled.length, h'.filled.length]
  have hchunk : ∀ (i : Nat) (c d : Chunk α), pool.chunks[i]? = some c →
      pool'.chunks[i]? = some d → c.SameShape d := by
    intro i c d hc hd
    have hsound := h'.filled.chunk i d hd
    rw [hcapacity] at hsound
    exact (h.filled.chunk i c hc).sameShape hsound
      (h.listed.links_eq h'.listed h.filled.size h'.filled.size hc hd)
  have hbusy : pool'.chunks.toList.map Chunk.busy = pool.chunks.toList.map Chunk.busy := by
    refine List.ext_getElem (by simpa using hsize) fun i hi' hi => ?_
    rw [List.getElem_map, List.getElem_map, Array.getElem_toList, Array.getElem_toList]
    simp only [List.length_map, Array.length_toList] at hi hi'
    exact (hchunk i _ _ (Array.getElem?_eq_getElem hi) (Array.getElem?_eq_getElem hi')).busy
  have hshape : SameShape pool pool' := by
    refine ⟨hcapacity, Packed.unpack_inj.1 ?_, ?_, hsize, fun i c hc => ?_⟩
    · rw [h.listed.head, h'.listed.head]
    · rw [h.filled.live, h'.filled.live, hbusy]
    · have hd : pool'.chunks[i]? = some _ := Array.getElem?_eq_getElem (hsize ▸ lt_of_chunk hc)
      exact ⟨_, hd, hchunk i c _ hc hd⟩
  exact h.filled.stocked.eq_of_shape hshape hget

/-- The stacks of a pool without chunks are empty. -/
theorem stacked_of_empty (hchunks : pool.chunks = #[]) (hhead : pool.freeChunk = .empty)
    (hlive : pool.live = 0) : Stacked pool .empty := by
  obtain ⟨s, hs⟩ := (sound_of_empty hchunks hhead hlive).exists_stacked
  have hfree : s.free = [] := List.eq_nil_of_length_eq_zero (by rw [hs.filled.length, hchunks]; rfl)
  have hspare : s.spare = [] := List.eq_nil_iff_forall_not_mem.2 fun i hi => by
    simpa [hfree] using Stacks.lt_of_stack ((hs.consistent.mem_iff i).1 hi)
  obtain ⟨free, spare⟩ := s
  obtain rfl : free = [] := hfree
  obtain rfl : spare = [] := hspare
  exact hs

/-- Writing values leaves the stacks alone. -/
theorem Stacked.congr (h : Stacked pool s) (hshape : SameShape pool pool') : Stacked pool' s := by
  have hget : ∀ i : Nat, pool'.chunks[i]?.map Chunk.links = pool.chunks[i]?.map Chunk.links ∧
      pool'.chunks[i]?.map Chunk.busy = pool.chunks[i]?.map Chunk.busy := by
    intro i
    cases hd : pool'.chunks[i]? with
    | none =>
        have hc : pool.chunks[i]? = none := by
          rw [Array.getElem?_eq_none_iff] at hd ⊢
          exact hshape.size ▸ hd
        simp [hc]
    | some d =>
        obtain ⟨c, hc, hcd⟩ := hshape.exists_chunk hd
        simp [hc, hcd.links, hcd.busy]
  have hbusy : pool'.chunks.toList.map Chunk.busy = pool.chunks.toList.map Chunk.busy :=
    List.ext_getElem? fun i => by simpa using (hget i).2
  refine ⟨⟨?_, fun i d hd => ?_, ?_, ?_⟩, ?_, h.consistent⟩
  · rw [hshape.size, h.filled.length]
  · obtain ⟨c, hc, hcd⟩ := hshape.exists_chunk hd
    exact hshape.capacity ▸ (h.filled.chunk i c hc).congr hcd
  · rw [hshape.live, hbusy, h.filled.live]
  · rw [hshape.size]
    exact h.filled.size
  · exact h.listed.of_links hshape.freeChunk fun i => (hget i).1

/-- Writing values keeps the invariant. -/
theorem Sound.congr (h : Sound pool) (hshape : SameShape pool pool') : Sound pool' := by
  obtain ⟨s, hs⟩ := h.exists_stacked
  exact (hs.congr hshape).sound

end Pool

end SlabGraph
