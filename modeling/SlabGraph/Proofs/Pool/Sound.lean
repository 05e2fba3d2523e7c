import Mathlib.Algebra.GroupWithZero.Nat
import Mathlib.Algebra.Order.BigOperators.Group.List
import Mathlib.Algebra.Order.Group.Nat
import SlabGraph.Proofs.Pool.FreeChain

/-!
# The Invariant of a Pool

`Pool.Sound pool` says that every chunk is sound, that the chunks with space are exactly the
members of the list of chunks with space, that the count of live entries is the sum over the
chunks, and that there are no more chunks than pointers can name.

The list of chunks is kept apart from what the chunks hold. Listing a chunk and taking it off
the list change links only (`Pool.SameRows`), and filling or emptying an entry leaves all
links alone, so each of the two halves of an operation preserves what the other half is
about. Between the halves the list and the contents disagree on one chunk.

## Main results

* `Pool.Listed.listChunk_run`, `Pool.Listed.unlistChunk_run`: the list of chunks;
* `Pool.Stocked.store`: replacing a chunk;
* `Pool.sound_new`, `Pool.clear_run`.
-/

namespace SlabGraph

/-! ### Chunks without their links -/

namespace Chunk

variable {α : Type}

/-- A chunk as it is apart from its links. -/
def bare (c : Chunk α) : Chunk α := { c with links := .unlinked }

/-- Chunks that agree apart from links have the same entries. -/
theorem entries_of_bare {c d : Chunk α} (h : d.bare = c.bare) : d.entries = c.entries := by
  change d.bare.entries = c.bare.entries
  rw [h]

/-- Chunks that agree apart from links have the same first free entry. -/
theorem freeEntry_of_bare {c d : Chunk α} (h : d.bare = c.bare) : d.freeEntry = c.freeEntry := by
  change d.bare.freeEntry = c.bare.freeEntry
  rw [h]

/-- Chunks that agree apart from links count the same live entries. -/
theorem busy_of_bare {c d : Chunk α} (h : d.bare = c.bare) : d.busy = c.busy := by
  change d.bare.busy = c.bare.busy
  rw [h]

/-- Chunks that agree apart from links hold the same values. -/
theorem get?_of_bare {c d : Chunk α} (h : d.bare = c.bare) (pos : Nat) :
    d.get? pos = c.get? pos := by
  rw [get?, get?, entries_of_bare h]

/-- A chunk that agrees with a sound one apart from links is sound. -/
theorem Sound.of_bare {capacity : Nat} {c d : Chunk α} {free : List Nat}
    (hc : Sound capacity c free) (h : d.bare = c.bare) : Sound capacity d free where
  size := by rw [entries_of_bare h, hc.size]
  le_max := hc.le_max
  chain := by
    rw [freeEntry_of_bare h]
    exact hc.chain.of_eq_on fun pos _ => by rw [next?, next?, entries_of_bare h]
  nodup := hc.nodup
  complete pos next hnext := hc.complete pos next (by rwa [next?, ← entries_of_bare h])
  busy := by rw [busy_of_bare h, hc.busy]

/-- Writing links of chunks changes nothing else. -/
theorem map_bare_of_relinked {cs ds : Array (Chunk α)} (h : Chain.Relinked cs ds) :
    ds.map bare = cs.map bare := by
  induction h with
  | refl => rfl
  | @step ds p l l' _ _ ih =>
      rw [← ih]
      refine Array.ext_getElem? fun i => ?_
      simp only [ChainStorage.setLinks, Array.getElem?_map, Array.getElem?_modify]
      by_cases hi : p.val = i
      · rw [if_pos hi]
        cases ds[i]? <;> rfl
      · rw [if_neg hi]

end Chunk

/-- Replacing one chunk moves the sum of the busy entries by the difference. -/
theorem sum_busy_set {α : Type} {l : List (Chunk α)} {i : Nat} {c : Chunk α} (d : Chunk α)
    (hc : l[i]? = some c) :
    ((l.set i d).map Chunk.busy).sum + c.busy = (l.map Chunk.busy).sum + d.busy := by
  induction l generalizing i with
  | nil => simp at hc
  | cons e es ih =>
      cases i with
      | zero =>
          obtain rfl : e = c := by simpa using hc
          simp
          omega
      | succ i =>
          have := ih (i := i) (by simpa using hc)
          rw [List.set_cons_succ, List.map_cons, List.map_cons, List.sum_cons, List.sum_cons]
          omega

namespace Pool

variable {α : Type}

/-! ### The list of chunks with space -/

/-- The list of chunks with space is `spare`, and all other chunks are in no list. -/
structure Listed (pool : Pool α) (spare : List ChunkIndex) : Prop where
  /-- The list. -/
  list : LinkMap.IsList (Chain.linkMap pool.chunks 0) spare
  /-- Its head. -/
  head : pool.freeChunk.unpack = spare.head?
  /-- The other chunks. -/
  unlisted : ∀ i, i ∉ spare → (Chain.linkMap pool.chunks 0 i).isSome →
    Chain.linkMap pool.chunks 0 i = some (none, none)

/-- Two pools agree in all but the list of chunks with space. -/
structure SameRows (pool pool' : Pool α) : Prop where
  capacity : pool'.capacity = pool.capacity
  live : pool'.live = pool.live
  rows : pool'.chunks.map Chunk.bare = pool.chunks.map Chunk.bare

namespace SameRows

variable {pool pool' : Pool α}

/-- The pools have as many chunks. -/
theorem size (h : SameRows pool pool') : pool'.chunks.size = pool.chunks.size := by
  simpa using congrArg Array.size h.rows

/-- Each chunk of the second pool agrees with one of the first pool apart from links. -/
theorem chunk (h : SameRows pool pool') {i : Nat} {d : Chunk α} (hd : pool'.chunks[i]? = some d) :
    ∃ c, pool.chunks[i]? = some c ∧ d.bare = c.bare := by
  have hi := congrArg (·[i]?) h.rows
  simp only [Array.getElem?_map, hd, Option.map_some] at hi
  obtain ⟨c, hc, hbare⟩ := Option.map_eq_some_iff.1 hi.symm
  exact ⟨c, hc, hbare.symm⟩

/-- The pools hold the same values. -/
theorem get? (h : SameRows pool pool') (ptr : Ptr) : pool'.get? ptr = pool.get? ptr := by
  have hi := congrArg (·[ptr.chunk]?) h.rows
  simp only [Array.getElem?_map] at hi
  unfold Pool.get?
  by_cases hres : ptr = .reserved
  · simp [hres]
  · rw [if_neg hres, if_neg hres]
    cases hd : pool'.chunks[ptr.chunk]? with
    | none =>
        rw [hd, Option.map_none, eq_comm, Option.map_eq_none_iff] at hi
        rw [hi]
    | some d =>
        obtain ⟨c, hc, hbare⟩ := h.chunk hd
        simp [hc, Chunk.get?_of_bare hbare]

/-- The chunks of the pools count the same live entries. -/
theorem busy (h : SameRows pool pool') :
    pool'.chunks.toList.map Chunk.busy = pool.chunks.toList.map Chunk.busy := by
  have hbusy := congrArg (fun cs => cs.toList.map Chunk.busy) h.rows
  have hcomp : (Chunk.busy ∘ Chunk.bare : Chunk α → Nat) = Chunk.busy := rfl
  simpa [hcomp] using hbusy

end SameRows

/-- A pool shows the links of its chunks up to the number of chunks. -/
theorem isSome_linkMap_chunks {cs : Array (Chunk α)} {i : ChunkIndex}
    (hi : i.val < cs.size) (hmax : cs.size ≤ maxChunks) :
    (Chain.linkMap cs 0 i).isSome = true := by
  have htop : i.val ≠ UInt32.size - 1 := by
    unfold maxChunks at hmax
    unfold UInt32.size
    omega
  have hlinks := links_array_eq_ok_iff.2 ⟨htop, cs[i.val], Array.getElem?_eq_getElem hi, rfl⟩
  rw [Chain.linkMap_of_links hlinks]
  rfl

/-- A chunk with links exists. -/
theorem exists_chunk_of_isSome {cs : Array (Chunk α)} {i : ChunkIndex}
    (h : (Chain.linkMap cs 0 i).isSome = true) : ∃ c, cs[i.val]? = some c := by
  obtain ⟨pair, hpair⟩ := Option.isSome_iff_exists.1 h
  obtain ⟨l, hl, -⟩ := Chain.linkMap_eq_some_iff.1 hpair
  obtain ⟨-, c, hc, -⟩ := links_array_eq_ok_iff.1 hl
  exact ⟨c, hc⟩

/-- The links of a chunk, as the link map shows them. -/
theorem linkMap_chunks_congr {cs ds : Array (Chunk α)} {i : ChunkIndex}
    (h : ds[i.val]?.map Chunk.links = cs[i.val]?.map Chunk.links) :
    Chain.linkMap ds 0 i = Chain.linkMap cs 0 i := by
  have hok : ∀ l : Links ChunkIndex 1,
      ChainStorage.links ds i = .ok l ↔ ChainStorage.links cs i = .ok l := by
    intro l
    rw [links_array_eq_ok_iff, links_array_eq_ok_iff, ← Option.map_eq_some_iff,
      ← Option.map_eq_some_iff]
    exact and_congr_right fun _ => by
      rw [show (Linked.links : Chunk α → Links ChunkIndex 1) = Chunk.links from rfl, h]
  refine Option.ext fun pair => ?_
  rw [Chain.linkMap_eq_some_iff, Chain.linkMap_eq_some_iff]
  exact exists_congr fun l => and_congr_left' (hok l)

namespace Listed

variable {pool : Pool α} {spare : List ChunkIndex}

/-- The list depends only on the links of the chunks. -/
theorem of_links {pool' : Pool α} (h : Listed pool spare)
    (hhead : pool'.freeChunk = pool.freeChunk)
    (hlinks : ∀ i : Nat, pool'.chunks[i]?.map Chunk.links = pool.chunks[i]?.map Chunk.links) :
    Listed pool' spare := by
  have hmap : Chain.linkMap pool'.chunks 0 = Chain.linkMap pool.chunks 0 := by
    funext i
    exact linkMap_chunks_congr (hlinks i.val)
  exact ⟨hmap ▸ h.list, hhead ▸ h.head, hmap ▸ h.unlisted⟩

/-- The chunks on the list exist. -/
theorem exists_chunk (h : Listed pool spare) {i : ChunkIndex} (hi : i ∈ spare) :
    ∃ c, pool.chunks[i.val]? = some c :=
  exists_chunk_of_isSome (LinkMap.segment_mem_isSome h.list hi)

/-- What an edit of the list leaves behind. -/
theorem of_edited {pool' : Pool α} {spare' : List ChunkIndex} (h : Listed pool spare)
    (hsub : ∀ i, i ∉ spare' → i ∈ spare → Chain.linkMap pool'.chunks 0 i = some (none, none))
    (hhead : pool'.freeChunk.unpack = spare'.head?)
    (hedit : Chain.Edited 0 pool.chunks spare spare' pool'.chunks) : Listed pool' spare' := by
  refine ⟨hedit.list, hhead, fun i hi hthere => ?_⟩
  by_cases hmem : i ∈ spare
  · exact hsub i hi hmem
  · rw [hedit.outside i hmem hi] at hthere ⊢
    exact h.unlisted i hmem hthere

/-- A chunk that is not listed is put in front of the list. -/
theorem listChunk_run (h : Listed pool spare) {i : ChunkIndex} (hi : i ∉ spare)
    (hthere : (Chain.linkMap pool.chunks 0 i).isSome = true) :
    ∃ pool', listChunk i pool = .ok () pool' ∧ Listed pool' (i :: spare) ∧
      SameRows pool pool' := by
  obtain ⟨head, chunks, hrun, hhead, hedit⟩ :=
    Chain.pushFront_run h.list h.head (h.unlisted i hi hthere) hi
  have hrun' : Chain.pushFront i 0 pool.freeChunk pool.chunks = .ok head chunks := hrun
  refine ⟨{ pool with chunks, freeChunk := head }, ?_, ?_, rfl, rfl, ?_⟩
  · simp [listChunk, onChunks, hrun']
  · refine h.of_edited (fun j hj hmem => ?_) hhead hedit
    exact absurd (List.mem_cons_of_mem i hmem) hj
  · exact Chunk.map_bare_of_relinked hedit.relinked

/-- A listed chunk is taken off the list. -/
theorem unlistChunk_run (h : Listed pool spare) {i : ChunkIndex} (hi : i ∈ spare) :
    ∃ pool', unlistChunk i pool = .ok () pool' ∧ Listed pool' (spare.erase i) ∧
      SameRows pool pool' := by
  obtain ⟨head, chunks, hrun, hhead, hself, hedit⟩ := Chain.unlink_run h.list h.head hi
  have hrun' : Chain.unlink i 0 pool.freeChunk pool.chunks = .ok head chunks := hrun
  refine ⟨{ pool with chunks, freeChunk := head }, ?_, ?_, rfl, rfl, ?_⟩
  · simp [unlistChunk, onChunks, hrun']
  · refine h.of_edited (fun j hj hmem => ?_) hhead hedit
    obtain rfl : j = i := by
      by_contra hne
      exact hj ((List.mem_erase_of_ne hne).2 hmem)
    exact hself
  · exact Chunk.map_bare_of_relinked hedit.relinked

end Listed

/-! ### The contents -/

/-- The chunks of a pool are sound, and its counts are right. -/
structure Stocked (pool : Pool α) : Prop where
  /-- Every chunk is sound. -/
  chunk : ∀ (i : Nat) (c : Chunk α), pool.chunks[i]? = some c →
    ∃ free, c.Sound pool.capacity.entries free
  /-- The number of live entries. -/
  live : pool.live = (pool.chunks.toList.map Chunk.busy).sum
  /-- Every chunk can be named by pointers. -/
  size : pool.chunks.size ≤ maxChunks

/-- Replaces a chunk and the count of live entries. -/
def store (pool : Pool α) (i : Nat) (c : Chunk α) (live : Nat) : Pool α :=
  { pool with chunks := pool.chunks.setIfInBounds i c, live }

/-- A chunk that is found has an index within the bounds. -/
theorem lt_of_chunk {pool : Pool α} {i : Nat} {c : Chunk α} (hc : pool.chunks[i]? = some c) :
    i < pool.chunks.size :=
  (Array.getElem?_eq_some_iff.1 hc).1

/-- Storing a chunk replaces it and leaves the other chunks alone. -/
theorem getElem?_store {pool : Pool α} {i : Nat} {c : Chunk α} (hc : pool.chunks[i]? = some c)
    (d : Chunk α) (live j : Nat) :
    (pool.store i d live).chunks[j]? = if i = j then some d else pool.chunks[j]? := by
  simp [store, Array.getElem?_setIfInBounds, lt_of_chunk hc]

/-- After a chunk was stored, a pointer into it reads the new chunk, and any other one reads what it
read before. -/
theorem get?_store {pool : Pool α} {i : Nat} {c : Chunk α} (hc : pool.chunks[i]? = some c)
    (d : Chunk α) (live : Nat) {q : Ptr} (hq : q ≠ .reserved) :
    (pool.store i d live).get? q = if q.chunk = i then d.get? q.pos else pool.get? q := by
  rw [get?, if_neg hq, getElem?_store hc]
  by_cases hi : i = q.chunk
  · simp [hi]
  · rw [if_neg hi, if_neg (Ne.symm hi), get?, if_neg hq]

namespace Stocked

variable {pool : Pool α}

/-- The list of chunks with space plays no part in whether a pool is stocked. -/
theorem of_rows {pool' : Pool α} (h : Stocked pool) (hrows : SameRows pool pool') :
    Stocked pool' where
  chunk i d hd := by
    obtain ⟨c, hc, hbare⟩ := hrows.chunk hd
    obtain ⟨free, hfree⟩ := h.chunk i c hc
    exact ⟨free, hrows.capacity ▸ hfree.of_bare hbare⟩
  live := by rw [hrows.live, hrows.busy, h.live]
  size := by rw [hrows.size]; exact h.size

/-- Storing a sound chunk keeps a pool stocked, if the count goes with the chunk. -/
theorem store {i : Nat} {c d : Chunk α} {free : List Nat} {n : Nat} (h : Stocked pool)
    (hc : pool.chunks[i]? = some c) (hd : d.Sound pool.capacity.entries free)
    (hn : n + c.busy = pool.live + d.busy) : Stocked (pool.store i d n) where
  chunk j e he := by
    rw [getElem?_store hc] at he
    by_cases hj : i = j
    · rw [if_pos hj] at he
      obtain rfl := Option.some.inj he
      exact ⟨free, hd⟩
    · rw [if_neg hj] at he
      exact h.chunk j e he
  live := by
    have hsum := sum_busy_set d (l := pool.chunks.toList) (by simpa using hc)
    have := h.live
    change n = ((pool.chunks.setIfInBounds i d).toList.map Chunk.busy).sum
    rw [Array.toList_setIfInBounds]
    omega
  size := by simpa [Pool.store] using h.size

/-- The reserved pointer needs no case of its own, since no chunk has an entry at its position. -/
theorem get?_eq_some_iff (h : Stocked pool) {ptr : Ptr} {v : α} :
    pool.get? ptr = some v ↔ ∃ c, pool.chunks[ptr.chunk]? = some c ∧ c.get? ptr.pos = some v := by
  rw [Pool.get?_eq_some_iff]
  refine and_iff_right_of_imp ?_
  rintro ⟨c, hc, hv⟩ rfl
  obtain ⟨free, hfree⟩ := h.chunk _ c hc
  exact hfree.ne_noPos_of_lt (hfree.size ▸ Chunk.lt_of_get? hv) rfl

/-- A pool is its shape and its values. -/
theorem eq_of_shape {pool' : Pool α} (h : Stocked pool) (hshape : SameShape pool pool')
    (hget : ∀ ptr, pool'.get? ptr = pool.get? ptr) : pool' = pool := by
  have hchunks : pool'.chunks = pool.chunks := by
    refine Array.ext hshape.size fun i hi' hi => ?_
    have hc : pool.chunks[i]? = some pool.chunks[i] := Array.getElem?_eq_getElem hi
    obtain ⟨d, hd, hcd⟩ := hshape.chunk i _ hc
    obtain rfl : pool'.chunks[i] = d :=
      Option.some.inj ((Array.getElem?_eq_getElem hi').symm.trans hd)
    refine hcd.eq_of_get? fun pos => ?_
    by_cases hres : (⟨i, pos⟩ : Ptr) = .reserved
    · -- no chunk is long enough to have an entry there
      obtain ⟨free, hfree⟩ := h.chunk i _ hc
      have hpos : pos = noPos := congrArg Ptr.pos hres
      have hle : pool.chunks[i].entries.size ≤ pos := by
        rw [hfree.size, hpos]
        exact hfree.le_max
      rw [Chunk.get?, Chunk.get?, Array.getElem?_eq_none hle,
        Array.getElem?_eq_none (hcd.size.trans_le hle)]
    · have hptr := hget ⟨i, pos⟩
      simpa [Pool.get?, hres, hc, hd] using hptr
  obtain ⟨capacity, chunks, freeChunk, live⟩ := pool
  obtain ⟨capacity', chunks', freeChunk', live'⟩ := pool'
  obtain rfl := hshape.capacity
  obtain rfl := hchunks
  obtain rfl := hshape.freeChunk
  obtain rfl := hshape.live
  rfl

/-- A pool holds no more than its chunks can. -/
theorem live_le (h : Stocked pool) : pool.live ≤ pool.chunks.size * pool.capacity.entries := by
  have hle : ∀ n ∈ pool.chunks.toList.map Chunk.busy, n ≤ pool.capacity.entries := by
    intro n hn
    obtain ⟨c, hc, rfl⟩ := List.mem_map.1 hn
    obtain ⟨i, hi⟩ := List.mem_iff_getElem?.1 hc
    obtain ⟨free, hfree⟩ := h.chunk i c (by simpa using hi)
    have := hfree.busy
    omega
  have hsum := List.sum_le_card_nsmul _ _ hle
  rw [h.live]
  simpa using hsum

/-- A pool whose chunks have no space holds as much as they can. -/
theorem live_eq_of_full (h : Stocked pool)
    (hfull : ∀ (i : Nat) (c : Chunk α), pool.chunks[i]? = some c → ¬ c.hasSpace = true) :
    pool.live = pool.chunks.size * pool.capacity.entries := by
  have hbusy : pool.chunks.toList.map Chunk.busy =
      List.replicate pool.chunks.size pool.capacity.entries := by
    refine List.eq_replicate_iff.2 ⟨by simp, fun n hn => ?_⟩
    obtain ⟨c, hc, rfl⟩ := List.mem_map.1 hn
    obtain ⟨i, hi⟩ := List.mem_iff_getElem?.1 hc
    have hi' : pool.chunks[i]? = some c := by simpa using hi
    obtain ⟨free, hfree⟩ := h.chunk i c hi'
    exact hfree.busy_eq_capacity (hfull i c hi')
  rw [h.live, hbusy, List.sum_replicate_nat]

end Stocked

/-- The invariant of a pool. -/
structure Sound (pool : Pool α) : Prop extends Stocked pool where
  /-- The list of chunks with space holds these and no others. -/
  spare : ∃ spare, Listed pool spare ∧ ∀ (i : Nat) (c : Chunk α), pool.chunks[i]? = some c →
    ((⟨i⟩ : ChunkIndex) ∈ spare ↔ c.hasSpace = true)

/-- A pool without chunks satisfies the invariant. -/
theorem sound_of_empty {pool : Pool α} (hchunks : pool.chunks = #[])
    (hhead : pool.freeChunk = .empty) (hlive : pool.live = 0) : Sound pool where
  chunk i c hc := by simp [hchunks] at hc
  live := by simp [hchunks, hlive]
  size := by simp [hchunks]
  spare := by
    refine ⟨[], ⟨LinkMap.isList_nil _, by simp [hhead], fun i _ hi => ?_⟩, fun i c hc => ?_⟩
    · obtain ⟨c, hc⟩ := exists_chunk_of_isSome hi
      simp [hchunks] at hc
    · simp [hchunks] at hc

/-- A new pool satisfies the invariant. -/
theorem sound_new (capacity : Capacity) : Sound (new capacity : Pool α) :=
  sound_of_empty rfl rfl rfl

/-- A new pool holds nothing. -/
theorem get?_new (capacity : Capacity) (ptr : Ptr) : (new capacity : Pool α).get? ptr = none := by
  simp [get?, new]

/-- Clearing a pool leaves nothing in it. -/
theorem clear_run (pool : Pool α) :
    ∃ pool', clear pool = .ok pool.values pool' ∧ Sound pool' ∧ pool'.live = 0 ∧
      pool'.capacity = pool.capacity ∧ ∀ ptr, pool'.get? ptr = none := by
  refine ⟨{ pool with chunks := #[], freeChunk := .empty, live := 0 }, ?_,
    sound_of_empty rfl rfl rfl, rfl, rfl, fun ptr => ?_⟩
  · simp [clear]
  · simp [get?]

end Pool

end SlabGraph
