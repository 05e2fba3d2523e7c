import SlabGraph.Proofs.Pool.Policy

/-!
# The Guards of a Pool

A pool threads its free entries through bytes and its chunks through links, and it checks what it
finds there. `Fault.isGuard` tells the faults of these checks from the offences of a user. Whatever
a pool has gone through, with whatever pointers and with operations that failed, none of the checks
fails, and an operation is refused exactly for an offence that is documented.

This rests on the bookkeeping of the pool, which is said here by the entries alone: each free chain
goes through the free entries, the busy ones are counted, and the list of chunks with space holds
the chunks that have a free entry (`Chunk.Tidy`, `Pool.Tidy`).

A pool answers the values that are to be finalised. A finaliser runs when the operation is over, so
that it is no part of a run.

## Main definitions

* `Fault.isGuard`;
* `Chunk.Tidy`, `Pool.Tidy`, the bookkeeping;
* `Pool.Op.Refused`, the offences of a user, with `Pool.Exhausted` and `Pool.Offers`;
* `Pool.Dependable`.

## Main result

* `Pool.dependable_history`: after every run from an empty pool, a pool is dependable.
-/

namespace SlabGraph

/-- The faults of the checks that a pool makes of its own bookkeeping, of the links in its chunks
and of the pointers that it builds. -/
def Fault.isGuard : Fault → Bool
  | reservedValue | outOfBounds _ _ | selfAttach | alreadyLinked | endlessList => true
  | listedChunkFull | entryTaken | chunkCountsNone | chunkDoesNotFit _ | noPosition => true
  | overflow | underflow => true
  | _ => false

/-! ### The bookkeeping of a chunk -/

namespace Chunk

variable {α : Type} {capacity : Nat} {c : Chunk α} {free : List Nat}

/-- The bookkeeping of a chunk is right, judged by its entries. -/
structure Tidy (capacity : Nat) (c : Chunk α) : Prop where
  /-- There are as many entries as were asked for. -/
  size : c.entries.size = capacity
  /-- The free chain goes through every free position once, through no other, and ends. -/
  chain : ∃ free, c.FreeChain c.freeEntry free ∧ free.Nodup ∧
    ∀ pos, pos ∈ free ↔ (c.next? pos).isSome = true
  /-- The busy entries are counted. -/
  busy : c.busy = c.entries.toList.countP (·.value?.isSome)
  /-- All positions and the count fit in one byte, the position after the last entry included. -/
  byte : c.entries.size < UInt8.size ∧ c.busy < UInt8.size ∧ c.freeEntry < UInt8.size ∧
    ∀ pos next, c.next? pos = some next → next < UInt8.size

/-- What holds of the end and of all members of a free chain holds of where it starts. -/
theorem FreeChain.start_of_forall {P : Nat → Prop} {start : Nat} (h : c.FreeChain start free)
    (hend : P noPos) (hmem : ∀ pos ∈ free, P pos) : P start := by
  cases free with
  | nil => exact (show start = noPos from h) ▸ hend
  | cons pos rest => exact h.1 ▸ hmem pos List.mem_cons_self

/-- What holds of the end and of all members of a free chain holds of the positions it stores. -/
theorem FreeChain.next_of_forall {P : Nat → Prop} {start pos next : Nat}
    (h : c.FreeChain start free) (hend : P noPos) (hmem : ∀ pos ∈ free, P pos) (hpos : pos ∈ free)
    (hnext : c.next? pos = some next) : P next := by
  induction free generalizing start with
  | nil => cases hpos
  | cons q rest ih =>
      obtain ⟨-, after, hafter, hrest⟩ := h
      have hmem' : ∀ pos ∈ rest, P pos := fun pos hpos => hmem pos (List.mem_cons_of_mem q hpos)
      rcases List.mem_cons.1 hpos with rfl | hpos
      · obtain rfl : after = next := Option.some.inj (hafter.symm.trans hnext)
        exact hrest.start_of_forall hend hmem'
      · exact ih hrest hmem' hpos

namespace Sound

/-- The free chain holds exactly the positions of the free entries. -/
theorem mem_iff (h : Sound capacity c free) (pos : Nat) :
    pos ∈ free ↔ (c.next? pos).isSome = true := by
  constructor
  · exact h.chain.mem_isSome
  · intro hsome
    obtain ⟨next, hnext⟩ := Option.isSome_iff_exists.1 hsome
    exact h.complete pos next hnext

/-- The free chain is made of the positions of free entries. -/
theorem perm_free (h : Sound capacity c free) :
    free.Perm ((List.range capacity).filter fun pos => (c.next? pos).isSome) := by
  refine (List.perm_ext_iff_of_nodup h.nodup (List.nodup_range.filter _)).2 fun pos => ?_
  rw [List.mem_filter, List.mem_range, ← h.mem_iff]
  exact (and_iff_right_of_imp h.lt_of_mem).symm

/-- There are as many free positions as free entries. -/
theorem length_eq_countP (h : Sound capacity c free) :
    free.length = c.entries.toList.countP fun e => !e.value?.isSome := by
  have hentries : (List.range capacity).map (c.entries[·]?) = c.entries.toList.map some := by
    refine List.ext_getElem (by simp [h.size]) fun i hi hi' => ?_
    simp only [List.length_map, Array.length_toList] at hi'
    simp [hi']
  calc free.length
      = (List.range capacity).countP fun pos => (c.next? pos).isSome := by
        rw [h.perm_free.length_eq, List.countP_eq_length_filter]
    _ = ((List.range capacity).map (c.entries[·]?)).countP fun e? =>
          (e?.bind Entry.next?).isSome := by
        rw [List.countP_map]
        rfl
    _ = c.entries.toList.countP fun e => e.next?.isSome := by
        rw [hentries, List.countP_map]
        rfl
    _ = c.entries.toList.countP fun e => !e.value?.isSome :=
        List.countP_congr fun e _ => by cases e <;> simp [Entry.next?, Entry.value?]

/-- The count of busy entries is their number. -/
theorem busy_eq_countP (h : Sound capacity c free) :
    c.busy = c.entries.toList.countP (·.value?.isSome) := by
  have hall := List.length_eq_countP_add_countP (·.value?.isSome) (l := c.entries.toList)
  have hfree := h.length_eq_countP
  have hbusy := h.busy
  simp only [Array.length_toList, h.size, Bool.not_eq_true, Bool.decide_eq_false] at hall
  omega

/-- A sound chunk is tidy. -/
theorem tidy (h : Sound capacity c free) : c.Tidy capacity := by
  have hmax : maxChunkEntries < UInt8.size := by decide
  have hcapacity : capacity < UInt8.size := Nat.lt_of_le_of_lt h.le_max hmax
  have hfree : ∀ pos ∈ free, pos < UInt8.size := fun pos hpos => (h.lt_of_mem hpos).trans hcapacity
  refine ⟨h.size, ⟨free, h.chain, h.nodup, h.mem_iff⟩, h.busy_eq_countP, h.size ▸ hcapacity, ?_,
    h.chain.start_of_forall hmax hfree, fun pos next hnext => ?_⟩
  · have := h.busy
    omega
  · exact h.chain.next_of_forall (P := (· < UInt8.size)) hmax hfree (h.complete pos next hnext)
      hnext

end Sound

end Chunk

namespace Pool

variable {α : Type} {pool : Pool α} {s : Stacks}

/-! ### The bookkeeping of a pool -/

/-- The bookkeeping of a pool is right, judged by its entries. -/
structure Tidy (pool : Pool α) : Prop where
  /-- That of every chunk is. -/
  chunk : ∀ (i : Nat) (c : Chunk α), pool.chunks[i]? = some c → c.Tidy pool.capacity.entries
  /-- The chunks that have a free entry are on the list of chunks with space, each one once, and
  the others are in no list. -/
  listed : ∃ spare, Listed pool spare ∧ pool.chunksWithSpace = .ok spare ∧ spare.Nodup ∧
    ∀ i, i ∈ spare ↔ ∃ c pos, pool.chunks[i.val]? = some c ∧ (c.next? pos).isSome = true
  /-- The live entries are counted. -/
  live : pool.live = (pool.chunks.toList.map Chunk.busy).sum
  /-- Every chunk can be named by pointers. -/
  size : pool.chunks.size ≤ maxChunks

/-- The chunks with space are those with a free entry. -/
theorem Stacked.mem_spare_iff (h : Stacked pool s) (i : Nat) :
    i ∈ s.spare ↔ ∃ c pos, pool.chunks[i]? = some c ∧ (c.next? pos).isSome = true := by
  rw [h.consistent.mem_iff]
  constructor
  · intro hi
    obtain ⟨c, hc⟩ := h.filled.exists_chunk (Stacks.lt_of_stack hi)
    obtain ⟨pos, hpos⟩ := List.exists_mem_of_ne_nil _ hi
    exact ⟨c, pos, hc, ((h.filled.chunk i c hc).mem_iff pos).1 hpos⟩
  · rintro ⟨c, pos, hc, hpos⟩
    exact List.ne_nil_of_mem (((h.filled.chunk i c hc).mem_iff pos).2 hpos)

/-- The bookkeeping of a pool that is described by stacks is right. -/
theorem Stacked.tidy (h : Stacked pool s) : Tidy pool where
  chunk i c hc := (h.filled.chunk i c hc).tidy
  listed := by
    refine ⟨s.spare.map .mk, h.listed, h.chunksWithSpace_run, ?_, fun i => ?_⟩
    · exact h.listed.list.nodup
    · rw [← h.mem_spare_iff, List.mem_map]
      constructor
      · rintro ⟨j, hj, rfl⟩
        exact hj
      · intro hi
        exact ⟨i.val, hi, rfl⟩
  live := h.filled.live
  size := h.filled.size

/-! ### Offences -/

/-- There are as many chunks as pointers can name, and all of them are full. -/
def Exhausted (pool : Pool α) : Prop :=
  pool.chunks.size = maxChunks ∧ pool.live = maxChunks * pool.capacity.entries

/-- The next allocation hands `ptr` to its constructor, as one that fails can tell. -/
def Offers (pool : Pool α) (ptr : Ptr) : Prop :=
  ((allocWith fun ptr => .error (.constructorFailed ptr)).outcome pool).1 =
    .error (.constructorFailed ptr)

/-- An operation is an offence, and the fault names it. A constructor that fails is one too, with
the fault that it fails with. -/
def Op.Refused (pool : Pool α) (e : Fault) : Op α → Prop
  | alloc _ | construct _ => pool.Exhausted ∧ e = .tooManyChunks
  | allocWith make =>
      pool.Exhausted ∧ e = .tooManyChunks ∨ ∃ ptr, pool.Offers ptr ∧ make ptr = .error e
  | dealloc ptr | destroy ptr =>
      pool.get? ptr = none ∧ e = if pool.live = 0 then .emptyPool ptr else .notAllocated ptr
  | update ptr _ => pool.get? ptr = none ∧ e = .invalidPtr
  | tryDealloc _ | update? _ _ | visit _ | clear => False

/-- A fault of a guard names no offence. It can only come from the constructor of the user. -/
theorem Op.Refused.of_isGuard {op : Op α} {e : Fault} (h : op.Refused pool e)
    (he : e.isGuard = true) :
    ∃ make ptr, op = .allocWith make ∧ pool.Offers ptr ∧ make ptr = .error e := by
  cases op with
  | alloc v | construct make =>
      obtain ⟨-, rfl⟩ := h
      cases he
  | allocWith make =>
      rcases h with ⟨-, rfl⟩ | ⟨ptr, hptr, hmake⟩
      · cases he
      · exact ⟨make, ptr, rfl, hptr, hmake⟩
  | dealloc ptr | destroy ptr =>
      obtain ⟨-, rfl⟩ := h
      by_cases hlive : pool.live = 0 <;> simp [hlive, Fault.isGuard] at he
  | update ptr f =>
      obtain ⟨-, rfl⟩ := h
      cases he
  | tryDealloc ptr | update? ptr f | visit f | clear => exact h.elim

namespace Stacked

/-- The next allocation hands out the place on top, after the pool has grown if it must. -/
theorem offers_iff (h : Stacked pool s) {ptr : Ptr} :
    pool.Offers ptr ↔ (s.grown pool.capacity.entries).top? = some ptr := by
  rcases h.allocWith_run fun ptr => .error (.constructorFailed ptr) with
    ⟨_, _, _, -, hmake, -⟩ | ⟨q, e, pool', htop, hmake, hrun, -⟩ | ⟨htop, -, hrun, -⟩
  · cases hmake
  · obtain rfl := Except.error.inj hmake
    simp [Offers, Action.outcome, hrun, htop]
  · simp [Offers, Action.outcome, hrun, htop]

/-- A pool is exhausted if no place comes on top. -/
theorem exhausted_iff (h : Stacked pool s) :
    pool.Exhausted ↔ (s.grown pool.capacity.entries).top? = none := by
  have hpos := pool.capacity.pos
  rcases h.openChunk_run with ⟨ptr, pool', htop, -, h', hcap, hlive, -⟩ | ⟨htop, -, -, hfull⟩
  · have hlt := h'.live_lt_of_top? htop
    have hle := Nat.mul_le_mul_right pool.capacity.entries h'.filled.size
    rw [hcap, hlive] at hlt
    simp only [htop, reduceCtorEq, iff_false]
    rintro ⟨-, hall⟩
    omega
  · have hle := h.filled.stocked.live_le
    rw [hfull] at hle
    simp only [htop, iff_true]
    exact ⟨Nat.le_antisymm h.filled.size (Nat.le_of_mul_le_mul_right hle hpos), hfull⟩

/-- When an allocation is refused. -/
theorem allocWith_eq_error_iff (h : Stacked pool s) (make : Ptr → Except Fault α) (e : Fault) :
    ((allocWith make).outcome pool).1 = .error e ↔
      pool.Exhausted ∧ e = .tooManyChunks ∨ ∃ ptr, pool.Offers ptr ∧ make ptr = .error e := by
  simp only [h.offers_iff, h.exhausted_iff]
  rcases h.allocWith_run make with ⟨ptr, v, pool', htop, hmake, hrun, -⟩ |
    ⟨ptr, e', pool', htop, hmake, hrun, -⟩ | ⟨htop, -, hrun, -⟩
  · simp [Action.outcome, hrun, htop, hmake]
  · simp [Action.outcome, hrun, htop, hmake]
  · simp [Action.outcome, hrun, htop, eq_comm]

/-- When a deallocation is refused. -/
theorem dealloc_eq_error_iff (h : Stacked pool s) (ptr : Ptr) (e : Fault) :
    ((dealloc ptr).outcome pool).1 = .error e ↔
      pool.get? ptr = none ∧ e = if pool.live = 0 then .emptyPool ptr else .notAllocated ptr := by
  cases hv : pool.get? ptr with
  | some v =>
      obtain ⟨pool', hrun, -⟩ := h.dealloc_run hv
      simp [Action.outcome, hrun]
  | none => simp [Action.outcome, h.sound.dealloc_refused hv, eq_comm]

/-- An operation is refused exactly if it is an offence. -/
theorem refused_iff (h : Stacked pool s) (op : Op α) (e : Fault) :
    (op.run.outcome pool).1 = .error e ↔ op.Refused pool e := by
  cases op with
  | alloc v =>
      rw [Op.run, Action.outcome_map_eq_error_iff, alloc, h.allocWith_eq_error_iff]
      simp [Op.Refused]
  | allocWith make =>
      rw [Op.run, Action.outcome_map_eq_error_iff, h.allocWith_eq_error_iff]
      rfl
  | construct make =>
      rw [Op.run, Action.outcome_map_eq_error_iff, construct, h.allocWith_eq_error_iff]
      simp [Op.Refused]
  | dealloc ptr =>
      rw [Op.run, Action.outcome_map_eq_error_iff, h.dealloc_eq_error_iff]
      rfl
  | tryDealloc ptr =>
      cases hv : pool.get? ptr with
      | some v =>
          obtain ⟨pool', hrun, -⟩ := h.tryDealloc_run hv
          simp [Op.run, Action.outcome, hrun, Op.Refused]
      | none => simp [Op.run, Action.outcome, h.sound.tryDealloc_none hv, Op.Refused]
  | destroy ptr =>
      rw [Op.run, Action.outcome_map_eq_error_iff, destroy_eq, Action.outcome_map_eq_error_iff,
        h.dealloc_eq_error_iff]
      rfl
  | update ptr f =>
      cases hv : pool.get? ptr with
      | some v => simp [Op.run, Action.outcome, update_run hv, Op.Refused, hv]
      | none => simp [Op.run, Action.outcome, update_refused hv, Op.Refused, hv, eq_comm]
  | update? ptr f =>
      cases hv : pool.get? ptr with
      | some v => simp [Op.run, Action.outcome, update?_run hv, Op.Refused]
      | none => simp [Op.run, Action.outcome, update?_none hv, Op.Refused]
  | visit f =>
      obtain ⟨pool', hrun, -⟩ := visit_run f pool
      simp [Action.outcome, hrun, Op.Refused]
  | clear =>
      obtain ⟨pool', hrun, -⟩ := clear_run pool
      simp [Op.run, Action.outcome, hrun, Op.Refused]

end Stacked

/-! ### Dependable pools -/

/-- A pool fails for the offences of its user and for nothing else. -/
structure Dependable (pool : Pool α) : Prop where
  /-- Its bookkeeping is right. -/
  tidy : Tidy pool
  /-- An operation is refused exactly if it is an offence. -/
  refused_iff : ∀ (op : Op α) e, (op.run.outcome pool).1 = .error e ↔ op.Refused pool e
  /-- No guard fails. A fault that reads like one is that of a constructor of the user. -/
  guard : ∀ (op : Op α) e, e.isGuard = true → (op.run.outcome pool).1 = .error e →
    ∃ make ptr, op = .allocWith make ∧ pool.Offers ptr ∧ make ptr = .error e
  /-- Reading fails only where no value is. -/
  read_eq_error_iff : ∀ ptr e, pool.read ptr = .error e ↔ pool.get? ptr = none ∧ e = .invalidPtr
  /-- The pointers that an iteration yields can be built. -/
  ptrAt_of_mem : ∀ ptr v, (ptr, v) ∈ pool.toList → ptrAt ⟨ptr.chunk⟩ ptr.pos = .ok ptr
  /-- The figures can be told. -/
  stats : ∃ stats, pool.stats = .ok stats
  /-- A pool is not to be given up while it has live entries. -/
  close_eq_error_iff : ∀ failing e, (pool.close failing).2 = .error e ↔
    pool.live ≠ 0 ∧ failing = false ∧ e = .poolInUse pool.live

/-- The pointer to a live entry can be built. -/
theorem Stocked.ptrAt_of_get? (h : Stocked pool) {ptr : Ptr} {v : α}
    (hv : pool.get? ptr = some v) : ptrAt ⟨ptr.chunk⟩ ptr.pos = .ok ptr := by
  obtain ⟨c, hc, hvc⟩ := h.get?_eq_some_iff.1 hv
  obtain ⟨free, hfree⟩ := h.chunk ptr.chunk c hc
  have hchunk : ¬ maxChunks ≤ ptr.chunk :=
    Nat.not_le.2 (Nat.lt_of_lt_of_le (lt_of_chunk hc) h.size)
  have hpos : ptr.pos ≠ noPos := hfree.ne_noPos_of_lt (hfree.size ▸ Chunk.lt_of_get? hvc)
  simp [ptrAt, hchunk, hpos]

/-- A pool that is described by stacks fails for offences only. -/
theorem Stacked.dependable (h : Stacked pool s) : Dependable pool where
  tidy := h.tidy
  refused_iff := h.refused_iff
  guard op e he herror := ((h.refused_iff op e).1 herror).of_isGuard he
  read_eq_error_iff ptr e := by
    cases hv : pool.get? ptr with
    | some v => simp [read, hv]
    | none => simp [read, hv, eq_comm]
  ptrAt_of_mem ptr v hmem := h.filled.stocked.ptrAt_of_get? (h.sound.mem_toList.1 hmem)
  stats := ⟨_, h.stats_run⟩
  close_eq_error_iff failing e := by
    cases failing <;> by_cases hlive : pool.live = 0 <;> simp [close, hlive, eq_comm]

/-- Whatever was done with a pool, it fails for the offences of its user and for nothing else. -/
theorem dependable_history (capacity : Capacity) (ops : List (Op α)) :
    Dependable (history capacity ops).2 :=
  (inStep_history capacity ops).stacked.dependable

/-- The guards are not idle: one fails on a pool that lists a full chunk. -/
example : ((alloc 7).outcome
    { capacity := ⟨1, by decide, by decide⟩
      chunks := #[⟨#[.busy 5], noPos, 1, .unlinked⟩]
      freeChunk := ⟨⟨0⟩⟩
      live := 1 : Pool Nat }).1 = .error .listedChunkFull := by rfl

end Pool

end SlabGraph
