import Mathlib.Algebra.Order.Floor.Div
import SlabGraph.Proofs.Conservation

/-!
# Where a Pool Stores Values

A pool allocates like two levels of stacks (`Stacks`), whatever is done with it: the pointers that
it issues over a run of operations are those that the stacks issue. Deallocations at pointers that
are stale, reserved or from another pool do nothing on either side, and an allocation whose value
cannot be built does no more than to open a chunk.

Two figures of a pool follow. A chunk is opened only when all are full, so that there are as many
chunks as the most crowded allocation since the last `Pool.clear` needed. And the chunks with space
are those with fewer live entries than they have places.

## Main definitions

* `Stacks.serve`, an operation on the stacks, and `Stacks.history`;
* `Pool.peak`, the greatest number of entries that an allocation was to reach;
* `Pool.liveIn`, the number of live entries of a chunk;
* `Pool.AllocatesLikeStacks`.

## Main result

* `Pool.allocation_policy`.
-/

namespace SlabGraph

variable {α : Type}

/-! ### Operations on the stacks -/

namespace Stacks

/-- A place is taken for the value that is built for it, if it can be built. Answers the place. -/
def store (capacity : Nat) (make : Ptr → Except Fault α) (s : Stacks) : Option Ptr × Stacks :=
  match (s.grown capacity).top? with
  | none => (none, s.grown capacity)
  | some ptr => match make ptr with
    | .ok _ => (some ptr, (s.grown capacity).pop)
    | .error _ => (none, s.grown capacity)

/-- A place is given back, if it was taken. -/
def release (capacity : Nat) (ptr : Ptr) (s : Stacks) : Stacks :=
  if s.isLive capacity ptr then s.push ptr else s

/-- Carries an operation out. Answers the place at which a value was stored. -/
def serve (capacity : Nat) (s : Stacks) : Pool.Op α → Option Ptr × Stacks
  | .alloc v => s.store capacity fun _ => .ok v
  | .allocWith make => s.store capacity make
  | .construct make => s.store capacity fun ptr => .ok (make ptr)
  | .dealloc ptr | .tryDealloc ptr | .destroy ptr => (none, s.release capacity ptr)
  | .update _ _ | .update? _ _ | .visit _ => (none, s)
  | .clear => (none, .empty)

/-- Carries an operation out and enters its answer. -/
def perform (capacity : Nat) (s : List (Option Ptr) × Stacks) (op : Pool.Op α) :
    List (Option Ptr) × Stacks :=
  ((s.2.serve capacity op).1 :: s.1, (s.2.serve capacity op).2)

/-- The answers to a run of operations, the newest first, and the stacks after it. -/
def history (capacity : Nat) (ops : List (Pool.Op α)) : List (Option Ptr) × Stacks :=
  ops.foldl (perform capacity) ([], .empty)

variable {s : Stacks} {capacity : Nat}

/-- Taking a place adds no chunk. -/
theorem length_pop (s : Stacks) : s.pop.free.length = s.free.length := by
  unfold pop
  split <;> simp

/-- Of what a store does, only the growth adds chunks. -/
theorem length_store (s : Stacks) (capacity : Nat) (make : Ptr → Except Fault α) :
    (s.store capacity make).2.free.length = (s.grown capacity).free.length := by
  unfold store
  split
  · rfl
  · split
    · exact length_pop _
    · rfl

/-- Giving a place back adds no chunk. -/
theorem length_release (s : Stacks) (capacity : Nat) (ptr : Ptr) :
    (s.release capacity ptr).free.length = s.free.length := by
  unfold release
  split
  · simp [push]
  · rfl

end Stacks

namespace Pool

/-- The pointer that an answer issues. -/
def issued? : Except Fault (Answer α) → Option Ptr
  | .ok (.stored ptr) => some ptr
  | _ => none

variable {pool : Pool α} {s : Stacks}

/-- The places that are taken are those that hold a value. -/
theorem Stacked.isLive_eq (h : Stacked pool s) (ptr : Ptr) :
    s.isLive pool.capacity.entries ptr = (pool.get? ptr).isSome := by
  rw [Bool.eq_iff_iff, Stacks.isLive, decide_eq_true_iff, Option.isSome_iff_exists]
  simp only [h.filled.stocked.get?_eq_some_iff]
  constructor
  · rintro ⟨hlt, hpos, hnot⟩
    obtain ⟨c, hc⟩ := h.filled.exists_chunk hlt
    have hsome := ((h.filled.chunk _ c hc).isSome_get?_iff ptr.pos).2 ⟨hpos, hnot⟩
    obtain ⟨v, hv⟩ := Option.isSome_iff_exists.1 hsome
    exact ⟨v, c, hc, hv⟩
  · rintro ⟨v, c, hc, hv⟩
    have hsome : (c.get? ptr.pos).isSome = true := by rw [hv]; rfl
    exact ⟨h.filled.length ▸ lt_of_chunk hc, ((h.filled.chunk _ c hc).isSome_get?_iff _).1 hsome⟩

/-- An operation does to a pool what it does to its stacks. -/
structure Served (x : Action (Pool α) (Answer α)) (pool : Pool α) (served : Option Ptr × Stacks) :
    Prop where
  stacked : Stacked (x.after pool) served.2
  capacity : (x.after pool).capacity = pool.capacity
  issued : issued? (x.outcome pool).1 = served.1

/-- An operation whose answers are no pointers issues none. -/
theorem issued?_map {β : Type} {f : β → Answer α} (hf : ∀ b, issued? (.ok (f b)) = none)
    (x : Action (Pool α) β) (pool : Pool α) : issued? ((f <$> x).outcome pool).1 = none := by
  rw [Action.outcome_map]
  cases (x.outcome pool).1 with
  | ok b => exact hf b
  | error e => rfl

/-- Destroying a value is a deallocation that finalises it. -/
theorem destroy_eq (ptr : Ptr) :
    (destroy ptr : Action (Pool α) (List α)) = (fun v => [v]) <$> dealloc ptr := rfl

/-- Writing to an entry, if it is live, keeps the shape of a pool. -/
theorem sameShape_update? (ptr : Ptr) (f : α → α) (pool : Pool α) :
    SameShape pool ((update? ptr f).after pool) := by
  cases hv : pool.get? ptr with
  | none => rw [Action.after_of_ok (update?_none hv f)]; exact .refl pool
  | some v => rw [Action.after_of_ok (update?_run hv f)]; exact sameShape_replace pool ptr _

/-- Writing to an entry keeps the shape of a pool, also if it is refused. -/
theorem sameShape_update (ptr : Ptr) (f : α → α) (pool : Pool α) :
    SameShape pool ((update ptr f).after pool) := by
  cases hv : pool.get? ptr with
  | none => rw [Action.after_of_error (update_refused hv f)]; exact .refl pool
  | some v => rw [Action.after_of_ok (update_run hv f)]; exact sameShape_replace pool ptr _

namespace Stacked

/-- Allocations. -/
theorem served_store (h : Stacked pool s) (make : Ptr → Except Fault α) :
    Served (.stored <$> allocWith make) pool (s.store pool.capacity.entries make) := by
  rcases h.allocWith_run make with ⟨ptr, v, pool', htop, hmake, hrun, hpool, hs⟩ |
    ⟨ptr, e, pool', htop, hmake, hrun, hpool, hs⟩ | ⟨htop, hsame, hrun, -⟩
  · have hstore : s.store pool.capacity.entries make =
        (some ptr, (s.grown pool.capacity.entries).pop) := by
      simp [Stacks.store, htop, hmake]
    have hafter := Action.after_of_ok hrun
    rw [hstore]
    refine ⟨?_, ?_, by simp [Action.outcome, hrun, issued?]⟩
    · rwa [Action.after_map, hafter]
    · rw [Action.after_map, hafter, hpool.capacity]
  · have hstore : s.store pool.capacity.entries make = (none, s.grown pool.capacity.entries) := by
      simp [Stacks.store, htop, hmake]
    have hafter := Action.after_of_error hrun
    rw [hstore]
    refine ⟨?_, ?_, by simp [Action.outcome, hrun, issued?]⟩
    · rwa [Action.after_map, hafter]
    · rw [Action.after_map, hafter, hpool.capacity]
  · have hstore : s.store pool.capacity.entries make = (none, s) := by
      simp [Stacks.store, hsame, show s.top? = none from hsame ▸ htop]
    have hafter := Action.after_of_error hrun
    rw [hstore]
    refine ⟨?_, ?_, by simp [Action.outcome, hrun, issued?]⟩
    · rwa [Action.after_map, hafter]
    · rw [Action.after_map, hafter]

/-- Taking a value out gives its place back, and nothing else is given back. -/
theorem after_tryDealloc (h : Stacked pool s) (ptr : Ptr) :
    Stacked ((tryDealloc ptr).after pool) (s.release pool.capacity.entries ptr) ∧
      ((tryDealloc ptr).after pool).capacity = pool.capacity := by
  have hlive := h.isLive_eq ptr
  cases hv : pool.get? ptr with
  | some v =>
      obtain ⟨pool', hrun, hpool, hs⟩ := h.tryDealloc_run hv
      rw [Action.after_of_ok hrun, Stacks.release, hlive, hv]
      exact ⟨hs, hpool.capacity⟩
  | none =>
      rw [Action.after_of_ok (h.sound.tryDealloc_none hv), Stacks.release, hlive, hv]
      exact ⟨h, rfl⟩

/-- A deallocation leaves the same pool behind whether or not it is allowed to find nothing. -/
theorem after_dealloc (h : Stacked pool s) (ptr : Ptr) :
    (dealloc ptr).after pool = (tryDealloc ptr).after pool := by
  cases hv : pool.get? ptr with
  | some v =>
      obtain ⟨pool', hrun, hpool, -⟩ := h.tryDealloc_run hv
      rw [Action.after_of_ok hrun, Action.after_of_ok (dealloc_of_tryDealloc hrun hpool)]
  | none =>
      rw [Action.after_of_ok (h.sound.tryDealloc_none hv),
        Action.after_of_error (h.sound.dealloc_refused hv)]

/-- Writing values leaves the stacks alone. -/
theorem served_write (h : Stacked pool s) {x : Action (Pool α) (Answer α)}
    (hshape : SameShape pool (x.after pool)) (hissued : issued? (x.outcome pool).1 = none) :
    Served x pool (none, s) :=
  ⟨h.congr hshape, hshape.capacity, hissued⟩

/-- Every operation does to a pool what it does to its stacks. -/
theorem served (h : Stacked pool s) (op : Op α) :
    Served op.run pool (s.serve pool.capacity.entries op) := by
  obtain ⟨hrelease, hcap⟩ := forall_and.1 h.after_tryDealloc
  cases op with
  | alloc v => exact h.served_store fun _ => .ok v
  | allocWith make => exact h.served_store make
  | construct make => exact h.served_store fun ptr => .ok (make ptr)
  | dealloc ptr =>
      have hafter : (Op.dealloc ptr).run.after pool = (tryDealloc ptr).after pool := by
        rw [Op.run, Action.after_map, h.after_dealloc]
      exact ⟨hafter ▸ hrelease ptr, hafter ▸ hcap ptr, issued?_map (fun _ => rfl) _ pool⟩
  | tryDealloc ptr =>
      have hafter : (Op.tryDealloc ptr).run.after pool = (tryDealloc ptr).after pool := by
        rw [Op.run, Action.after_map]
      exact ⟨hafter ▸ hrelease ptr, hafter ▸ hcap ptr, issued?_map (fun _ => rfl) _ pool⟩
  | destroy ptr =>
      have hafter : (Op.destroy ptr).run.after pool = (tryDealloc ptr).after pool := by
        rw [Op.run, Action.after_map, destroy_eq, Action.after_map, h.after_dealloc]
      exact ⟨hafter ▸ hrelease ptr, hafter ▸ hcap ptr, issued?_map (fun _ => rfl) _ pool⟩
  | update ptr f =>
      refine h.served_write ?_ (issued?_map (fun _ => rfl) _ pool)
      rw [Op.run, Action.after_map]
      exact sameShape_update ptr f pool
  | update? ptr f =>
      refine h.served_write ?_ (issued?_map (fun _ => rfl) _ pool)
      rw [Op.run, Action.after_map]
      exact sameShape_update? ptr f pool
  | visit f =>
      obtain ⟨pool', hrun, hshape, -⟩ := visit_run f pool
      exact h.served_write (Action.after_of_ok hrun ▸ hshape) (by rw [Action.outcome, hrun]; rfl)
  | clear =>
      refine ⟨?_, ?_, issued?_map (fun _ => rfl) _ pool⟩
      · exact stacked_of_empty rfl rfl rfl
      · rfl

end Stacked

/-! ### Runs -/

/-- A pool and its stacks after the same operations, and what both have issued. -/
structure InStep (capacity : Capacity) (x : Log α × Pool α) (y : List (Option Ptr) × Stacks) :
    Prop where
  stacked : Stacked x.2 y.2
  capacity : x.2.capacity = capacity
  issued : x.1.map (fun entry => issued? entry.2) = y.1

/-- A pool and its stacks stay in step with each operation. -/
theorem InStep.perform {capacity : Capacity} {x : Log α × Pool α} {y : List (Option Ptr) × Stacks}
    (h : InStep capacity x y) (op : Op α) :
    InStep capacity (Pool.perform x op) (Stacks.perform capacity.entries y op) := by
  have hserved := h.capacity ▸ h.stacked.served op
  refine ⟨hserved.stacked, hserved.capacity.trans h.capacity, ?_⟩
  exact congrArg₂ List.cons hserved.issued h.issued

/-- A pool and its stacks are in step after every run of operations. -/
theorem inStep_history (capacity : Capacity) (ops : List (Op α)) :
    InStep capacity (history capacity ops) (Stacks.history capacity.entries ops) := by
  have hrun : ∀ (ops : List (Op α)) x y, InStep capacity x y →
      InStep capacity (ops.foldl Pool.perform x)
        (ops.foldl (Stacks.perform capacity.entries) y) := by
    intro ops
    induction ops with
    | nil => exact fun x y h => h
    | cons op ops ih => exact fun x y h => ih _ _ (h.perform op)
  exact hrun ops _ _ ⟨stacked_of_empty rfl rfl rfl, rfl, rfl⟩

/-! ### The number of chunks -/

/-- A pool that has a chunk with space holds less than its chunks can. -/
theorem Stocked.live_lt (h : Stocked pool) {i : Nat} {c : Chunk α} (hc : pool.chunks[i]? = some c)
    (hspace : c.busy < pool.capacity.entries) :
    pool.live < pool.chunks.size * pool.capacity.entries := by
  -- if this chunk were full, there would be room for the others still
  have hfull := sum_busy_set { c with busy := pool.capacity.entries } (l := pool.chunks.toList)
    (by simpa using hc)
  have hle : ∀ n ∈ (pool.chunks.toList.set i { c with busy := pool.capacity.entries }).map
      Chunk.busy, n ≤ pool.capacity.entries := by
    intro n hn
    obtain ⟨d, hd, rfl⟩ := List.mem_map.1 hn
    rcases List.mem_or_eq_of_mem_set hd with hd | rfl
    · obtain ⟨j, hj⟩ := List.mem_iff_getElem?.1 hd
      obtain ⟨free, hfree⟩ := h.chunk j d (by simpa using hj)
      have := hfree.busy
      omega
    · exact Nat.le_refl _
  have hsum := List.sum_le_card_nsmul _ _ hle
  have hlive := h.live
  simp only [List.length_map, List.length_set, Array.length_toList, smul_eq_mul] at hsum
  simp only at hfull
  omega

/-- A pool with a place on top holds less than its chunks can. -/
theorem Stacked.live_lt_of_top? (h : Stacked pool s) {ptr : Ptr} (htop : s.top? = some ptr) :
    pool.live < pool.chunks.size * pool.capacity.entries := by
  obtain ⟨spare, rest, -, hstack, -⟩ := Stacks.exists_of_top? htop
  obtain ⟨c, hc⟩ := h.filled.exists_chunk (Stacks.lt_of_stack (i := ptr.chunk) (by simp [hstack]))
  have hbusy := (h.filled.chunk ptr.chunk c hc).busy
  rw [hstack, List.length_cons] at hbusy
  exact h.filled.stocked.live_lt hc (by omega)

/-- After a chunk was opened there are as many as the next entry needs, if there were not more, but
no more than pointers can name. -/
theorem Stacked.length_grown (h : Stacked pool s) :
    (s.grown pool.capacity.entries).free.length =
      min maxChunks (max pool.chunks.size ((pool.live + 1) ⌈/⌉ pool.capacity.entries)) := by
  have hpos := pool.capacity.pos
  have hlength := h.filled.length
  have hmax := h.filled.size
  cases hspare : s.spare with
  | nil =>
      have hlive := h.live_eq_of_full hspare
      have hneed : (pool.live + 1) ⌈/⌉ pool.capacity.entries = pool.chunks.size + 1 := by
        refine eq_of_forall_ge_iff fun n => ?_
        rw [ceilDiv_le_iff_le_mul hpos, hlive, Nat.mul_comm _ n, Nat.succ_le_iff, Nat.succ_le_iff]
        exact Nat.mul_lt_mul_right hpos
      rw [hneed]
      by_cases hroom : s.free.length < maxChunks
      · rw [Stacks.grown_of_room hspare hroom, List.length_append, List.length_singleton]
        omega
      · rw [Stacks.grown_of_no_room (Nat.not_lt.1 hroom)]
        omega
  | cons i spare =>
      obtain ⟨pos, rest, -, htop⟩ := h.consistent.exists_top hspare
      have hlt := h.live_lt_of_top? htop
      have hneed : (pool.live + 1) ⌈/⌉ pool.capacity.entries ≤ pool.chunks.size :=
        (ceilDiv_le_iff_le_mul hpos).2 (by rw [Nat.mul_comm]; exact hlt)
      rw [Stacks.grown_of_spare (by simp [hspare])]
      omega

/-- The greatest number of entries that an allocation was to reach since the pool was last empty of
chunks, after an operation on a pool with so many live entries. -/
def Op.peakAfter (live peak : Nat) : Op α → Nat
  | alloc _ | allocWith _ | construct _ => max peak (live + 1)
  | clear => 0
  | _ => peak

/-- Carries an operation out and keeps the greatest number of entries up to date. -/
def performPeak (x : Nat × Pool α) (op : Op α) : Nat × Pool α :=
  (op.peakAfter x.2.live x.1, op.run.after x.2)

/-- The greatest number of live entries that an allocation found since the pool was last cleared,
with the entry that it asked for, or nothing if there was no allocation. -/
def peak (capacity : Capacity) (ops : List (Op α)) : Nat :=
  (ops.foldl performPeak (0, new capacity)).1

/-- There are as many chunks as the peak needs. -/
def PeakSized (x : Nat × Pool α) : Prop :=
  x.2.chunks.size = min maxChunks (x.1 ⌈/⌉ x.2.capacity.entries)

/-- After an operation, there are as many chunks as the peak needs, if there were before. -/
theorem PeakSized.performPeak {x : Nat × Pool α} (hsize : PeakSized x) (h : Stacked x.2 s)
    (op : Op α) : PeakSized (Pool.performPeak x op) := by
  obtain ⟨peak, pool⟩ := x
  simp only [PeakSized, Pool.performPeak] at hsize h ⊢
  have hserved := h.served op
  have hpos := pool.capacity.pos
  have hstore : ∀ make : Ptr → Except Fault α, (s.store pool.capacity.entries make).2.free.length =
      min maxChunks ((max peak (pool.live + 1)) ⌈/⌉ pool.capacity.entries) := by
    intro make
    rw [Stacks.length_store, h.length_grown, hsize, (gc_mul_ceilDiv hpos).monotone_l.map_max]
    omega
  have hrelease : ∀ ptr, (s.release pool.capacity.entries ptr).free.length =
      min maxChunks (peak ⌈/⌉ pool.capacity.entries) := by
    intro ptr
    rw [Stacks.length_release, h.filled.length, hsize]
  rw [← hserved.stacked.filled.length, hserved.capacity]
  cases op with
  | alloc v => exact hstore _
  | allocWith make => exact hstore _
  | construct make => exact hstore _
  | dealloc ptr | tryDealloc ptr | destroy ptr => exact hrelease ptr
  | update ptr f | update? ptr f => exact h.filled.length.trans hsize
  | visit f => exact h.filled.length.trans hsize
  | clear => simp [Stacks.serve, Stacks.empty, Op.peakAfter]

/-- After a run of operations, there are still as many chunks as the peak needs. -/
theorem peakSized_foldl {x : Nat × Pool α} (hsize : PeakSized x) (h : Stacked x.2 s)
    (ops : List (Op α)) : PeakSized (ops.foldl performPeak x) := by
  induction ops generalizing x s with
  | nil => exact hsize
  | cons op ops ih => exact ih (hsize.performPeak h op) (h.served op).stacked

/-- Keeping the peak does not change what the operations do to the pool. -/
theorem foldl_performPeak_snd (ops : List (Op α)) (x : Nat × Pool α) (log : Log α) :
    (ops.foldl performPeak x).2 = (ops.foldl perform (log, x.2)).2 := by
  induction ops generalizing x log with
  | nil => rfl
  | cons op ops ih => exact ih _ _

/-- After a run of operations on a new pool, there are as many chunks as the peak needs. -/
theorem size_history (capacity : Capacity) (ops : List (Op α)) :
    (history capacity ops).2.chunks.size =
      min maxChunks (peak capacity ops ⌈/⌉ capacity.entries) := by
  have hsize : PeakSized (0, (new capacity : Pool α)) := by simp [PeakSized, new]
  have hpeak := peakSized_foldl hsize (stacked_of_empty rfl rfl rfl) ops
  rw [PeakSized, foldl_performPeak_snd ops _ []] at hpeak
  rw [history, hpeak, peak]
  exact congrArg (fun c : Capacity => min maxChunks (_ ⌈/⌉ c.entries))
    (inStep_history capacity ops).capacity

/-! ### The chunks with space -/

/-- The number of live entries of a chunk. -/
def liveIn (pool : Pool α) (i : Nat) : Nat := pool.toList.countP fun x => x.1.chunk = i

/-- The positions of a chunk that hold a value, in terms of the visit and of the stack. -/
theorem Stacked.perm_live (h : Stacked pool s) {i : Nat} (hi : i < s.free.length) :
    ((pool.toList.filter fun x => x.1.chunk = i).map fun x => x.1.pos).Perm
      ((List.range pool.capacity.entries).filter (· ∉ s.stack i)) := by
  obtain ⟨m, hm⟩ := exists_lists (pairwise_toList pool)
  refine (List.perm_ext_iff_of_nodup ?_ (List.nodup_range.filter _)).2 fun pos => ?_
  · refine List.Nodup.map_on ?_ ((List.Nodup.of_map _ hm.nodup).filter _)
    rintro ⟨⟨j, p⟩, v⟩ hx ⟨⟨k, q⟩, w⟩ hy hpos
    simp only [List.mem_filter, decide_eq_true_eq] at hx hy hpos
    refine List.inj_on_of_nodup_map hm.nodup hx.1 hy.1 ?_
    exact congrArg₂ Ptr.mk (hx.2.trans hy.2.symm) hpos
  · have hlive := h.isLive_eq ⟨i, pos⟩
    rw [Bool.eq_iff_iff, Stacks.isLive, decide_eq_true_iff, Option.isSome_iff_exists] at hlive
    simp only [hi, true_and] at hlive
    simp only [List.mem_map, List.mem_filter, List.mem_range, decide_eq_true_eq, hlive,
      ← h.sound.mem_toList]
    constructor
    · rintro ⟨⟨⟨j, q⟩, v⟩, ⟨hmem, rfl⟩, rfl⟩
      exact ⟨v, hmem⟩
    · rintro ⟨v, hmem⟩
      exact ⟨_, ⟨hmem, rfl⟩, rfl⟩

/-- The places of a chunk are free or hold a value. -/
theorem Stacked.liveIn_add (h : Stacked pool s) {i : Nat} (hi : i < s.free.length) :
    pool.liveIn i + (s.stack i).length = pool.capacity.entries := by
  obtain ⟨c, hc⟩ := h.filled.exists_chunk hi
  have hsound := h.filled.chunk i c hc
  have hlive := (h.perm_live hi).length_eq
  rw [List.length_map, ← List.countP_eq_length_filter] at hlive
  have hfree : ((List.range pool.capacity.entries).filter (· ∈ s.stack i)).Perm (s.stack i) := by
    refine (List.perm_ext_iff_of_nodup (List.nodup_range.filter _) hsound.nodup).2 fun pos => ?_
    simp only [List.mem_filter, List.mem_range, decide_eq_true_eq]
    exact and_iff_right_of_imp hsound.lt_of_mem
  have hall := List.length_eq_length_filter_add (l := List.range pool.capacity.entries)
    fun pos => decide (pos ∈ s.stack i)
  simp only [List.length_range, hfree.length_eq, ← decide_not] at hall
  rw [liveIn, hlive]
  omega

/-- The list of chunks with space holds those with fewer live entries than they have places. -/
theorem Stacked.length_spare (h : Stacked pool s) :
    s.spare.length = (List.range pool.chunks.size).countP fun i =>
      pool.liveIn i < pool.capacity.entries := by
  rw [List.countP_eq_length_filter]
  refine List.Perm.length_eq ?_
  refine (List.perm_ext_iff_of_nodup h.consistent.nodup (List.nodup_range.filter _)).2 fun i => ?_
  rw [h.consistent.mem_iff, List.mem_filter, List.mem_range, decide_eq_true_iff,
    ← h.filled.length]
  constructor
  · intro hi
    have hlt := Stacks.lt_of_stack hi
    have := h.liveIn_add hlt
    have := List.length_pos_of_ne_nil hi
    exact ⟨hlt, by omega⟩
  · rintro ⟨hlt, hlive⟩ hnil
    have := h.liveIn_add hlt
    rw [hnil, List.length_nil] at this
    omega

/-- The walk along the list of chunks with space ends, and meets those on the stack of chunks. -/
theorem Stacked.chunksWithSpace_run (h : Stacked pool s) :
    pool.chunksWithSpace = .ok (s.spare.map .mk) := by
  have hlength : (s.spare.map Index.mk : List ChunkIndex).length ≤ pool.chunks.size := by
    rw [List.length_map, h.length_spare]
    exact List.countP_le_length.trans_eq List.length_range
  rw [chunksWithSpace, h.listed.head]
  exact Chain.walk_run h.listed.list hlength

/-- The figures of a pool. -/
theorem Stacked.stats_run (h : Stacked pool s) :
    pool.stats = .ok ⟨pool.live, pool.chunks.size, s.spare.length, pool.capacity.entries⟩ := by
  simp [stats, h.chunksWithSpace_run, pure, Except.pure]

/-! ### The policy -/

/-- A pool after some operations allocates like stacks. -/
structure AllocatesLikeStacks (capacity : Capacity) (ops : List (Op α)) : Prop where
  /-- The pointers that the operations issued are those that the stacks issue. -/
  issued : (history capacity ops).1.map (fun entry => issued? entry.2) =
    (Stacks.history capacity.entries ops).1
  /-- There are as many chunks as the peak needs, and no more than pointers can name. -/
  chunks : (history capacity ops).2.chunks.size =
    min maxChunks (peak capacity ops ⌈/⌉ capacity.entries)
  /-- The figures tell the number of chunks and of those with fewer live entries than places. -/
  stats : (history capacity ops).2.stats = .ok {
    live := (history capacity ops).2.live
    chunks := (history capacity ops).2.chunks.size
    chunksWithSpace := (List.range (history capacity ops).2.chunks.size).countP fun i =>
      (history capacity ops).2.liveIn i < capacity.entries
    capacity := capacity.entries }

/-- Whatever is done with a pool, it allocates like stacks. -/
theorem allocation_policy (capacity : Capacity) (ops : List (Op α)) :
    AllocatesLikeStacks capacity ops := by
  have h := inStep_history capacity ops
  refine ⟨h.issued, size_history capacity ops, ?_⟩
  rw [h.stacked.stats_run, h.stacked.length_spare, h.capacity]

/-- A chunk that gets space again is used before the one that was used last. -/
example : (Stacks.history 2 [.alloc 5, .alloc 6, .alloc 7, .dealloc ⟨0, 1⟩, .alloc 8]).1 =
    [some ⟨0, 1⟩, none, some ⟨1, 0⟩, some ⟨0, 1⟩, some ⟨0, 0⟩] := by decide

end Pool

end SlabGraph
