import SlabGraph.Proofs.Pool.Policy

/-!
# Allocations That Are Undone

An allocation comes to nothing if its value cannot be built, and also if the value is taken out
again at once. Both leave the same pool behind. If there was a chunk with space it is the pool from
before. Otherwise a chunk was opened, and it stays.

Nobody notices that chunk. It is the last one to be used, behind all chunks that get space in the
meantime, so that the two pools store values at the same places until the one without the chunk has
to open it too. From then on they are equal, and they are equal after `Pool.clear`. Up to there only
the number of chunks tells them apart, and the number of those with space.

On stacks this is one step of a simulation (`Stacks.serve_extended`). The answers of operations that
do not allocate follow from their contract.

## Main definitions

* `Stacks.extended`, the stacks with an empty chunk that is used last;
* `Pool.Ahead`, the simulation;
* `Pool.Undone`, what an allocation that is undone leaves behind;
* `Pool.Renewed`, whether a run opens a chunk or releases all of them;
* `Pool.Concealed`, whether a run cannot tell two pools apart.

## Main result

* `Pool.undone_allocation`.
-/

namespace SlabGraph

variable {α : Type}

/-! ### An empty chunk that is used last -/

namespace Stacks

/-- The stacks with one chunk more, which is empty and used last. -/
def extended (capacity : Nat) (s : Stacks) : Stacks where
  free := s.free ++ [List.range capacity]
  spare := s.spare ++ [s.free.length]

variable {s : Stacks} {capacity : Nat} {ptr : Ptr}

/-- The added chunk has all its positions free, and the other stacks are as before. -/
theorem stack_extended (capacity : Nat) (s : Stacks) (i : Nat) :
    (s.extended capacity).stack i =
      if i = s.free.length then List.range capacity else s.stack i :=
  stack_append s _ _ i

/-- With the added chunk, no other one is needed. -/
theorem grown_extended : (s.extended capacity).grown capacity = s.extended capacity :=
  grown_of_spare (by simp [extended])

/-- Without a chunk with space, the chunk that is opened is the one that is used last. -/
theorem grown_eq_extended (hspare : s.spare = []) (hroom : s.free.length < maxChunks) :
    s.grown capacity = s.extended capacity := by
  rw [grown_of_room hspare hroom, extended, hspare, List.nil_append]

/-- The place on top is in another chunk if there is one with space. -/
theorem top?_extended (h : s.top? = some ptr) : (s.extended capacity).top? = some ptr := by
  obtain ⟨spare, rest, hspare, hstack, -⟩ := exists_of_top? h
  have hlt : ptr.chunk < s.free.length := lt_of_stack (by simp [hstack])
  have hspare' : (s.extended capacity).spare = ptr.chunk :: (spare ++ [s.free.length]) := by
    simp [extended, hspare]
  simp [top?, hspare', stack_extended, Nat.ne_of_lt hlt, hstack]

/-- The place on top is taken from the old chunks as long as they have one. -/
theorem pop_extended (h : s.top? = some ptr) :
    (s.extended capacity).pop = s.pop.extended capacity := by
  obtain ⟨spare, rest, hspare, hstack, hpop⟩ := exists_of_top? h
  obtain ⟨spare', rest', hspare', hstack', hpop'⟩ := exists_of_top? (top?_extended h)
  have hlt : ptr.chunk < s.free.length := lt_of_stack (by simp [hstack])
  rw [stack_extended, if_neg (Nat.ne_of_lt hlt), hstack, List.cons.injEq] at hstack'
  obtain rfl := hstack'.2
  obtain rfl : spare ++ [s.free.length] = spare' := by simpa [extended, hspare] using hspare'
  rw [hpop', hpop]
  simp only [extended, List.set_append_left _ _ hlt, List.length_set, hspare]
  by_cases hrest : rest = [] <;> simp [hrest]

/-- The chunk is empty, so that no place of it is taken. -/
theorem isLive_extended (capacity : Nat) (s : Stacks) (ptr : Ptr) :
    (s.extended capacity).isLive capacity ptr = s.isLive capacity ptr := by
  rw [isLive, isLive, decide_eq_decide, stack_extended]
  simp only [extended, List.length_append, List.length_singleton]
  by_cases hlast : ptr.chunk = s.free.length
  · simp [hlast]
  · rw [if_neg hlast]
    exact and_congr_left' ⟨fun h => by omega, fun h => by omega⟩

/-- A place in an old chunk is given back to it, and the added chunk stays the last one. -/
theorem push_extended (h : ptr.chunk < s.free.length) :
    (s.extended capacity).push ptr = (s.push ptr).extended capacity := by
  rw [push, push, stack_extended, if_neg (Nat.ne_of_lt h)]
  simp only [extended, List.set_append_left _ _ h, List.length_set]
  by_cases hstack : s.stack ptr.chunk = [] <;> simp [hstack]

/-- A place is given back in the same way with the added chunk and without. -/
theorem release_extended (capacity : Nat) (s : Stacks) (ptr : Ptr) :
    (s.extended capacity).release capacity ptr = (s.release capacity ptr).extended capacity := by
  rw [release, release, isLive_extended]
  by_cases hlive : s.isLive capacity ptr = true
  · rw [if_pos hlive, if_pos hlive, push_extended (decide_eq_true_iff.1 hlive).1]
  · rw [if_neg hlive, if_neg hlive]

/-- A place that was taken is on top again after it was given back. -/
theorem push_pop (h : s.top? = some ptr) : s.pop.push ptr = s := by
  obtain ⟨spare, rest, hspare, hstack, hpop⟩ := exists_of_top? h
  have hlt : ptr.chunk < s.free.length := lt_of_stack (by simp [hstack])
  have hget : s.free[ptr.chunk] = ptr.pos :: rest := by
    simpa [stack, List.getElem?_eq_getElem hlt] using hstack
  have hfree : s.free.set ptr.chunk (ptr.pos :: rest) = s.free := by
    rw [← hget, List.set_getElem_self]
  simp only [push, hpop, stack_set s hlt, if_true, List.set_set, hfree]
  by_cases hrest : rest = [] <;> simp [hrest, ← hspare]

/-- If all old chunks are full, an allocation goes to the added chunk, or to the same chunk that is
opened for it. Both end the same. -/
theorem store_extended_of_full (hspare : s.spare = []) (hroom : s.free.length < maxChunks)
    (make : Ptr → Except Fault α) : (s.extended capacity).store capacity make =
      s.store capacity make := by
  rw [store, store, grown_extended, grown_eq_extended hspare hroom]

/-- If an old chunk has space, an allocation goes there, and the added chunk stays. -/
theorem store_extended_of_spare (h : s.Consistent) (hspare : s.spare ≠ [])
    (make : Ptr → Except Fault α) : (s.extended capacity).store capacity make =
      ((s.store capacity make).1, (s.store capacity make).2.extended capacity) := by
  obtain ⟨i, spare, hi⟩ := List.exists_cons_of_ne_nil hspare
  obtain ⟨pos, rest, -, htop⟩ := h.exists_top hi
  simp only [store, grown_extended, grown_of_spare hspare, top?_extended htop, htop]
  cases make ⟨i, pos⟩ with
  | ok v => exact congrArg (some _, ·) (pop_extended htop)
  | error e => rfl

/-- The answers are the same with the chunk and without. An operation that opens a chunk or releases
all of them makes the stacks equal, and every other one leaves them with that difference. -/
theorem serve_extended (capacity : Nat) (h : s.Consistent) (hroom : s.free.length < maxChunks)
    (op : Pool.Op α) :
    (op = .clear ∨ s.free.length < (s.serve capacity op).2.free.length →
      (s.extended capacity).serve capacity op = s.serve capacity op) ∧
    (¬ (op = .clear ∨ s.free.length < (s.serve capacity op).2.free.length) →
      (s.extended capacity).serve capacity op =
        ((s.serve capacity op).1, (s.serve capacity op).2.extended capacity)) := by
  have hstore : ∀ make : Ptr → Except Fault α,
      (s.free.length < (s.store capacity make).2.free.length →
        (s.extended capacity).store capacity make = s.store capacity make) ∧
      (¬ s.free.length < (s.store capacity make).2.free.length →
        (s.extended capacity).store capacity make =
          ((s.store capacity make).1, (s.store capacity make).2.extended capacity)) := by
    intro make
    rw [length_store]
    -- with space left, the chunk at the end is not reached; with none, it is what is opened
    by_cases hspare : s.spare = []
    · have hlt : s.free.length < (s.grown capacity).free.length := by
        rw [grown_of_room hspare hroom]
        simp
      exact ⟨fun _ => store_extended_of_full hspare hroom make, fun hnot => absurd hlt hnot⟩
    · rw [grown_of_spare hspare]
      exact ⟨fun hlt => absurd hlt (Nat.lt_irrefl _),
        fun _ => store_extended_of_spare h hspare make⟩
  cases op with
  | alloc v => simpa only [serve, reduceCtorEq, false_or] using hstore fun _ => .ok v
  | allocWith make => simpa only [serve, reduceCtorEq, false_or] using hstore make
  | construct make =>
      simpa only [serve, reduceCtorEq, false_or] using hstore fun ptr => .ok (make ptr)
  | dealloc ptr | tryDealloc ptr | destroy ptr =>
      simp only [serve, length_release, reduceCtorEq, lt_irrefl, false_or]
      exact ⟨False.elim, fun _ => congrArg (none, ·) (release_extended capacity s ptr)⟩
  | update ptr f | update? ptr f | visit f => simp [serve]
  | clear => simp [serve]

end Stacks

namespace Pool

variable {pool ahead : Pool α} {s : Stacks} {m : Contents α}

/-! ### What the contract leaves open -/

/-- The value of an allocation, built from the pointer it will have. -/
def Op.make? : Op α → Option (Ptr → Except Fault α)
  | alloc v => some fun _ => .ok v
  | allocWith make => some make
  | construct make => some fun ptr => .ok (make ptr)
  | _ => none

/-- An operation that stores a value is an allocation. -/
theorem Op.run_of_make? {op : Op α} {make : Ptr → Except Fault α} (h : op.make? = some make) :
    op.run = .stored <$> Pool.allocWith make := by
  cases op <;> cases h <;> rfl

/-- An allocation answers the place on top after a chunk was opened. -/
theorem Stacked.outcome_allocWith (h : Stacked pool s) (make : Ptr → Except Fault α) :
    ((allocWith make).outcome pool).1 = match (s.grown pool.capacity.entries).top? with
      | none => .error .tooManyChunks
      | some ptr => (make ptr).map fun _ => ptr := by
  rcases h.allocWith_run make with ⟨ptr, v, pool', htop, hmake, hrun, -, -⟩ |
    ⟨ptr, e, pool', htop, hmake, hrun, -, -⟩ | ⟨htop, -, hrun, -⟩
  · simp [Action.outcome, hrun, htop, hmake, Except.map]
  · simp [Action.outcome, hrun, htop, hmake, Except.map]
  · simp [Action.outcome, hrun, htop]

/-- A list of values with their pointers determines the map. -/
theorem Lists.map_eq {l : List (Ptr × α)} {m' : Contents α} (h : Lists l m) (h' : Lists l m') :
    m = m' :=
  Finmap.ext_lookup fun ptr => Option.ext fun v => by rw [← h.mem_iff, h'.mem_iff]

/-- What is held after a store is determined by what was held before and by the answer. -/
theorem Stores.map_eq {limit : Nat} {make : Ptr → Except Fault α} {m₁ m₂ : Contents α}
    {answer : Except Fault (Answer α)} (h₁ : Stores limit make m answer m₁)
    (h₂ : Stores limit make m answer m₂) : m₁ = m₂ := by
  cases answer with
  | ok answer =>
      obtain ⟨ptr, v, rfl, hv, -, rfl⟩ := h₁.of_ok
      obtain ⟨q, w, heq, hw, -, rfl⟩ := h₂.of_ok
      obtain rfl := Answer.stored.inj heq
      obtain rfl := Except.ok.inj (hv.symm.trans hw)
      rfl
  | error e => rw [h₁.of_error, h₂.of_error]

/-- The contract leaves nothing open but where an allocation stores its value. -/
theorem Op.Meets.unique {limit : Nat} {m₁ m₂ : Contents α} {a₁ a₂ : Except Fault (Answer α)}
    {op : Op α} (h₁ : op.Meets limit m a₁ m₁) (h₂ : op.Meets limit m a₂ m₂)
    (hmake : ∀ make, op.make? = some make → a₁ = a₂) : a₁ = a₂ ∧ m₁ = m₂ := by
  cases op with
  | alloc v =>
      obtain rfl := hmake _ rfl
      exact ⟨rfl, Stores.map_eq h₁ h₂⟩
  | allocWith make =>
      obtain rfl := hmake _ rfl
      exact ⟨rfl, Stores.map_eq h₁ h₂⟩
  | construct make =>
      obtain rfl := hmake _ rfl
      exact ⟨rfl, Stores.map_eq h₁ h₂⟩
  | dealloc ptr | tryDealloc ptr | destroy ptr | update ptr f | update? ptr f =>
      simp only [Meets] at h₁ h₂
      cases hv : m.lookup ptr <;> simp only [hv] at h₁ h₂ <;>
        exact ⟨h₁.1.trans h₂.1.symm, h₁.2.trans h₂.2.symm⟩
  | visit f =>
      obtain ⟨l, hl, rfl, hl₁⟩ := h₁
      obtain ⟨l', hl', rfl, hl₂⟩ := h₂
      obtain rfl := hl.eq hl'
      exact ⟨rfl, hl₁.map_eq hl₂⟩
  | clear =>
      obtain ⟨⟨l, hl, rfl⟩, rfl⟩ := h₁
      obtain ⟨⟨l', hl', rfl⟩, rfl⟩ := h₂
      obtain rfl := hl.eq hl'
      exact ⟨rfl, rfl⟩

/-! ### The simulation -/

/-- Whether an operation opens a chunk or releases all of them. -/
def Op.Renews (pool : Pool α) (op : Op α) : Prop :=
  op = .clear ∨ pool.chunks.size < (op.run.after pool).chunks.size

/-- Whether an operation of a run opens a chunk or releases all of them. -/
def Renewed : Pool α → List (Op α) → Prop
  | _, [] => False
  | pool, op :: ops => op.Renews pool ∨ Renewed (op.run.after pool) ops

/-- A pool is ahead of another one by a chunk that is empty and used last. Both hold the same. -/
structure Ahead (pool ahead : Pool α) (s : Stacks) (m : Contents α) : Prop where
  stacked : Stacked pool s
  reads : Reads pool m
  stacked_ahead : Stacked ahead (s.extended ahead.capacity.entries)
  reads_ahead : Reads ahead m
  capacity : ahead.capacity = pool.capacity
  room : pool.chunks.size < maxChunks

/-- What can be read off two pools is the same. -/
structure SameView (pool pool' : Pool α) : Prop where
  get? : ∀ ptr, pool'.get? ptr = pool.get? ptr
  toList : pool'.toList = pool.toList
  live : pool'.live = pool.live
  close : ∀ failing, pool'.close failing = pool.close failing

/-- The figures of a pool that has one chunk more, with space. -/
def Stats.withChunk (stats : Stats) : Stats :=
  { stats with chunks := stats.chunks + 1, chunksWithSpace := stats.chunksWithSpace + 1 }

namespace Ahead

/-- There is room for the chunk that the other pool is ahead by. -/
theorem length_lt (h : Ahead pool ahead s m) : s.free.length < maxChunks :=
  h.stacked.filled.length ▸ h.room

/-- An allocation finds the same place on top. -/
theorem outcome_allocWith (h : Ahead pool ahead s m) (make : Ptr → Except Fault α) :
    ((allocWith make).outcome ahead).1 = ((allocWith make).outcome pool).1 := by
  rw [h.stacked_ahead.outcome_allocWith, h.stacked.outcome_allocWith, Stacks.grown_extended,
    h.capacity]
  cases hspare : s.spare with
  | nil => rw [Stacks.grown_eq_extended hspare h.length_lt]
  | cons i spare =>
      obtain ⟨pos, rest, -, htop⟩ := h.stacked.consistent.exists_top hspare
      rw [Stacks.grown_of_spare (by simp [hspare]), Stacks.top?_extended htop, htop]

/-- Every operation is answered in the same way. One that opens a chunk or releases all of them
makes the pools equal, and after every other one the difference is still there. -/
theorem step (h : Ahead pool ahead s m) (op : Op α) :
    (op.run.outcome ahead).1 = (op.run.outcome pool).1 ∧
    (op.Renews pool → op.run.after ahead = op.run.after pool) ∧
    (¬ op.Renews pool → ∃ s m, Ahead (op.run.after pool) (op.run.after ahead) s m) := by
  obtain ⟨-, hcap, m₁, hreads, hmeets⟩ := h.stacked.sound.op_carries h.reads op
  obtain ⟨-, hcap', m₂, hreads', hmeets'⟩ := h.stacked_ahead.sound.op_carries h.reads_ahead op
  have hcapacity : (op.run.after ahead).capacity = (op.run.after pool).capacity := by
    rw [hcap', hcap, h.capacity]
  rw [h.capacity] at hmeets'
  -- the contract fixes the answers but for the place of an allocation, which the stacks tell
  obtain ⟨hanswer, rfl⟩ := hmeets'.unique hmeets fun make hmake => by
    rw [Op.run_of_make? hmake, Action.outcome_map, Action.outcome_map, h.outcome_allocWith]
  have hserved := h.stacked.served op
  have hserved' := h.stacked_ahead.served op
  have hserve := Stacks.serve_extended pool.capacity.entries h.stacked.consistent h.length_lt op
  rw [hserved.stacked.filled.length, h.stacked.filled.length] at hserve
  rw [h.capacity] at hserved'
  refine ⟨hanswer, fun hrenews => ?_, fun hrenews => ⟨_, m₂, hserved.stacked, hreads, ?_,
    hreads', hcapacity, ?_⟩⟩
  · rw [hserve.1 hrenews] at hserved'
    refine hserved.stacked.eq_of_get? hserved'.stacked hcapacity fun ptr => ?_
    rw [hreads.get?, hreads'.get?]
  · have hstacked := hserved'.stacked
    rw [hserve.2 hrenews] at hstacked
    rwa [hcapacity, hcap]
  · exact Nat.lt_of_le_of_lt (Nat.not_lt.1 fun hlt => hrenews (.inr hlt)) h.room

/-- Runs of operations. -/
theorem run (h : Ahead pool ahead s m) (log : Log α) (ops : List (Op α)) :
    (ops.foldl perform (log, ahead)).1 = (ops.foldl perform (log, pool)).1 ∧
    (Renewed pool ops → (ops.foldl perform (log, ahead)).2 = (ops.foldl perform (log, pool)).2) ∧
    (¬ Renewed pool ops → ∃ s m,
      Ahead (ops.foldl perform (log, pool)).2 (ops.foldl perform (log, ahead)).2 s m) := by
  -- from the first operation that renews the pool on, there is one run only
  induction ops generalizing pool ahead s m log with
  | nil => exact ⟨rfl, False.elim, fun _ => ⟨s, m, h⟩⟩
  | cons op ops ih =>
      obtain ⟨hanswer, hrenews, hkeeps⟩ := h.step op
      simp only [List.foldl_cons, Renewed, perform, hanswer]
      by_cases hop : op.Renews pool
      · rw [hrenews hop]
        exact ⟨rfl, fun _ => rfl, fun hnot => absurd (.inl hop) hnot⟩
      · obtain ⟨s', m', h'⟩ := hkeeps hop
        simpa only [hop, false_or] using ih h' _

/-- Two pools of which one is ahead look the same. -/
theorem sameView (h : Ahead pool ahead s m) : SameView pool ahead := by
  have hlist := h.reads_ahead.toList.eq h.reads.toList
  have hlive : ahead.live = pool.live := by rw [h.reads_ahead.live, h.reads.live]
  refine ⟨fun ptr => by rw [h.reads_ahead.get?, h.reads.get?], hlist, hlive, fun failing => ?_⟩
  rw [close, close, values, values, hlist, hlive]

/-- The figures of the pool that is ahead show one chunk more, with space. -/
theorem stats_run (h : Ahead pool ahead s m) :
    ∃ stats, pool.stats = .ok stats ∧ ahead.stats = .ok stats.withChunk := by
  refine ⟨_, h.stacked.stats_run, ?_⟩
  rw [h.stacked_ahead.stats_run, ← h.stacked_ahead.filled.length, h.sameView.live, h.capacity,
    ← h.stacked.filled.length]
  simp [Stacks.extended, Stats.withChunk]

end Ahead

/-! ### Undone allocations -/

/-- Whether a chunk has space. -/
def HasSpace (pool : Pool α) : Prop := ∃ c ∈ pool.chunks, c.hasSpace = true

instance : Decidable pool.HasSpace :=
  inferInstanceAs (Decidable (∃ c ∈ pool.chunks, c.hasSpace = true))

/-- A chunk has space exactly if the stack of chunks is not empty. -/
theorem Stacked.hasSpace_iff (h : Stacked pool s) : pool.HasSpace ↔ s.spare ≠ [] := by
  constructor
  · rintro ⟨c, hmem, hspace⟩ hspare
    obtain ⟨i, hi⟩ := Array.mem_iff_getElem?.1 hmem
    exact (h.filled.chunk i c hi).hasSpace_iff.1 hspace (h.consistent.stack_eq_nil hspare i)
  · intro hspare
    obtain ⟨i, spare, hi⟩ := List.exists_cons_of_ne_nil hspare
    have hstack : s.stack i ≠ [] := (h.consistent.mem_iff i).1 (by simp [hi])
    obtain ⟨c, hc⟩ := h.filled.exists_chunk (Stacks.lt_of_stack hstack)
    exact ⟨c, Array.mem_of_getElem? hc, (h.filled.chunk i c hc).hasSpace_iff.2 hstack⟩

/-- What an allocation that comes to nothing leaves behind. -/
structure Undone (pool : Pool α) (ptr : Ptr) (pool' : Pool α) : Prop where
  /-- The value cannot be built. -/
  withheld : ∀ (make : Ptr → Except Fault α) (e : Fault), make ptr = .error e →
    allocWith make pool = .error e pool'
  /-- The value is taken out at once. -/
  takenOut : ∀ (make : Ptr → Except Fault α) (v : α), make ptr = .ok v →
    ∃ stored, allocWith make pool = .ok ptr stored ∧ dealloc ptr stored = .ok v pool'

/-- A run does not tell two pools apart, except by the figures and not when it has opened a chunk or
released all of them. -/
structure Concealed (pool pool' : Pool α) (ops : List (Op α)) : Prop where
  /-- Every operation answers or fails in the same way. -/
  log : (ops.foldl perform ([], pool')).1 = (ops.foldl perform ([], pool)).1
  /-- The pools look the same afterwards. -/
  view : SameView (ops.foldl perform ([], pool)).2 (ops.foldl perform ([], pool')).2
  /-- There is one chunk more at first. -/
  stats : ¬ Renewed pool ops → ∃ stats, (ops.foldl perform ([], pool)).2.stats = .ok stats ∧
    (ops.foldl perform ([], pool')).2.stats = .ok stats.withChunk
  /-- Later there is no difference. -/
  renewed : Renewed pool ops →
    (ops.foldl perform ([], pool')).2 = (ops.foldl perform ([], pool)).2

/-- An allocation that comes to nothing changes nothing if there is a chunk with space. Otherwise no
run notices the chunk that it opens. -/
structure Unnoticed (pool pool' : Pool α) : Prop where
  same : pool.HasSpace → pool' = pool
  concealed : ¬ pool.HasSpace → ∀ ops, Concealed pool pool' ops

/-- A pool that is ahead by an empty chunk cannot be told apart by a run, as long as no figures are
read or all chunks are released or opened anew. -/
theorem Ahead.concealed (h : Ahead pool ahead s m) (ops : List (Op α)) :
    Concealed pool ahead ops := by
  obtain ⟨hlog, hrenewed, hahead⟩ := h.run [] ops
  refine ⟨hlog, ?_, fun hnot => ?_, hrenewed⟩
  · by_cases hren : Renewed pool ops
    · rw [hrenewed hren]
      exact ⟨fun _ => rfl, rfl, rfl, fun _ => rfl⟩
    · obtain ⟨_, _, h'⟩ := hahead hren
      exact h'.sameView
  · obtain ⟨_, _, h'⟩ := hahead hnot
    exact h'.stats_run

namespace Stacked

variable {make : Ptr → Except Fault α} {ptr : Ptr}

/-- An allocation whose value can be built. -/
theorem allocWith_ok (h : Stacked pool s) {v : α}
    (htop : (s.grown pool.capacity.entries).top? = some ptr) (hmake : make ptr = .ok v) :
    ∃ pool', allocWith make pool = .ok ptr pool' ∧ Allocated pool ptr v pool' ∧
      Stacked pool' (s.grown pool.capacity.entries).pop := by
  rcases h.allocWith_run make with ⟨q, w, pool', hq, hw, hrun, hpool, hs⟩ |
    ⟨q, e, pool', hq, he, -, -, -⟩ | ⟨hnone, -, -, -⟩
  · obtain rfl := Option.some.inj (hq.symm.trans htop)
    obtain rfl := Except.ok.inj (hw.symm.trans hmake)
    exact ⟨pool', hrun, hpool, hs⟩
  · obtain rfl := Option.some.inj (hq.symm.trans htop)
    cases he.symm.trans hmake
  · cases hnone.symm.trans htop

/-- An allocation whose value cannot be built. -/
theorem allocWith_error (h : Stacked pool s) {e : Fault}
    (htop : (s.grown pool.capacity.entries).top? = some ptr) (hmake : make ptr = .error e) :
    ∃ pool', allocWith make pool = .error e pool' ∧ Withheld pool ptr pool' ∧
      Stacked pool' (s.grown pool.capacity.entries) := by
  rcases h.allocWith_run make with ⟨q, w, pool', hq, hw, -, -, -⟩ |
    ⟨q, e', pool', hq, he, hrun, hpool, hs⟩ | ⟨hnone, -, -, -⟩
  · obtain rfl := Option.some.inj (hq.symm.trans htop)
    cases hw.symm.trans hmake
  · obtain rfl := Option.some.inj (hq.symm.trans htop)
    obtain rfl := Except.error.inj (he.symm.trans hmake)
    exact ⟨pool', hrun, hpool, hs⟩
  · cases hnone.symm.trans htop

/-- An allocation that comes to nothing opens a chunk if there is none with space, and does no
more. -/
theorem undone (h : Stacked pool s) {pool' : Pool α}
    (htop : (s.grown pool.capacity.entries).top? = some ptr)
    (hs : Stacked pool' (s.grown pool.capacity.entries)) (hcap : pool'.capacity = pool.capacity)
    (hget : ∀ q, pool'.get? q = pool.get? q) : Undone pool ptr pool' where
  withheld make e hmake := by
    obtain ⟨left, hrun, hpool, hs'⟩ := h.allocWith_error htop hmake
    rw [hrun, hs.eq_of_get? hs' (by rw [hpool.capacity, hcap])
      fun q => by rw [hpool.get?, hget]]
  takenOut make v hmake := by
    obtain ⟨stored, hrun, hstored, hs'⟩ := h.allocWith_ok htop hmake
    have hv : stored.get? ptr = some v := by rw [hstored.get?, if_pos rfl]
    obtain ⟨left, hdealloc, hleft, hs''⟩ := hs'.dealloc_run hv
    rw [Stacks.push_pop htop] at hs''
    have hsame : left = pool' := by
      refine hs.eq_of_get? hs'' ?_ fun q => ?_
      · rw [hleft.capacity, hstored.capacity, hcap]
      · rw [hleft.get?, hstored.get?, hget]
        by_cases hq : q = ptr
        · rw [if_pos hq, hq, hstored.fresh]
        · rw [if_neg hq, if_neg hq]
    exact ⟨stored, hrun, hsame ▸ hdealloc⟩

end Stacked

/-- An allocation that comes to nothing goes unnoticed. -/
theorem Stacked.exists_undone (h : Stacked pool s) (hm : Reads pool m)
    (hroom : pool.live < maxChunks * pool.capacity.entries) :
    ∃ ptr pool', Undone pool ptr pool' ∧ Unnoticed pool pool' := by
  rcases h.openChunk_run with ⟨ptr, pool', htop, -, hs, hcap, hlive, hget⟩ | ⟨-, -, -, hfull⟩
  · refine ⟨ptr, pool', h.undone htop hs hcap hget, fun hspace => ?_, fun hnot => ?_⟩
    · rw [Stacks.grown_of_spare (h.hasSpace_iff.1 hspace)] at hs
      exact h.eq_of_get? hs hcap hget
    · have hspare : s.spare = [] := not_not.1 (mt h.hasSpace_iff.2 hnot)
      have hsize : pool.chunks.size < maxChunks :=
        lt_of_mul_lt_mul_right (h.live_eq_of_full hspare ▸ hroom) (Nat.zero_le _)
      rw [Stacks.grown_eq_extended hspare (h.filled.length ▸ hsize), ← hcap] at hs
      have hm' : Reads pool' m :=
        hs.sound.reads (fun q => by rw [hget, hm.get?]) (by rw [hlive, hm.live])
      exact Ahead.concealed ⟨h, hm, hs, hm', hcap, hsize⟩
  · omega

/-- Whatever was done with a pool before, an allocation that comes to nothing goes unnoticed. This
leaves out the pool that holds as many values as pointers can name: it allocates nothing, and builds
no value that could fail. -/
theorem undone_allocation (capacity : Capacity) (ops : List (Op α))
    (hroom : (history capacity ops).2.live < maxChunks * capacity.entries) :
    ∃ ptr pool', Undone (history capacity ops).2 ptr pool' ∧
      Unnoticed (history capacity ops).2 pool' := by
  obtain ⟨hstacked, hcap, -⟩ := inStep_history capacity ops
  obtain ⟨m, hm⟩ := ((booked_new capacity).foldl ops).reads
  exact hstacked.exists_undone hm (hcap.symm ▸ hroom)

/-- A pool with one chunk, which is full. -/
theorem undone_allocation_full :
    (history ⟨1, by decide, by decide⟩ [.alloc 5]).2.live < maxChunks * 1 ∧
    ∃ ptr pool', Undone (history ⟨1, by decide, by decide⟩ [.alloc 5]).2 ptr pool' ∧
      ∀ ops, Concealed (history ⟨1, by decide, by decide⟩ [.alloc 5]).2 pool' ops := by
  have hroom : (history ⟨1, by decide, by decide⟩ [.alloc 5]).2.live < maxChunks * 1 := by
    decide
  have hfull : ¬ (history ⟨1, by decide, by decide⟩ [.alloc 5]).2.HasSpace := by
    decide
  obtain ⟨ptr, pool', hundone, hunnoticed⟩ :=
    undone_allocation ⟨1, by decide, by decide⟩ [.alloc 5] hroom
  exact ⟨hroom, ptr, pool', hundone, hunnoticed.concealed hfull⟩

end Pool

end SlabGraph
