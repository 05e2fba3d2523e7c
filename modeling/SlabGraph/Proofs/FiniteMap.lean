import Mathlib.Data.Finmap
import SlabGraph.Proofs.Pool.Ops

/-!
# A Pool Is a Finite Map

To its users a pool is a finite map from pointers to values. They see nothing of chunks, of
the free chains inside them and of the list of chunks with space, except that an allocation
chooses the pointer. This module says so for whole runs of operations, with pointers that may
be live, stale, taken from another pool or reserved, and with operations that fail.

`Op.Meets` is what an operation may do to the map and answer, said without the pool. An
allocation may choose any pointer that is not in the map and not reserved, so the contract
leaves out which one it is. A pool may refuse to grow only when the map holds as many values
as pointers can name.

## Main definitions

* `Pool.Contents`, the finite maps; `Pool.Lists`, their entries in the order of the pointers;
* `Pool.Op.Meets`, the contract of an operation;
* `Pool.Reads`, which says that all that can be read off a pool is a map;
* `Pool.Follows`, a run of operations together with the maps it goes through.

## Main result

* `Pool.follows_new`: every run from an empty pool follows the contract.
-/

namespace SlabGraph

namespace Pool

variable {α : Type} {pool : Pool α} {limit : Nat}

/-! ### The contract -/

/-- The finite maps that pools stand for. -/
abbrev Contents (α : Type) := Finmap fun _ : Ptr => α

/-- A list holds the entries of a map, in strictly increasing order of the pointers. -/
structure Lists (l : List (Ptr × α)) (m : Contents α) : Prop where
  /-- The order. -/
  increasing : l.Pairwise fun a b => compare a.1 b.1 = .lt
  /-- The entries. -/
  mem_iff : ∀ ptr v, (ptr, v) ∈ l ↔ m.lookup ptr = some v

/-- What an allocation may do. The value is built from the very pointer that is answered. -/
inductive Stores (limit : Nat) (make : Ptr → Except Fault α) (m : Contents α) :
    Except Fault (Answer α) → Contents α → Prop
  /-- The value is stored at a new pointer. -/
  | stored {ptr : Ptr} {v : α} : ptr ≠ .reserved → ptr ∉ m → make ptr = .ok v →
      Stores limit make m (.ok (.stored ptr)) (m.insert ptr v)
  /-- The value cannot be built. -/
  | withheld {ptr : Ptr} {e : Fault} : ptr ≠ .reserved → ptr ∉ m → make ptr = .error e →
      Stores limit make m (.error e) m
  /-- There are no more pointers. -/
  | full : m.keys.card = limit → Stores limit make m (.error .tooManyChunks) m

/-- What an operation may answer and what it makes of the map, for a pool that can hold
`limit` values. -/
def Op.Meets (limit : Nat) (m : Contents α) (answer : Except Fault (Answer α))
    (m' : Contents α) : Op α → Prop
  | alloc v => Stores limit (fun _ => .ok v) m answer m'
  | allocWith make => Stores limit make m answer m'
  | construct make => Stores limit (fun ptr => .ok (make ptr)) m answer m'
  | dealloc ptr => match m.lookup ptr with
      | some v => answer = .ok (.value v) ∧ m' = m.erase ptr
      | none => answer = .error (if m.keys = ∅ then .emptyPool ptr else .notAllocated ptr) ∧ m' = m
  | tryDealloc ptr => match m.lookup ptr with
      | some v => answer = .ok (.value? (some v)) ∧ m' = m.erase ptr
      | none => answer = .ok (.value? none) ∧ m' = m
  | destroy ptr => match m.lookup ptr with
      | some v => answer = .ok (.finalised [v]) ∧ m' = m.erase ptr
      | none => answer = .error (if m.keys = ∅ then .emptyPool ptr else .notAllocated ptr) ∧ m' = m
  | update ptr f => match m.lookup ptr with
      | some v => answer = .ok (.value v) ∧ m' = m.insert ptr (f v)
      | none => answer = .error .invalidPtr ∧ m' = m
  | update? ptr f => match m.lookup ptr with
      | some v => answer = .ok (.value? (some v)) ∧ m' = m.insert ptr (f v)
      | none => answer = .ok (.value? none) ∧ m' = m
  | visit f => ∃ l, Lists l m ∧ answer = .ok (.visited (l.map Prod.snd)) ∧ Lists (rewritten f l) m'
  | clear => (∃ l, Lists l m ∧ answer = .ok (.finalised (l.map Prod.snd))) ∧ m' = ∅

/-- All that can be read off a pool is a finite map. -/
structure Reads (pool : Pool α) (m : Contents α) : Prop where
  /-- A look-up answers what the map holds, for every pointer. -/
  get? : ∀ ptr, pool.get? ptr = m.lookup ptr
  /-- The count of live values is the size of the map. -/
  live : pool.live = m.keys.card
  /-- An iteration yields the entries of the map in the order of the pointers. -/
  toList : Lists pool.toList m

/-- A run of operations and the maps it goes through: what is read off the pool is the map at
every moment, and every operation meets its contract. -/
inductive Follows (limit : Nat) : Pool α → Contents α → List (Op α) → Prop
  /-- The run is over. -/
  | done {pool : Pool α} {m : Contents α} : Reads pool m → Follows limit pool m []
  /-- The run goes on with the pool that the first operation leaves behind. -/
  | step {pool : Pool α} {m m' : Contents α} {op : Op α} {ops : List (Op α)} : Reads pool m →
      op.Meets limit m (op.run.outcome pool).1 m' → Follows limit (op.run.after pool) m' ops →
      Follows limit pool m (op :: ops)

/-! ### Lists and maps -/

/-- The entries of a map are listed at different pointers. -/
theorem Lists.nodup {l : List (Ptr × α)} {m : Contents α} (h : Lists l m) :
    (l.map Prod.fst).Nodup := by
  rw [List.Nodup, List.pairwise_map]
  refine h.increasing.imp fun {a b} hlt heq => ?_
  rw [heq] at hlt
  have := compare_ptr_eq_lt.1 hlt
  omega

/-- A list of the entries of a map has as many members as the map has keys. -/
theorem Lists.card_keys {l : List (Ptr × α)} {m : Contents α} (h : Lists l m) :
    m.keys.card = l.length := by
  have hkeys : m.keys = (l.map Prod.fst).toFinset := by
    ext ptr
    rw [Finmap.mem_keys, Finmap.mem_iff, List.mem_toFinset, List.mem_map]
    constructor
    · rintro ⟨v, hv⟩
      exact ⟨(ptr, v), (h.mem_iff ptr v).2 hv, rfl⟩
    · rintro ⟨⟨q, v⟩, hmem, rfl⟩
      exact ⟨v, (h.mem_iff q v).1 hmem⟩
  rw [hkeys, List.toFinset_card_of_nodup h.nodup, List.length_map]

/-- A list in strictly increasing order holds the entries of some map. -/
theorem exists_lists {l : List (Ptr × α)}
    (h : l.Pairwise fun a b => compare a.1 b.1 = .lt) : ∃ m, Lists l m := by
  let entries : List (Σ _ : Ptr, α) := l.map fun x => ⟨x.1, x.2⟩
  have hnodup : entries.NodupKeys := by
    rw [List.nodupKeys_iff_pairwise, List.pairwise_map]
    refine h.imp fun {a b} hlt heq => ?_
    have := compare_ptr_eq_lt.1 hlt
    simp only at heq
    rw [heq] at this
    omega
  refine ⟨entries.toFinmap, h, fun ptr v => ?_⟩
  rw [Finmap.dlookup_list_toFinmap, ← Option.mem_def, List.mem_dlookup_iff hnodup]
  simp [entries]

/-- The invariant reduces what is read off a pool to its look-ups and its count. -/
theorem Sound.reads {m : Contents α} (h : Sound pool) (hget : ∀ ptr, pool.get? ptr = m.lookup ptr)
    (hlive : pool.live = m.keys.card) : Reads pool m :=
  ⟨hget, hlive, pairwise_toList pool, fun ptr v => by rw [h.mem_toList, hget]⟩

/-- A pool that holds nothing reads as the empty map. -/
theorem reads_empty {pool : Pool α} (hsound : Sound pool) (hget : ∀ ptr, pool.get? ptr = none)
    (hlive : pool.live = 0) : Reads pool ∅ :=
  hsound.reads (fun ptr => by rw [hget, Finmap.lookup_empty])
    (by rw [hlive, Finmap.keys_empty]; rfl)

namespace Reads

variable {m : Contents α}

/-- Where a pool holds nothing, its map has no key. -/
theorem not_mem (h : Reads pool m) {ptr : Ptr} (hnone : pool.get? ptr = none) : ptr ∉ m := by
  rw [← Finmap.lookup_eq_none, ← h.get?, hnone]

/-- The map is empty exactly if the pool counts no live entries. -/
theorem keys_eq_empty_iff (h : Reads pool m) : m.keys = ∅ ↔ pool.live = 0 := by
  rw [h.live, Finset.card_eq_zero]

/-- What is read off a pool after a value was stored. -/
theorem insert {ptr : Ptr} {v : α} {pool' : Pool α} (h : Reads pool m)
    (hpool : Allocated pool ptr v pool') : Reads pool' (m.insert ptr v) := by
  have hnot : ptr ∉ m.keys := by
    rw [Finmap.mem_keys]
    exact h.not_mem hpool.fresh
  have hkeys : (m.insert ptr v).keys = Insert.insert ptr m.keys := by
    ext q
    simp only [Finmap.mem_keys, Finmap.mem_insert, Finset.mem_insert]
  refine hpool.sound.reads (fun q => ?_) ?_
  · rw [hpool.get?, h.get?]
    by_cases hq : q = ptr
    · rw [if_pos hq, hq, Finmap.lookup_insert]
    · rw [if_neg hq, Finmap.lookup_insert_of_ne _ hq]
  · rw [hpool.live, h.live, hkeys, Finset.card_insert_of_notMem hnot]

/-- What is read off a pool after a value was taken out. -/
theorem erase {ptr : Ptr} {v : α} {pool' : Pool α} (h : Reads pool m)
    (hv : pool.get? ptr = some v) (hpool : Deallocated pool ptr pool') :
    Reads pool' (m.erase ptr) := by
  have hmem : ptr ∈ m.keys := by
    rw [Finmap.mem_keys, Finmap.mem_iff, ← h.get?]
    exact ⟨v, hv⟩
  refine hpool.sound.reads (fun q => ?_) ?_
  · rw [hpool.get?, h.get?]
    by_cases hq : q = ptr
    · rw [if_pos hq, hq, Finmap.lookup_erase]
    · rw [if_neg hq, Finmap.lookup_erase_ne hq]
  · have hcard := Finset.card_erase_of_mem hmem
    have hlive := hpool.live
    rw [h.live] at hlive
    rw [Finmap.keys_erase, hcard]
    omega

/-- What is read off a pool after a value was written. -/
theorem write {ptr : Ptr} {v : α} (h : Reads pool m) (hsound : Sound pool)
    (hv : pool.get? ptr = some v) (w : α) : Reads (pool.replace ptr w) (m.insert ptr w) := by
  have hshape := sameShape_replace pool ptr w
  have hkeys : (m.insert ptr w).keys = m.keys := by
    ext q
    rw [Finmap.mem_keys, Finmap.mem_insert, Finmap.mem_keys, or_iff_right_of_imp]
    rintro rfl
    rw [Finmap.mem_iff, ← h.get?]
    exact ⟨v, hv⟩
  refine (hsound.congr hshape).reads (fun q => ?_) (by rw [hshape.live, h.live, hkeys])
  by_cases hq : q = ptr
  · rw [hq, get?_replace_self hv, Finmap.lookup_insert]
  · rw [get?_replace_of_ne w hq, h.get?, Finmap.lookup_insert_of_ne _ hq]

end Reads

/-! ### Steps -/

/-- An action keeps the invariant and the capacity of a pool, and its answer and the map that
is read off the pool afterwards satisfy `P`. -/
structure Carries (x : Action (Pool α) (Answer α)) (pool : Pool α)
    (P : Except Fault (Answer α) → Contents α → Prop) : Prop where
  sound : Sound (x.after pool)
  capacity : (x.after pool).capacity = pool.capacity
  reads : ∃ m, Reads (x.after pool) m ∧ P (x.outcome pool).1 m

namespace Carries

variable {x : Action (Pool α) (Answer α)} {P : Except Fault (Answer α) → Contents α → Prop}
  {m : Contents α} {pool' : Pool α}

/-- An action that succeeds carries what holds of its answer and of the map it leaves behind. -/
theorem of_ok {answer : Answer α} (hrun : x pool = .ok answer pool') (hsound : Sound pool')
    (hcap : pool'.capacity = pool.capacity) (hm : Reads pool' m) (hP : P (.ok answer) m) :
    Carries x pool P := by
  have hafter := Action.after_of_ok hrun
  refine ⟨by rwa [hafter], by rwa [hafter], m, by rwa [hafter], ?_⟩
  simpa only [Action.outcome, hrun] using hP

/-- An action that fails carries what holds of its fault and of the map it leaves behind. -/
theorem of_error {e : Fault} (hrun : x pool = .error e pool') (hsound : Sound pool')
    (hcap : pool'.capacity = pool.capacity) (hm : Reads pool' m) (hP : P (.error e) m) :
    Carries x pool P := by
  have hafter := Action.after_of_error hrun
  refine ⟨by rwa [hafter], by rwa [hafter], m, by rwa [hafter], ?_⟩
  simpa only [Action.outcome, hrun] using hP

end Carries

namespace Sound

variable {m : Contents α}

/-- An allocation stores the value that is built for its pointer, or it changes nothing that is
read. -/
theorem allocWith_carries (h : Sound pool) (hm : Reads pool m) (make : Ptr → Except Fault α) :
    Carries (.stored <$> allocWith make) pool
      (Stores (maxChunks * pool.capacity.entries) make m) := by
  rcases h.allocWith_run make with
    ⟨ptr, v, pool', hmake, hrun, hpool⟩ | ⟨ptr, e, pool', hmake, hrun, hpool⟩ | ⟨hrun, hfull⟩
  · exact .of_ok (by simp [hrun]) hpool.sound hpool.capacity (hm.insert hpool)
      (.stored hpool.ne_reserved (hm.not_mem hpool.fresh) hmake)
  · have hreads : Reads pool' m := hpool.sound.reads (fun q => by rw [hpool.get?, hm.get?])
      (by rw [hpool.live, hm.live])
    exact .of_error (by simp [hrun]) hpool.sound hpool.capacity hreads
      (.withheld hpool.ne_reserved (hm.not_mem hpool.fresh) hmake)
  · exact .of_error (by simp [hrun]) h rfl hm (.full (by rw [← hm.live, hfull]))

/-- Every operation meets its contract. -/
theorem op_carries (h : Sound pool) (hm : Reads pool m) (op : Op α) :
    Carries op.run pool fun answer m' =>
      op.Meets (maxChunks * pool.capacity.entries) m answer m' := by
  cases op with
  | alloc v => exact h.allocWith_carries hm fun _ => .ok v
  | allocWith make => exact h.allocWith_carries hm make
  | construct make => exact h.allocWith_carries hm fun ptr => .ok (make ptr)
  | dealloc ptr =>
      cases hv : pool.get? ptr with
      | some v =>
          obtain ⟨pool', hrun, hpool⟩ := h.dealloc_run hv
          have hrun' : (Op.dealloc ptr).run pool = .ok (.value v) pool' := by simp [Op.run, hrun]
          refine .of_ok hrun' hpool.sound hpool.capacity (hm.erase hv hpool) ?_
          simp [Op.Meets, ← hm.get?, hv]
      | none =>
          refine .of_error (by simp [Op.run, h.dealloc_refused hv]; rfl) h rfl hm ?_
          simp [Op.Meets, ← hm.get?, hv, hm.keys_eq_empty_iff]
  | tryDealloc ptr =>
      cases hv : pool.get? ptr with
      | some v =>
          obtain ⟨pool', hrun, hpool⟩ := h.tryDealloc_run hv
          have hrun' : (Op.tryDealloc ptr).run pool = .ok (.value? (some v)) pool' := by
            simp [Op.run, hrun]
          refine .of_ok hrun' hpool.sound hpool.capacity (hm.erase hv hpool) ?_
          simp [Op.Meets, ← hm.get?, hv]
      | none =>
          have hrun' : (Op.tryDealloc ptr).run pool = .ok (.value? none) pool := by
            simp [Op.run, h.tryDealloc_none hv]
          refine .of_ok hrun' h rfl hm ?_
          simp [Op.Meets, ← hm.get?, hv]
  | destroy ptr =>
      cases hv : pool.get? ptr with
      | some v =>
          obtain ⟨pool', hrun, hpool⟩ := h.dealloc_run hv
          have hrun' : (Op.destroy ptr).run pool = .ok (.finalised [v]) pool' := by
            simp [Op.run, destroy, hrun]
          refine .of_ok hrun' hpool.sound hpool.capacity (hm.erase hv hpool) ?_
          simp [Op.Meets, ← hm.get?, hv]
      | none =>
          refine .of_error (by simp [Op.run, destroy, h.dealloc_refused hv]; rfl) h rfl hm ?_
          simp [Op.Meets, ← hm.get?, hv, hm.keys_eq_empty_iff]
  | update ptr f =>
      cases hv : pool.get? ptr with
      | some v =>
          have hshape := sameShape_replace pool ptr (f v)
          have hrun : (Op.update ptr f).run pool = .ok (.value v) (pool.replace ptr (f v)) := by
            simp [Op.run, update_run hv]
          refine .of_ok hrun (h.congr hshape) hshape.capacity (hm.write h hv (f v)) ?_
          simp [Op.Meets, ← hm.get?, hv]
      | none =>
          refine .of_error (by simp [Op.run, update_refused hv]; rfl) h rfl hm ?_
          simp [Op.Meets, ← hm.get?, hv]
  | update? ptr f =>
      cases hv : pool.get? ptr with
      | some v =>
          have hshape := sameShape_replace pool ptr (f v)
          have hrun : (Op.update? ptr f).run pool =
              .ok (.value? (some v)) (pool.replace ptr (f v)) := by
            simp [Op.run, update?_run hv]
          refine .of_ok hrun (h.congr hshape) hshape.capacity (hm.write h hv (f v)) ?_
          simp [Op.Meets, ← hm.get?, hv]
      | none =>
          have hrun : (Op.update? ptr f).run pool = .ok (.value? none) pool := by
            simp [Op.run, update?_none hv]
          refine .of_ok hrun h rfl hm ?_
          simp [Op.Meets, ← hm.get?, hv]
  | visit f =>
      obtain ⟨pool', hrun, hshape, hlist⟩ := visit_run f pool
      obtain ⟨m', hm'⟩ := exists_lists (pairwise_toList pool')
      have hsound := h.congr hshape
      have hget : ∀ ptr, pool'.get? ptr = m'.lookup ptr := fun ptr =>
        Option.ext fun v => by rw [← hsound.mem_toList, hm'.mem_iff]
      have hlive : pool'.live = m'.keys.card := by
        rw [hshape.live, hm.live, hm.toList.card_keys, hm'.card_keys, hlist, rewritten,
          List.length_mapIdx]
      exact .of_ok hrun hsound hshape.capacity (hsound.reads hget hlive)
        ⟨pool.toList, hm.toList, rfl, hlist ▸ hm'⟩
  | clear =>
      obtain ⟨pool', hrun, hsound, hlive, hcap, hget⟩ := clear_run pool
      exact .of_ok (by simp [Op.run, hrun]; rfl) hsound hcap (reads_empty hsound hget hlive)
        ⟨⟨pool.toList, hm.toList, rfl⟩, rfl⟩

end Sound

/-- Every run of operations on a sound pool follows the contract. -/
theorem Sound.follows {m : Contents α} (h : Sound pool) (hm : Reads pool m) (ops : List (Op α)) :
    Follows (maxChunks * pool.capacity.entries) pool m ops := by
  induction ops generalizing pool m with
  | nil => exact .done hm
  | cons op ops ih =>
      obtain ⟨hsound, hcap, m', hm', hmeets⟩ := h.op_carries hm op
      have hrest := ih hsound hm'
      rw [hcap] at hrest
      exact .step hm hmeets hrest

/-- A pool is a finite map: from the empty pool and the empty map on, every run of operations
follows the contract. -/
theorem follows_new (capacity : Capacity) (ops : List (Op α)) :
    Follows (maxChunks * capacity.entries) (new capacity) ∅ ops :=
  (sound_new capacity).follows
    (reads_empty (sound_new capacity) (get?_new capacity) rfl) ops

end Pool

end SlabGraph
