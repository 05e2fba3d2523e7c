import SlabGraph.Proofs.Pool.Allocation
import SlabGraph.Proofs.Pool.Contents

/-!
# The Operations of a Pool

The operations through which the user of a pool changes it, as data. A run is a list of them.
An operation that fails is part of a run like any other, since a user may go on with the pool
it leaves behind.

An iteration that may change every value hands out the values one after the other, so what
its user writes at a place can depend on all values that were handed out before. `Op.visit`
is given this dependence as a function of the values before.

## Main definitions

* `Pool.Op`, `Pool.Answer`, `Pool.Op.run`.

## Main results

* `Pool.update?_run`, `Pool.update_refused` and their companions: writing at a pointer;
* `Pool.visit_run`: a visit, in terms of the list of the live values.
-/

namespace SlabGraph

namespace Pool

variable {α : Type} {pool : Pool α}

/-- An operation that a user can apply to a pool. -/
inductive Op (α : Type) where
  /-- Stores a value. -/
  | alloc (value : α)
  /-- Stores the value that is built from the pointer it will have, if it can be built. -/
  | allocWith (make : Ptr → Except Fault α)
  /-- Stores a value that knows its own pointer. -/
  | construct (make : Ptr → α)
  /-- Takes out the value at a pointer. -/
  | dealloc (ptr : Ptr)
  /-- Takes out the value at a pointer, if there is one. -/
  | tryDealloc (ptr : Ptr)
  /-- Takes out the value at a pointer and finalises it. -/
  | destroy (ptr : Ptr)
  /-- Writes the value at a pointer. -/
  | update (ptr : Ptr) (f : α → α)
  /-- Writes the value at a pointer, if there is one. -/
  | update? (ptr : Ptr) (f : α → α)
  /-- Writes all values in turn, each one given the values before it. -/
  | visit (f : List α → α → α)
  /-- Finalises all values. -/
  | clear

/-- What an operation answers. -/
inductive Answer (α : Type) where
  /-- The pointer at which a value was stored. -/
  | stored (ptr : Ptr)
  /-- The value that was there. -/
  | value (value : α)
  /-- The value that was there, if there was one. -/
  | value? (value? : Option α)
  /-- The values in the order in which they were handed out. -/
  | visited (values : List α)
  /-- The values that were finalised. -/
  | finalised (values : List α)

/-- Carries an operation out. -/
def Op.run : Op α → Action (Pool α) (Answer α)
  | alloc value => .stored <$> Pool.alloc value
  | allocWith make => .stored <$> Pool.allocWith make
  | construct make => .stored <$> Pool.construct make
  | dealloc ptr => .value <$> Pool.dealloc ptr
  | tryDealloc ptr => .value? <$> Pool.tryDealloc ptr
  | destroy ptr => .finalised <$> Pool.destroy ptr
  | update ptr f => .value <$> Pool.update ptr f
  | update? ptr f => .value? <$> Pool.update? ptr f
  | visit f => do
      let (seen, pool) := (← get).mapAccum (fun seen value => (seen ++ [value], f seen value)) []
      set pool
      return .visited seen
  | clear => .finalised <$> Pool.clear

/-! ### Writing -/

/-- A value that is there is replaced, and the old one is answered. -/
theorem update?_run {ptr : Ptr} {v : α} (h : pool.get? ptr = some v) (f : α → α) :
    update? ptr f pool = .ok (some v) (pool.replace ptr (f v)) := by
  simp [update?, h]

/-- Nothing is replaced where nothing is, and this is no fault. -/
theorem update?_none {ptr : Ptr} (h : pool.get? ptr = none) (f : α → α) :
    update? ptr f pool = .ok none pool := by
  simp [update?, h]

/-- A value that is there is replaced, and the old one is answered. -/
theorem update_run {ptr : Ptr} {v : α} (h : pool.get? ptr = some v) (f : α → α) :
    update ptr f pool = .ok v (pool.replace ptr (f v)) := by
  simp [update, update?_run h]

/-- Where nothing is, a write that must find something is refused. -/
theorem update_refused {ptr : Ptr} (h : pool.get? ptr = none) (f : α → α) :
    update ptr f pool = .error .invalidPtr pool := by
  simp [update, update?_none h]

/-! ### Visiting -/

/-- A list of values with their pointers after a visit. -/
def rewritten (f : List α → α → α) (l : List (Ptr × α)) : List (Ptr × α) :=
  l.mapIdx fun i x => (x.1, f ((l.take i).map Prod.snd) x.2)

/-- A visit that records what it has seen sees the values in their order, and changes each one by
what it saw before. -/
theorem changeValues_recording (f : List α → α → α) (seen : List α) (l : List (Ptr × α)) :
    changeValues (fun seen v => (seen ++ [v], f seen v)) seen l =
      (seen ++ l.map Prod.snd,
        l.mapIdx fun i x => (x.1, f (seen ++ (l.take i).map Prod.snd) x.2)) := by
  induction l generalizing seen with
  | nil => simp [changeValues]
  | cons x l ih =>
      obtain ⟨ptr, v⟩ := x
      simp [changeValues, ih, List.mapIdx_cons]

/-- A visit hands out the values of the list and rewrites the list. -/
theorem visit_run (f : List α → α → α) (pool : Pool α) :
    ∃ pool', (Op.visit f).run pool = .ok (.visited pool.values) pool' ∧
      SameShape pool pool' ∧ pool'.toList = rewritten f pool.toList := by
  have hvisit := mapAccum_eq (fun seen v => (seen ++ [v], f seen v)) [] pool
  rw [changeValues_recording, Prod.ext_iff] at hvisit
  obtain ⟨hseen, hlist⟩ := hvisit
  refine ⟨_, ?_, sameShape_mapAccum _ _ pool, hlist.trans ?_⟩
  · simp only [List.nil_append] at hseen
    simp [Op.run, hseen, values]
  · simp [rewritten]

end Pool

end SlabGraph
