import SlabGraph.Proofs.FiniteMap

/-!
# No Object Is Lost or Finalised Twice

Every object that is stored in a pool leaves it exactly once. It is handed back to the user,
or finalised by `Op.destroy` or `Op.clear`, or finalised with the pool that still holds it.
This module keeps the books over whole runs of operations, with pointers that may be live,
stale, taken from another pool or reserved, and with operations that fail.

The books are kept outside of the pool. `Log.objects` is read off the operations and their
answers alone: a store that succeeds enters an object, which from then on has a pointer and a
current value until an operation takes it out. Two objects with equal values are two objects.

That the books are right rests on the contract of the operations (`Op.Meets`) and not on how
a pool keeps its values: what one operation does to the books is what its contract says it
does to the finite map.

## Main definitions

* `Pool.Log`, the operations carried out so far and their answers; `Pool.history`;
* `Pool.Object`, an object with its whereabouts; `Pool.Log.objects`, all objects ever stored;
* `Pool.Log.handedBack`, `Pool.Log.finalised`, what the answers say has left the pool;
* `Pool.Accounted`, which says that the books of a pool are right.

## Main result

* `Pool.accounted_history`: after every run from an empty pool the books are right.
-/

namespace SlabGraph

namespace Pool

variable {α : Type} {limit : Nat}

/-! ### The books -/

/-- An object that was stored in a pool, with its current value. -/
inductive Object (α : Type) where
  /-- The pool holds the object. -/
  | live (ptr : Ptr) (value : α)
  /-- The object was handed back. -/
  | handedBack (value : α)
  /-- The object was finalised. -/
  | finalised (value : α)
deriving DecidableEq

namespace Object

/-- The current value, or the last one of an object that has left. -/
def value : Object α → α
  | live _ v => v
  | handedBack v => v
  | finalised v => v

/-- What becomes of an object when something happens to the live ones. -/
def follow (change : Ptr → α → Object α) : Object α → Object α
  | live ptr v => change ptr v
  | handedBack v => handedBack v
  | finalised v => finalised v

/-- The object at a pointer leaves the pool. -/
def leave (ptr : Ptr) (left : α → Object α) : Object α → Object α :=
  follow fun q v => if q = ptr then left v else live q v

/-- The object at a pointer is written. -/
def write (ptr : Ptr) (f : α → α) : Object α → Object α :=
  follow fun q v => live q (if q = ptr then f v else v)

/-- A live object is finalised. -/
def finalise : Object α → Object α := follow fun _ v => finalised v

/-- Whether an object is live at a smaller pointer. -/
def isBefore (ptr : Ptr) : Object α → Bool
  | live q _ => compare q ptr == .lt
  | handedBack _ => false
  | finalised _ => false

@[simp] theorem isBefore_live (ptr q : Ptr) (v : α) :
    (live q v).isBefore ptr = (compare q ptr == .lt) := rfl

@[simp] theorem isBefore_handedBack (ptr : Ptr) (v : α) :
    (handedBack v).isBefore ptr = false := rfl

@[simp] theorem isBefore_finalised (ptr : Ptr) (v : α) :
    (finalised v).isBefore ptr = false := rfl

end Object

/-- What an operation that was answered does to the objects. A visit hands out the values in
the order of the pointers, so the values before an object are the first ones it answers, as
many as there are live objects at smaller pointers. -/
def Op.record : Op α → Answer α → Multiset (Object α) → Multiset (Object α)
  | alloc v, .stored ptr, objects => .live ptr v ::ₘ objects
  | allocWith make, .stored ptr, objects => match make ptr with
      | .ok v => .live ptr v ::ₘ objects
      | .error _ => objects
  | construct make, .stored ptr, objects => .live ptr (make ptr) ::ₘ objects
  | dealloc ptr, .value _, objects => objects.map (.leave ptr .handedBack)
  | tryDealloc ptr, .value? (some _), objects => objects.map (.leave ptr .handedBack)
  | destroy ptr, .finalised _, objects => objects.map (.leave ptr .finalised)
  | update ptr f, .value _, objects => objects.map (.write ptr f)
  | update? ptr f, .value? (some _), objects => objects.map (.write ptr f)
  | visit f, .visited seen, objects => objects.map <| .follow fun ptr v =>
      .live ptr (f (seen.take (objects.countP fun o => o.isBefore ptr)) v)
  | clear, .finalised _, objects => objects.map .finalise
  | _, _, objects => objects

/-- The values that an answer hands back for good. -/
def Op.returned : Op α → Answer α → Multiset α
  | dealloc _, .value v => {v}
  | tryDealloc _, .value? (some v) => {v}
  | _, _ => 0

/-- The values that were finalised according to an answer. -/
def Op.dropped : Op α → Answer α → Multiset α
  | destroy _, .finalised vs => vs
  | clear, .finalised vs => vs
  | _, _ => 0

/-- The operations carried out so far with their answers, newest first. -/
abbrev Log (α : Type) := List (Op α × Except Fault (Answer α))

namespace Log

/-- All objects that were ever stored. An operation that fails changes nothing. -/
def objects : Log α → Multiset (Object α)
  | [] => 0
  | (op, .ok answer) :: log => op.record answer (objects log)
  | (_, .error _) :: log => objects log

/-- The values that were handed back. -/
def handedBack : Log α → Multiset α
  | [] => 0
  | (op, .ok answer) :: log => op.returned answer + handedBack log
  | (_, .error _) :: log => handedBack log

/-- The values that were finalised. -/
def finalised : Log α → Multiset α
  | [] => 0
  | (op, .ok answer) :: log => op.dropped answer + finalised log
  | (_, .error _) :: log => finalised log

end Log

/-- Carries an operation out and enters it into the log. -/
def perform (s : Log α × Pool α) (op : Op α) : Log α × Pool α :=
  ((op, (op.run.outcome s.2).1) :: s.1, op.run.after s.2)

/-- The log and the pool after a run of operations. -/
def history (capacity : Capacity) (ops : List (Op α)) : Log α × Pool α :=
  ops.foldl perform ([], new capacity)

/-- The objects of a pool with these live values, of which these have left it. -/
def inventory (l : List (Ptr × α)) (back dropped : Multiset α) : Multiset (Object α) :=
  back.map .handedBack + dropped.map .finalised +
    (l : Multiset (Ptr × α)).map fun x => .live x.1 x.2

/-- The books of a pool are right. -/
structure Accounted (log : Log α) (pool : Pool α) : Prop where
  /-- Every object that was ever stored is in exactly one place: it was handed back, it was
  finalised, or it is live, at the pointer and with the value that the books say. -/
  objects : log.objects = inventory pool.toList log.handedBack log.finalised
  /-- The current values of all objects are those handed back, those finalised and those the
  pool holds. -/
  values : log.objects.map Object.value = log.handedBack + log.finalised + pool.values
  /-- A pool that is given up finalises exactly the live objects, each one once. -/
  close : ∀ failing, log.objects.map Object.finalise =
    log.handedBack.map .handedBack + (log.finalised + (pool.close failing).1).map .finalised
  /-- It reports the live objects, unless a fault is already on its way. -/
  report : ∀ failing, (pool.close failing).2 =
    if pool.values ≠ [] ∧ ¬ failing then .error (.poolInUse pool.values.length) else .ok ()

/-! ### Entries of a map -/

namespace Lists

variable {l l' : List (Ptr × α)} {m : Contents α} {ptr : Ptr} {v : α}

/-- The entries of a map are determined up to order. -/
theorem perm (h : Lists l m) (hnodup : (l'.map Prod.fst).Nodup)
    (hmem : ∀ q w, (q, w) ∈ l' ↔ m.lookup q = some w) : l.Perm l' := by
  refine (List.perm_ext_iff_of_nodup (.of_map _ h.nodup) (.of_map _ hnodup)).2 ?_
  rintro ⟨q, w⟩
  rw [h.mem_iff, hmem]

/-- A map has one list of its entries. -/
theorem eq (h : Lists l m) (h' : Lists l' m) : l = l' := by
  refine (h.perm h'.nodup h'.mem_iff).eq_of_pairwise ?_ h.increasing h'.increasing
  intro x y _ _ hxy hyx
  rw [compare_ptr_eq_lt] at hxy hyx
  omega

/-- A pointer without a value is not listed. -/
theorem not_mem_ptrs (h : Lists l m) (hptr : ptr ∉ m) : ptr ∉ l.map Prod.fst := by
  intro hmem
  obtain ⟨⟨q, w⟩, hw, rfl⟩ := List.mem_map.1 hmem
  exact hptr (Finmap.mem_iff.2 ⟨w, (h.mem_iff q w).1 hw⟩)

/-- One entry more. -/
theorem perm_insert (h : Lists l m) (hptr : ptr ∉ m) (h' : Lists l' (m.insert ptr v)) :
    l'.Perm ((ptr, v) :: l) := by
  refine h'.perm ?_ fun q w => ?_
  · rw [List.map_cons, List.nodup_cons]
    exact ⟨h.not_mem_ptrs hptr, h.nodup⟩
  · by_cases hq : q = ptr
    · subst hq
      have hnone : (q, w) ∉ l := fun hw => h.not_mem_ptrs hptr (List.mem_map.2 ⟨_, hw, rfl⟩)
      rw [Finmap.lookup_insert, List.mem_cons, Prod.mk.injEq, or_iff_left hnone, Option.some.injEq]
      exact ⟨fun hw => hw.2.symm, fun hv => ⟨rfl, hv.symm⟩⟩
    · rw [Finmap.lookup_insert_of_ne _ hq, ← h.mem_iff, List.mem_cons, Prod.mk.injEq]
      exact or_iff_right fun hw => hq hw.1

/-- One entry less. -/
theorem perm_erase (h : Lists l m) (hv : m.lookup ptr = some v) (h' : Lists l' (m.erase ptr)) :
    l.Perm ((ptr, v) :: l') := by
  have hm : (m.erase ptr).insert ptr v = m := by
    refine Finmap.ext_lookup fun q => ?_
    by_cases hq : q = ptr
    · rw [hq, Finmap.lookup_insert, hv]
    · rw [Finmap.lookup_insert_of_ne _ hq, Finmap.lookup_erase_ne hq]
  rw [← hm] at h
  exact h'.perm_insert (Finmap.notMem_erase_self) h

/-- One entry with another value. -/
theorem perm_write (h : Lists l m) (hv : m.lookup ptr = some v) (f : α → α)
    (h' : Lists l' (m.insert ptr (f v))) :
    l'.Perm (l.map fun x => (x.1, if x.1 = ptr then f x.2 else x.2)) := by
  refine h'.perm ?_ fun q w => ?_
  · simpa [Function.comp_def] using h.nodup
  · simp only [List.mem_map, Prod.exists, Prod.mk.injEq, h.mem_iff]
    by_cases hq : q = ptr
    · rw [hq, Finmap.lookup_insert, Option.some.injEq]
      constructor
      · rintro ⟨q', u, hu, rfl, rfl⟩
        obtain rfl := Option.some.inj (hu.symm.trans hv)
        rw [if_pos rfl]
      · rintro rfl
        exact ⟨ptr, v, hv, rfl, if_pos rfl⟩
    · rw [Finmap.lookup_insert_of_ne _ hq]
      constructor
      · rintro ⟨q', u, hu, rfl, rfl⟩
        rwa [if_neg hq]
      · intro hw
        exact ⟨q, w, hw, rfl, if_neg hq⟩

end Lists

/-- In a list in increasing order, so many entries come before an entry as its index says. -/
theorem countP_before {l : List (Ptr × α)} (h : l.Pairwise fun a b => compare a.1 b.1 = .lt)
    {i : Nat} (hi : i < l.length) :
    l.countP (fun x => compare x.1 (l[i]).1 == .lt) = i := by
  induction l generalizing i with
  | nil => cases hi
  | cons x l ih =>
      obtain ⟨hx, hl⟩ := List.pairwise_cons.1 h
      cases i with
      | zero =>
          rw [List.countP_eq_zero]
          intro y hy
          rw [beq_iff_eq, List.getElem_cons_zero, compare_ptr_eq_lt]
          rcases List.mem_cons.1 hy with rfl | hy
          · omega
          · have := compare_ptr_eq_lt.1 (hx y hy)
            omega
      | succ i =>
          have hlt : i < l.length := Nat.lt_of_succ_lt_succ hi
          have hbefore : compare x.1 (l[i]).1 = .lt := hx _ (List.getElem_mem hlt)
          rw [List.countP_cons, List.getElem_cons_succ, ih hl hlt, hbefore]
          rfl

/-- A visit, entry by entry. -/
theorem rewritten_eq_map {l : List (Ptr × α)}
    (h : l.Pairwise fun a b => compare a.1 b.1 = .lt) (f : List α → α → α) :
    rewritten f l = l.map fun x => (x.1,
      f ((l.map Prod.snd).take (l.countP fun y => compare y.1 x.1 == .lt)) x.2) := by
  refine List.ext_getElem (by simp [rewritten]) fun i hi _ => ?_
  have hlt : i < l.length := by simpa [rewritten] using hi
  simp only [rewritten, List.getElem_mapIdx, List.getElem_map, countP_before h hlt, List.map_take]

/-! ### What an operation does to the books -/

section

variable {l l' : List (Ptr × α)} {back dropped : Multiset α}

/-- The order of the live values does not matter to the inventory. -/
theorem inventory_congr (h : l.Perm l') : inventory l back dropped = inventory l' back dropped := by
  rw [inventory, inventory, Multiset.coe_eq_coe.2 h]

/-- One more live value is one more object. -/
theorem inventory_cons (ptr : Ptr) (v : α) :
    inventory ((ptr, v) :: l) back dropped = .live ptr v ::ₘ inventory l back dropped := by
  rw [inventory, inventory, ← Multiset.cons_coe, Multiset.map_cons, Multiset.add_cons]

/-- What happens to the live objects does not concern those that have left. -/
theorem map_follow_inventory (change : Ptr → α → Object α) :
    (inventory l back dropped).map (Object.follow change) =
      back.map .handedBack + dropped.map .finalised +
        (l : Multiset (Ptr × α)).map fun x => change x.1 x.2 := by
  simp only [inventory, Multiset.map_add, Multiset.map_map, Function.comp_def, Object.follow]

/-- One more value that was handed back is one more object. -/
theorem inventory_handedBack (v : α) :
    inventory l ({v} + back) (0 + dropped) = .handedBack v ::ₘ inventory l back dropped := by
  simp [inventory, Multiset.singleton_add, Multiset.cons_add]

/-- One more value that was finalised is one more object. -/
theorem inventory_finalised (v : α) :
    inventory l (0 + back) (([v] : List α) + dropped) =
      .finalised v ::ₘ inventory l back dropped := by
  simp [inventory, Multiset.singleton_add, Multiset.cons_add, Multiset.add_cons]

/-- The objects of a pool after all live ones were finalised. -/
theorem map_finalise_inventory :
    (inventory l back dropped).map Object.finalise =
      back.map Object.handedBack +
        (dropped + (l.map Prod.snd : List α)).map Object.finalised := by
  unfold Object.finalise
  rw [map_follow_inventory, Multiset.map_add, add_assoc, Multiset.map_coe, Multiset.map_coe,
    List.map_map]
  rfl

/-- Only live objects are before a pointer. -/
theorem countP_inventory (ptr : Ptr) :
    ((inventory l back dropped).countP fun o => o.isBefore ptr) =
      l.countP fun x => compare x.1 ptr == .lt := by
  have hback : ((back.map Object.handedBack).countP fun o => o.isBefore ptr) = 0 := by
    rw [Multiset.countP_eq_zero]
    intro o ho
    obtain ⟨v, -, rfl⟩ := Multiset.mem_map.1 ho
    simp
  have hdropped : ((dropped.map Object.finalised).countP fun o => o.isBefore ptr) = 0 := by
    rw [Multiset.countP_eq_zero]
    intro o ho
    obtain ⟨v, -, rfl⟩ := Multiset.mem_map.1 ho
    simp
  rw [inventory, Multiset.countP_add, Multiset.countP_add, hback, hdropped, Multiset.map_coe,
    Multiset.coe_countP, List.countP_map, zero_add, zero_add]
  simp [Function.comp_def]

end

namespace Lists

variable {l l' : List (Ptr × α)} {m : Contents α} {ptr : Ptr} {v : α} {back dropped : Multiset α}

/-- An object enters the books. -/
theorem inventory_insert (hl : Lists l m) (hptr : ptr ∉ m) (hl' : Lists l' (m.insert ptr v)) :
    .live ptr v ::ₘ inventory l back dropped = inventory l' back dropped := by
  rw [inventory_congr (hl.perm_insert hptr hl'), inventory_cons]

/-- Exactly one object leaves with an entry of the map. -/
theorem inventory_erase (hl : Lists l m) (hv : m.lookup ptr = some v)
    (hl' : Lists l' (m.erase ptr)) (left : α → Object α) :
    (inventory l back dropped).map (.leave ptr left) = left v ::ₘ inventory l' back dropped := by
  have hrest : ∀ x ∈ (l' : Multiset (Ptr × α)),
      (if x.1 = ptr then left x.2 else .live x.1 x.2) = Object.live x.1 x.2 := by
    intro x hx
    have hne : x.1 ≠ ptr := by
      intro heq
      exact hl'.not_mem_ptrs Finmap.notMem_erase_self (List.mem_map.2 ⟨x, hx, heq⟩)
    rw [if_neg hne]
  unfold Object.leave
  rw [inventory_congr (hl.perm_erase hv hl'), map_follow_inventory, ← Multiset.cons_coe,
    Multiset.map_cons, if_pos rfl, Multiset.map_congr rfl hrest, Multiset.add_cons, inventory]

/-- A write changes the value of one object. -/
theorem inventory_write (hl : Lists l m) (hv : m.lookup ptr = some v) (f : α → α)
    (hl' : Lists l' (m.insert ptr (f v))) :
    (inventory l back dropped).map (.write ptr f) = inventory l' back dropped := by
  unfold Object.write
  rw [inventory_congr (hl.perm_write hv f hl'), map_follow_inventory, inventory,
    Multiset.map_coe, Multiset.map_coe, List.map_map]
  rfl

/-- A visit rewrites the live objects in the order of their pointers. -/
theorem inventory_visit (hl : Lists l m) (f : List α → α → α) :
    (inventory l back dropped).map (.follow fun ptr v =>
        .live ptr (f ((l.map Prod.snd).take
          ((inventory l back dropped).countP fun o => o.isBefore ptr)) v)) =
      inventory (rewritten f l) back dropped := by
  simp only [countP_inventory]
  rw [map_follow_inventory, rewritten_eq_map hl.increasing, inventory, Multiset.map_coe,
    Multiset.map_coe, List.map_map]
  rfl

end Lists

/-- A store that succeeds. -/
theorem Stores.of_ok {make : Ptr → Except Fault α} {m m' : Contents α} {answer : Answer α}
    (h : Stores limit make m (.ok answer) m') :
    ∃ ptr v, answer = .stored ptr ∧ make ptr = .ok v ∧ ptr ∉ m ∧ m' = m.insert ptr v := by
  cases h with
  | stored _ hptr hmake => exact ⟨_, _, rfl, hmake, hptr, rfl⟩

/-- An allocation that fails stores nothing. -/
theorem Stores.of_error {make : Ptr → Except Fault α} {m m' : Contents α} {e : Fault}
    (h : Stores limit make m (.error e) m') : m' = m := by
  cases h with
  | withheld _ _ _ => rfl
  | full _ => rfl

namespace Op.Meets

variable {m m' : Contents α} {op : Op α}

/-- An operation that fails leaves the map as it is. -/
theorem of_error {e : Fault} (h : op.Meets limit m (.error e) m') : m' = m := by
  cases op with
  | alloc v => exact Stores.of_error h
  | allocWith make => exact Stores.of_error h
  | construct make => exact Stores.of_error h
  | dealloc ptr =>
      simp only [Meets] at h
      split at h
      · cases h.1
      · exact h.2
  | tryDealloc ptr =>
      simp only [Meets] at h
      split at h <;> cases h.1
  | destroy ptr =>
      simp only [Meets] at h
      split at h
      · cases h.1
      · exact h.2
  | update ptr f =>
      simp only [Meets] at h
      split at h
      · cases h.1
      · exact h.2
  | update? ptr f =>
      simp only [Meets] at h
      split at h <;> cases h.1
  | visit f =>
      obtain ⟨_, _, hanswer, _⟩ := h
      cases hanswer
  | clear =>
      obtain ⟨⟨_, _, hanswer⟩, _⟩ := h
      cases hanswer

variable {l l' : List (Ptr × α)} {answer : Answer α}

/-- What an operation enters into the books is what its contract says it does to the map. -/
theorem record (h : op.Meets limit m (.ok answer) m') (hl : Lists l m) (hl' : Lists l' m')
    (back dropped : Multiset α) :
    op.record answer (inventory l back dropped) =
      inventory l' (op.returned answer + back) (op.dropped answer + dropped) := by
  -- the contract tells the new map in each case, and a map has one list only
  cases op with
  | alloc v =>
      obtain ⟨ptr, w, rfl, hmake, hptr, rfl⟩ := Stores.of_ok h
      obtain rfl := Except.ok.inj hmake
      simp only [Op.record, returned, Op.dropped, zero_add]
      exact hl.inventory_insert hptr hl'
  | allocWith make =>
      obtain ⟨ptr, w, rfl, hmake, hptr, rfl⟩ := Stores.of_ok h
      simp only [Op.record, hmake, returned, Op.dropped, zero_add]
      exact hl.inventory_insert hptr hl'
  | construct make =>
      obtain ⟨ptr, w, rfl, hmake, hptr, rfl⟩ := Stores.of_ok h
      obtain rfl := Except.ok.inj hmake
      simp only [Op.record, returned, Op.dropped, zero_add]
      exact hl.inventory_insert hptr hl'
  | dealloc ptr =>
      cases hv : m.lookup ptr with
      | none => simp [Meets, hv] at h
      | some v =>
          simp only [Meets, hv, Except.ok.injEq] at h
          obtain ⟨rfl, rfl⟩ := h
          exact (hl.inventory_erase hv hl' .handedBack).trans (inventory_handedBack v).symm
  | tryDealloc ptr =>
      cases hv : m.lookup ptr with
      | none =>
          simp only [Meets, hv, Except.ok.injEq] at h
          obtain ⟨rfl, rfl⟩ := h
          rw [hl.eq hl']
          simp only [Op.record, returned, Op.dropped, zero_add]
      | some v =>
          simp only [Meets, hv, Except.ok.injEq] at h
          obtain ⟨rfl, rfl⟩ := h
          exact (hl.inventory_erase hv hl' .handedBack).trans (inventory_handedBack v).symm
  | destroy ptr =>
      cases hv : m.lookup ptr with
      | none => simp [Meets, hv] at h
      | some v =>
          simp only [Meets, hv, Except.ok.injEq] at h
          obtain ⟨rfl, rfl⟩ := h
          exact (hl.inventory_erase hv hl' .finalised).trans (inventory_finalised v).symm
  | update ptr f =>
      cases hv : m.lookup ptr with
      | none => simp [Meets, hv] at h
      | some v =>
          simp only [Meets, hv, Except.ok.injEq] at h
          obtain ⟨rfl, rfl⟩ := h
          simp only [Op.record, returned, Op.dropped, zero_add]
          exact hl.inventory_write hv f hl'
  | update? ptr f =>
      cases hv : m.lookup ptr with
      | none =>
          simp only [Meets, hv, Except.ok.injEq] at h
          obtain ⟨rfl, rfl⟩ := h
          rw [hl.eq hl']
          simp only [Op.record, returned, Op.dropped, zero_add]
      | some v =>
          simp only [Meets, hv, Except.ok.injEq] at h
          obtain ⟨rfl, rfl⟩ := h
          simp only [Op.record, returned, Op.dropped, zero_add]
          exact hl.inventory_write hv f hl'
  | visit f =>
      obtain ⟨seen, hseen, hanswer, hm'⟩ := h
      obtain rfl := hl.eq hseen
      obtain rfl := Except.ok.inj hanswer
      simp only [Op.record, returned, Op.dropped, zero_add]
      rw [hl'.eq hm']
      exact hl.inventory_visit f
  | clear =>
      obtain ⟨⟨seen, hseen, hanswer⟩, rfl⟩ := h
      obtain rfl := hl.eq hseen
      obtain rfl := Except.ok.inj hanswer
      have hempty : l' = [] := hl'.eq ⟨.nil, fun q w => by simp⟩
      subst hempty
      simp only [Op.record, returned, Op.dropped, zero_add]
      rw [map_finalise_inventory, inventory, add_comm dropped]
      simp

end Op.Meets

/-! ### Runs -/

/-- A sound pool and its log: the finite map that is read off the pool is what the books say. -/
structure Booked (s : Log α × Pool α) : Prop where
  sound : Sound s.2
  reads : ∃ m, Reads s.2 m
  objects : s.1.objects = inventory s.2.toList s.1.handedBack s.1.finalised

/-- The books of a new pool are right, and empty. -/
theorem booked_new (capacity : Capacity) : Booked (([], new capacity) : Log α × Pool α) where
  sound := sound_new capacity
  reads := ⟨∅, reads_empty (sound_new capacity) (get?_new capacity) rfl⟩
  objects := rfl

/-- One operation keeps the books right, whether it is answered or fails. -/
theorem Booked.perform {s : Log α × Pool α} (h : Booked s) (op : Op α) :
    Booked (perform s op) := by
  obtain ⟨m, hm⟩ := h.reads
  obtain ⟨hsound, -, m', hm', hmeets⟩ := h.sound.op_carries hm op
  refine ⟨hsound, ⟨m', hm'⟩, ?_⟩
  unfold Pool.perform
  cases hanswer : (op.run.outcome s.2).1 with
  | ok answer =>
      rw [hanswer] at hmeets
      simp only [Log.objects, Log.handedBack, Log.finalised, h.objects]
      exact hmeets.record hm.toList hm'.toList _ _
  | error e =>
      rw [hanswer] at hmeets
      obtain rfl := hmeets.of_error
      simp only [Log.objects, Log.handedBack, Log.finalised, h.objects]
      rw [hm.toList.eq hm'.toList]

/-- The books stay right over every run of operations. -/
theorem Booked.foldl {s : Log α × Pool α} (h : Booked s) (ops : List (Op α)) :
    Booked (ops.foldl Pool.perform s) := by
  induction ops generalizing s with
  | nil => exact h
  | cons op ops ih => exact ih (h.perform op)

/-- The rest of the books follows from where each object is. -/
theorem Booked.accounted {s : Log α × Pool α} (h : Booked s) : Accounted s.1 s.2 where
  objects := h.objects
  values := by
    rw [h.objects, inventory, Multiset.map_add, Multiset.map_add, Multiset.map_map,
      Multiset.map_map, Multiset.map_map]
    simp only [Function.comp_def, Object.value, Multiset.map_id', Multiset.map_coe]
    rfl
  close _ := by
    rw [h.objects, map_finalise_inventory]
    rfl
  report failing := by
    obtain ⟨m, hm⟩ := h.reads
    have hlive : s.2.live = s.2.values.length := by
      rw [hm.live, hm.toList.card_keys, values, List.length_map]
    simp only [close, hlive, ne_eq, List.length_eq_zero_iff]

/-- No object is lost, duplicated or finalised twice: after every run of operations on a new
pool, whatever their pointers and whichever of them fail, the books are right. -/
theorem accounted_history (capacity : Capacity) (ops : List (Op α)) :
    Accounted (history capacity ops).1 (history capacity ops).2 :=
  ((booked_new capacity).foldl ops).accounted

/-- A second deallocation of one pointer fails, and changes no book. -/
example : (history ⟨2, by decide, by decide⟩
      [.alloc 7, .alloc 8, .dealloc ⟨0, 0⟩, .dealloc ⟨0, 0⟩, .alloc 9]).1.objects =
    {.live ⟨0, 0⟩ 9, .live ⟨0, 1⟩ 8, .handedBack 7} := by
  decide +kernel

end Pool

end SlabGraph
