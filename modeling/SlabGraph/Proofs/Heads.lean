import SlabGraph.Proofs.Board

/-!
# Lists at Heads

On a board any head can be used with any slot and any item. Those who own the heads use them with
more care. A head is used with the items of one slot, which it may share with other heads, and its
owners know which items are in its list. An item is pushed only if it is in no list of the slot. It
is unlinked with the head of the list that it is in, or while it is in no list of the slot
(`Lists.Permits`).

Under these conditions no operation fails, and walking from a head yields the list that the owners
have in mind: to push an item is to put it in front, and to unlink it is to erase it. The lists at
the other heads stay as they are, those of the same slot share no item with it, and nothing at all
happens in other slots (`Board.keeps_lists`).

The links alone do not tell an item in no list from the only member of a list. So what ties a board
to the lists speaks of both the links and the heads (`Board.Tracks`). An operation edits one list,
and the head then names the first member of what the list has become (`Board.Tracks.edit`).

## Main definitions

* `Board.ListOp`, `Board.Lists`, `Lists.Permits`, `Lists.apply`: the lists, what may be done, and
  what becomes of them;
* `Board.Tracks`, `Board.KeepsLists`.

## Main results

* `Board.Tracks.pushFront`, `Board.Tracks.unlink`: one operation; `Board.Tracks.run`: any number;
* `Board.keeps_lists`.
-/

namespace SlabGraph

namespace Board

variable {slots heads : Nat}

/-! ### Lists -/

/-- What is done with lists. -/
inductive ListOp (heads : Nat) where
  /-- An item is put in front of the list at a head. -/
  | pushFront (i : Item) (head : Fin heads)
  /-- An item is taken out of the list at a head. -/
  | unlink (i : Item) (head : Fin heads)

namespace ListOp

/-- The head that is used. -/
def head : ListOp heads → Fin heads
  | pushFront _ head | unlink _ head => head

/-- The operation on the board, with the slot of the head. -/
def run (slotOf : Fin heads → Fin slots) : ListOp heads → Action (Board slots) Unit
  | pushFront i head => Board.pushFront i (slotOf head) head
  | unlink i head => Board.unlink i (slotOf head) head

end ListOp

/-- The members of the list at each head. -/
abbrev Lists (heads : Nat) := Fin heads → List Item

namespace Lists

/-- No list has a member. -/
def empty : Lists heads := fun _ => []

/-- An item is in no list of a slot. -/
def Spare (slotOf : Fin heads → Fin slots) (lists : Lists heads) (slot : Fin slots) (i : Item) :
    Prop :=
  ∀ head, slotOf head = slot → i ∉ lists head

/-- What those who own the heads do, on a board of so many items, none of which is the reserved
one. -/
def Permits (slotOf : Fin heads → Fin slots) (items : Nat) (lists : Lists heads) :
    ListOp heads → Prop
  | .pushFront i head =>
      (i.val < items ∧ i ≠ Reserved.reserved) ∧ lists.Spare slotOf (slotOf head) i
  | .unlink i head =>
      (i.val < items ∧ i ≠ Reserved.reserved) ∧
        (i ∈ lists head ∨ lists.Spare slotOf (slotOf head) i)

/-- What becomes of the lists. -/
def apply (lists : Lists heads) : ListOp heads → Lists heads
  | .pushFront i head => Function.update lists head (i :: lists head)
  | .unlink i head => Function.update lists head ((lists head).erase i)

/-- Some operations are permitted, each of them after those before it. -/
def PermitsAll (slotOf : Fin heads → Fin slots) (items : Nat) (lists : Lists heads) :
    List (ListOp heads) → Prop
  | [] => True
  | op :: ops => lists.Permits slotOf items op ∧ (lists.apply op).PermitsAll slotOf items ops

/-- The lists after some operations. -/
def applyAll (lists : Lists heads) (ops : List (ListOp heads)) : Lists heads :=
  ops.foldl apply lists

instance (slotOf : Fin heads → Fin slots) (lists : Lists heads) (slot : Fin slots) (i : Item) :
    Decidable (lists.Spare slotOf slot i) :=
  inferInstanceAs (Decidable (∀ head, slotOf head = slot → i ∉ lists head))

instance (slotOf : Fin heads → Fin slots) (items : Nat) (lists : Lists heads)
    (op : ListOp heads) : Decidable (lists.Permits slotOf items op) :=
  match op with
  | .pushFront i head => inferInstanceAs (Decidable
      ((i.val < items ∧ i ≠ Reserved.reserved) ∧ lists.Spare slotOf (slotOf head) i))
  | .unlink i head => inferInstanceAs (Decidable
      ((i.val < items ∧ i ≠ Reserved.reserved) ∧
        (i ∈ lists head ∨ lists.Spare slotOf (slotOf head) i)))

instance decidablePermitsAll (slotOf : Fin heads → Fin slots) (items : Nat) (lists : Lists heads) :
    (ops : List (ListOp heads)) → Decidable (lists.PermitsAll slotOf items ops)
  | [] => inferInstanceAs (Decidable True)
  | op :: ops =>
      have := decidablePermitsAll slotOf items (lists.apply op) ops
      inferInstanceAs (Decidable (lists.Permits slotOf items op ∧
        (lists.apply op).PermitsAll slotOf items ops))

end Lists

/-- A board keeps some lists. -/
structure KeepsLists (slotOf : Fin heads → Fin slots) (board : Board slots) (lists : Lists heads) :
    Prop where
  /-- Walking from a head yields its list. -/
  members : ∀ head : Fin heads, board.members head (slotOf head) = .ok (lists head)
  /-- Lists of one slot share no item. -/
  disjoint : ∀ head head', head ≠ head' → slotOf head = slotOf head' →
    (lists head).Disjoint (lists head')

/-! ### Boards that track lists -/

/-- The links and the heads of a board are those of some lists. -/
structure Tracks (slotOf : Fin heads → Fin slots) (items : Nat) (board : Board slots)
    (lists : Lists heads) : Prop where
  /-- The number of items. -/
  size : board.items.size = items
  /-- A head names the first member of its list. -/
  unpack : ∀ head : Fin heads, ∃ value, board.heads[head.val]? = some value ∧
    value.unpack = (lists head).head?
  /-- The members of a list are linked. -/
  linked : ∀ head, (Chain.linkMap board.items (slotOf head)).IsList (lists head)
  /-- Lists of one slot share no item. -/
  apart : ∀ head head', head ≠ head' → slotOf head = slotOf head' →
    (lists head).Disjoint (lists head')
  /-- An item in no list of a slot has no links there. -/
  loose : ∀ slot i, board.Has i → lists.Spare slotOf slot i →
    Chain.linkMap board.items slot i = some (none, none)

namespace Tracks

variable {slotOf : Fin heads → Fin slots} {items : Nat} {board : Board slots} {lists : Lists heads}

/-- A new board keeps track of empty lists. -/
theorem new (slotOf : Fin heads → Fin slots) (items : Nat) :
    Tracks slotOf items (Board.new slots items heads) .empty where
  size := Array.size_replicate
  unpack head := ⟨.empty, by simp [Board.new], by simp [Lists.empty]⟩
  linked _ := LinkMap.isList_nil _
  apart _ _ _ _ := List.disjoint_nil_left _
  loose _ _ hi _ := linkMap_new hi

/-- Walking from a head yields its list. -/
theorem keepsLists (h : Tracks slotOf items board lists) : KeepsLists slotOf board lists where
  members head := by
    obtain ⟨value, hvalue, hunpack⟩ := h.unpack head
    have hlist := h.linked head
    have hlength : (lists head).length ≤ board.items.size := by
      by_cases hnil : lists head = []
      · simp [hnil]
      · exact (isChain_iff.2 ⟨hnil, hlist⟩).length_le
    simp only [Board.members, headAt_eq hvalue, ok_bind, hunpack]
    exact Chain.walk_run hlist hlength
  disjoint := h.apart

/-! ### One list is edited -/

section

variable {head : Fin heads} {ys : List Item} {t : Array (Links Item slots)}

/-- After one list was edited, each list is still linked in its slot. -/
theorem linked_update (h : Tracks slotOf items board lists)
    (hedit : Chain.Edited (slotOf head) board.items (lists head) ys t)
    (hapart : ∀ k, k ≠ head → slotOf k = slotOf head → ys.Disjoint (lists k)) (k : Fin heads) :
    (Chain.linkMap t (slotOf k)).IsList (Function.update lists head ys k) := by
  by_cases hk : k = head
  · subst hk
    rw [Function.update_self]
    exact hedit.list
  · rw [Function.update_of_ne hk]
    by_cases hslot : slotOf k = slotOf head
    · refine (h.linked k).of_eq_on fun i hi => ?_
      rw [hslot]
      exact hedit.outside i (fun hi' => h.apart k head hk hslot hi hi') fun hi' =>
        hapart k hk hslot hi' hi
    · rw [hedit.other _ hslot]
      exact h.linked k

/-- After one list was edited, lists of one slot still have no member in common. -/
theorem apart_update (h : Tracks slotOf items board lists)
    (hapart : ∀ k, k ≠ head → slotOf k = slotOf head → ys.Disjoint (lists k)) (k k' : Fin heads)
    (hne : k ≠ k') (hslot : slotOf k = slotOf k') :
    (Function.update lists head ys k).Disjoint (Function.update lists head ys k') := by
  by_cases hk : k = head
  · subst hk
    rw [Function.update_self, Function.update_of_ne (Ne.symm hne)]
    exact hapart k' (Ne.symm hne) hslot.symm
  · rw [Function.update_of_ne hk]
    by_cases hk' : k' = head
    · subst hk'
      rw [Function.update_self]
      exact List.disjoint_symm (hapart k hne hslot)
    · rw [Function.update_of_ne hk']
      exact h.apart k k' hne hslot

/-- After one list was edited, an item that is on no list of a slot is linked to nothing there. -/
theorem loose_update (h : Tracks slotOf items board lists)
    (hedit : Chain.Edited (slotOf head) board.items (lists head) ys t)
    (hleft : ∀ i ∈ lists head, i ∉ ys → Chain.linkMap t (slotOf head) i = some (none, none))
    (slot : Fin slots) (i : Item) (hi : board.Has i)
    (hspare : Lists.Spare slotOf (Function.update lists head ys) slot i) :
    Chain.linkMap t slot i = some (none, none) := by
  have hothers : ∀ k, k ≠ head → slotOf k = slot → i ∉ lists k := fun k hk hslot => by
    have hk' := hspare k hslot
    rwa [Function.update_of_ne hk] at hk'
  by_cases hslot : slotOf head = slot
  · subst hslot
    have hys : i ∉ ys := by
      have hhead := hspare head rfl
      rwa [Function.update_self] at hhead
    by_cases hold : i ∈ lists head
    · exact hleft i hold hys
    · rw [hedit.outside i hold hys]
      refine h.loose _ i hi fun k hk => ?_
      by_cases heq : k = head
      · exact heq ▸ hold
      · exact hothers k heq hk
  · rw [hedit.other slot (Ne.symm hslot)]
    exact h.loose slot i hi fun k hk => hothers k (fun heq => hslot (heq ▸ hk)) hk

/-- The list at a head has become another one, and the head names its first member. -/
theorem edit (h : Tracks slotOf items board lists)
    (hedit : Chain.Edited (slotOf head) board.items (lists head) ys t) {value : Packed Item}
    (hvalue : value.unpack = ys.head?)
    (hapart : ∀ k, k ≠ head → slotOf k = slotOf head → ys.Disjoint (lists k))
    (hleft : ∀ i ∈ lists head, i ∉ ys → Chain.linkMap t (slotOf head) i = some (none, none)) :
    Tracks slotOf items ⟨t, board.heads.setIfInBounds head value⟩
      (Function.update lists head ys) := by
  have hsize : t.size = board.items.size := size_of_relinked hedit.relinked
  refine ⟨hsize.trans h.size, fun k => ?_, h.linked_update hedit hapart, h.apart_update hapart,
    fun slot i hi => h.loose_update hedit hleft slot i ⟨hsize ▸ hi.1, hi.2⟩⟩
  obtain ⟨old, hold, hunpack⟩ := h.unpack k
  by_cases hk : k = head
  · subst hk
    have hlt := (Array.getElem?_eq_some_iff.1 hold).1
    exact ⟨value, by simp [hlt], by rw [Function.update_self, hvalue]⟩
  · have hne : head.val ≠ k.val := fun heq => hk (Fin.ext heq.symm)
    refine ⟨old, ?_, by rw [Function.update_of_ne hk, hunpack]⟩
    rw [Array.getElem?_setIfInBounds_ne hne, hold]

/-- The same links show the same lists. -/
theorem of_linkMap (h : Tracks slotOf items board lists)
    (hmap : ∀ slot, Chain.linkMap t slot = Chain.linkMap board.items slot)
    (hrel : Chain.Relinked board.items t) : Tracks slotOf items ⟨t, board.heads⟩ lists := by
  have hsize : t.size = board.items.size := size_of_relinked hrel
  refine ⟨hsize.trans h.size, h.unpack, fun k => ?_, h.apart, fun slot i hi hspare => ?_⟩
  · exact (hmap _).symm ▸ h.linked k
  · exact (congrFun (hmap slot) i).trans (h.loose slot i ⟨hsize ▸ hi.1, hi.2⟩ hspare)

end

/-! ### Operations -/

variable {i : Item} {head : Fin heads}

/-- Pushing an item puts it in front of the list. -/
theorem pushFront (h : Tracks slotOf items board lists)
    (hop : lists.Permits slotOf items (.pushFront i head)) :
    ∃ board', Board.pushFront i (slotOf head) head board = .ok () board' ∧
      Tracks slotOf items board' (lists.apply (.pushFront i head)) ∧
      ∀ slot, slot ≠ slotOf head → SameChains slot board board' := by
  obtain ⟨hi, hspare⟩ := hop
  obtain ⟨value, hvalue, hfirst⟩ := h.unpack head
  have hloose := h.loose _ i ⟨h.size ▸ hi.1, hi.2⟩ hspare
  obtain ⟨value', t, hrun, hunpack, hedit⟩ :=
    Chain.pushFront_run (h.linked head) hfirst hloose (hspare head rfl)
  refine ⟨⟨t, board.heads.setIfInBounds head value'⟩, ?_, ?_,
    fun slot hne => sameChains_of_linkMap (hedit.other slot hne)⟩
  · simp [Board.pushFront, headAt_eq hvalue, onItems, hrun]
  · refine h.edit hedit hunpack (fun k hk hslot x hx hxk => ?_)
      fun x hx hxs => absurd (List.mem_cons_of_mem i hx) hxs
    rcases List.mem_cons.1 hx with rfl | hx
    · exact hspare k hslot hxk
    · exact h.apart k head hk hslot hxk hx

/-- Unlinking an item erases it from the list, if it is in the list. -/
theorem unlink (h : Tracks slotOf items board lists)
    (hop : lists.Permits slotOf items (.unlink i head)) :
    ∃ board', Board.unlink i (slotOf head) head board = .ok () board' ∧
      Tracks slotOf items board' (lists.apply (.unlink i head)) ∧
      ∀ slot, slot ≠ slotOf head → SameChains slot board board' := by
  obtain ⟨hi, hmem⟩ := hop
  obtain ⟨value, hvalue, hfirst⟩ := h.unpack head
  by_cases hin : i ∈ lists head
  · obtain ⟨value', t, hrun, hunpack, hself, hedit⟩ :=
      Chain.unlink_run (h.linked head) hfirst hin
    refine ⟨⟨t, board.heads.setIfInBounds head value'⟩, ?_, ?_,
      fun slot hne => sameChains_of_linkMap (hedit.other slot hne)⟩
    · simp [Board.unlink, headAt_eq hvalue, onItems, hrun]
    · refine h.edit hedit hunpack (fun k hk hslot x hx hxk => ?_) fun x hx hxs => ?_
      · exact h.apart k head hk hslot hxk (List.mem_of_mem_erase hx)
      · obtain rfl : x = i := by
          by_contra hne
          exact hxs ((List.mem_erase_of_ne hne).2 hx)
        exact hself
  · have hspare := hmem.resolve_left hin
    have hloose := h.loose _ i ⟨h.size ▸ hi.1, hi.2⟩ hspare
    have hnot : value.unpack ≠ some i := fun heq =>
      hin (List.mem_of_head? (hfirst.symm.trans heq))
    obtain ⟨t, hrun, hmap, hrel⟩ := Chain.unlink_loose_run hloose hnot
    have hheads : board.heads.setIfInBounds head value = board.heads := by
      obtain ⟨hlt, rfl⟩ := Array.getElem?_eq_some_iff.1 hvalue
      rw [Array.setIfInBounds_def, dif_pos hlt, Array.set_getElem_self]
    refine ⟨⟨t, board.heads⟩, ?_, ?_, fun slot _ => sameChains_of_linkMap (hmap slot)⟩
    · simp [Board.unlink, headAt_eq hvalue, onItems, hrun, hheads]
    · rw [Lists.apply, List.erase_of_not_mem hin, Function.update_eq_self]
      exact h.of_linkMap hmap hrel

/-- What is permitted succeeds, and the board then tracks what becomes of the lists. -/
theorem step (h : Tracks slotOf items board lists) (op : ListOp heads)
    (hop : lists.Permits slotOf items op) :
    ∃ board', op.run slotOf board = .ok () board' ∧
      Tracks slotOf items board' (lists.apply op) ∧
      ∀ slot, slot ≠ slotOf op.head → SameChains slot board board' := by
  cases op with
  | pushFront i head => exact h.pushFront hop
  | unlink i head => exact h.unlink hop

/-- A run in which every operation is permitted succeeds, and the board then tracks what becomes of
the lists. -/
theorem run (h : Tracks slotOf items board lists) {ops : List (ListOp heads)}
    (hops : lists.PermitsAll slotOf items ops) :
    ∃ board', (forM ops (ListOp.run slotOf) : Action (Board slots) Unit) board = .ok () board' ∧
      Tracks slotOf items board' (lists.applyAll ops) := by
  induction ops generalizing board lists with
  | nil => exact ⟨board, rfl, h⟩
  | cons op ops ih =>
      obtain ⟨u, hrun, hu, -⟩ := h.step op hops.1
      obtain ⟨board', hrun', h'⟩ := ih hu hops.2
      exact ⟨board', by simp [hrun, hrun'], h'⟩

end Tracks

/-! ### Boards -/

/-- From unlinked items and empty lists on, permitted operations all succeed. Walking from a head
yields its list, and what is permitted next succeeds as well and leaves other slots alone. -/
theorem keeps_lists (slotOf : Fin heads → Fin slots) (items : Nat) (ops : List (ListOp heads))
    (hops : Lists.empty.PermitsAll slotOf items ops) :
    ∃ board, (forM ops (ListOp.run slotOf) : Action (Board slots) Unit) (new slots items heads) =
        .ok () board ∧
      KeepsLists slotOf board (Lists.empty.applyAll ops) ∧
      ∀ op, (Lists.empty.applyAll ops).Permits slotOf items op →
        ∃ board', op.run slotOf board = .ok () board' ∧
          KeepsLists slotOf board' ((Lists.empty.applyAll ops).apply op) ∧
          ∀ slot, slot ≠ slotOf op.head → SameChains slot board board' := by
  obtain ⟨board, hrun, h⟩ := (Tracks.new slotOf items).run hops
  refine ⟨board, hrun, h.keepsLists, fun op hop => ?_⟩
  obtain ⟨board', hrun', h', hsame⟩ := h.step op hop
  exact ⟨board', hrun', h'.keepsLists, hsame⟩

/-- Two heads that share a slot, and one with a slot for itself. -/
def twoAndOne (head : Fin 3) : Fin 2 := if head = 2 then 1 else 0

/-- From the lists at the heads, the middle, the first and the only member and an item in no list
are unlinked. -/
def pushedAndUnlinked : List (ListOp 3) :=
  [.pushFront ⟨0⟩ 0, .pushFront ⟨1⟩ 0, .pushFront ⟨2⟩ 0, .pushFront ⟨3⟩ 1, .pushFront ⟨1⟩ 2,
    .pushFront ⟨3⟩ 2, .unlink ⟨1⟩ 0, .unlink ⟨1⟩ 0, .unlink ⟨2⟩ 0, .unlink ⟨3⟩ 1, .pushFront ⟨3⟩ 0]

/-- After items were pushed at three heads over two slots and some of them unlinked, the members
that are left are read off the heads. -/
theorem keeps_lists_twoAndOne : Lists.empty.PermitsAll twoAndOne 4 pushedAndUnlinked ∧
    ∃ board : Board 2, (forM pushedAndUnlinked (ListOp.run twoAndOne) :
        Action (Board 2) Unit) (new 2 4 3) = .ok () board ∧
      board.members 0 0 = .ok [⟨3⟩, ⟨0⟩] ∧ board.members 1 0 = .ok [] ∧
      board.members 2 1 = .ok [⟨3⟩, ⟨1⟩] := by
  have hops : Lists.empty.PermitsAll twoAndOne 4 pushedAndUnlinked := by decide +kernel
  obtain ⟨board, hrun, hkeeps, -⟩ := keeps_lists twoAndOne 4 pushedAndUnlinked hops
  exact ⟨hops, board, hrun, hkeeps.members 0, hkeeps.members 1, hkeeps.members 2⟩

end Board

end SlabGraph
