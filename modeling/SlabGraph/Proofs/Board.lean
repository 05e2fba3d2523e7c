import Mathlib.Data.List.Perm.Subperm
import SlabGraph.Chain.Board
import SlabGraph.Proofs.Chain.Partition
import SlabGraph.Proofs.Pool.Access

/-!
# Boards Stay in Order

On a board the chain operations are used without any discipline: on any items and slots,
whether they exist or not, with any value in a head. `Board.Op` is such a use, and
`Board.runAll` goes on after an operation that failed. `Board.InOrder` says what holds of the
chains all the same.

A *chain* is a list of items whose links lead from each member to the next and back, and from
the first and the last nowhere (`Board.IsChain`). In each slot of a board in order, every item
is in exactly one chain, and no chain meets an item twice. An operation fails and leaves the
board as it was, or replaces a few chains by others (`Board.Regrouped`) and leaves all other
chains of the slot and all other slots alone. `Board.Op.Allowed` says which of the two
happens, and `Board.Op.Effect` says what becomes of the chains and the heads.

The reason is that the link maps of the items stay covered (`Board.Sound`). A head plays no
part in it. It may name an item in the middle of a chain, in another slot, or nowhere, and the
most that comes of it is an operation that fails, or an item in the middle of a chain.

## Main definitions

* `Board.IsChain`, `Board.Regrouped`, `Board.Op`, `Board.Op.Allowed`, `Board.Op.Effect`,
  `Board.InOrder`.

## Main results

* `Board.inOrder_runAll`.
-/

namespace SlabGraph

namespace Board

variable {slots : Nat}

/-! ### Chains -/

/-- A pointer names an item of the board. -/
def Has (board : Board slots) (i : Item) : Prop :=
  i.val < board.items.size ∧ i ≠ Reserved.reserved

/-- The links of a slot lead through the members of a list and back, and no further. -/
structure IsChain (board : Board slots) (slot : Nat) (xs : List Item) : Prop where
  ne_nil : xs ≠ []
  /-- A member is linked to the member before it and to the member after it. -/
  links : ∀ as i bs, xs = as ++ i :: bs →
    Chain.prev board.items i slot = .ok as.getLast? ∧
    Chain.next board.items i slot = .ok bs.head?

/-- In a slot, some chains have become others, and all other chains are as before. The empty
list may stand among the new ones and is not a chain. -/
structure Regrouped (slot : Nat) (board board' : Board slots) (old new : List (List Item)) :
    Prop where
  isChain_old : ∀ xs ∈ old, board.IsChain slot xs
  isChain_iff : ∀ xs,
    board'.IsChain slot xs ↔ xs ≠ [] ∧ xs ∈ new ∨ board.IsChain slot xs ∧ xs ∉ old

/-- A slot has the same chains. -/
def SameChains (slot : Nat) (board board' : Board slots) : Prop :=
  ∀ xs, board'.IsChain slot xs ↔ board.IsChain slot xs

/-- An item that was a chain by itself stands directly in front of another item, and all other
slots are as before. -/
def Spliced (board board' : Board slots) (i : Item) (slot : Nat) (peer : Item) : Prop :=
  (∃ as bs, Regrouped slot board board' [[i], as ++ peer :: bs] [as ++ i :: peer :: bs]) ∧
    ∀ j, j ≠ slot → SameChains j board board'

/-- An item is a chain by itself, and the gap in the chain that it was in is closed. -/
def SetApart (board board' : Board slots) (i : Item) (slot : Nat) : Prop :=
  ∃ as bs, Regrouped slot board board' [as ++ i :: bs] [[i], as ++ bs]

/-! ### Operations -/

/-- The operations on a board. Between two of them the owner of a head may store any value
in it. -/
inductive Op where
  | attach (i : Item) (slot : Nat) (peer : Item)
  | detach (i : Item) (slot : Nat)
  | detachAll (i : Item)
  | pushFront (i : Item) (slot head : Nat)
  | unlink (i : Item) (slot head : Nat)
  | setHead (head : Nat) (value : Packed Item)

namespace Op

/-- Runs an operation. -/
def run : Op → Action (Board slots) Unit
  | attach i slot peer => Board.attach i slot peer
  | detach i slot => Board.detach i slot
  | detachAll i => Board.detachAll i
  | pushFront i slot head => Board.pushFront i slot head
  | unlink i slot head => Board.unlink i slot head
  | setHead head value =>
      modify fun board => { board with heads := board.heads.setIfInBounds head value }

/-- An operation succeeds. -/
def Allowed (board : Board slots) : Op → Prop
  | attach i slot peer => i ≠ peer ∧ board.IsChain slot [i] ∧ board.Has peer
  | detach i slot => slot < slots ∧ board.Has i
  | detachAll i => 0 < slots → board.Has i
  | pushFront i slot head => ∃ value, board.heads[head]? = some value ∧
      match value.unpack with
      | none => i ≠ Reserved.reserved
      | some peer => i ≠ peer ∧ board.IsChain slot [i] ∧ board.Has peer
  | unlink i slot head => head < board.heads.size ∧ slot < slots ∧ board.Has i
  | setHead _ _ => True

/-- What an operation that succeeds does to the chains and the heads. -/
def Effect (board board' : Board slots) : Op → Prop
  | attach i slot peer => Spliced board board' i slot peer ∧ board'.heads = board.heads
  | detach i slot => SetApart board board' i slot ∧ (∀ j, j ≠ slot → SameChains j board board') ∧
      board'.heads = board.heads
  | detachAll i => (∀ slot < slots, SetApart board board' i slot) ∧ board'.heads = board.heads
  | pushFront i slot head => ∃ value, board.heads[head]? = some value ∧
      (match value.unpack with
      | none => ∀ j, SameChains j board board'
      | some peer => Spliced board board' i slot peer) ∧
      ∃ value', value'.unpack = some i ∧ board'.heads = board.heads.setIfInBounds head value'
  | unlink i slot head => SetApart board board' i slot ∧
      (∀ j, j ≠ slot → SameChains j board board') ∧
      ∃ value value', board.heads[head]? = some value ∧
        board'.heads = board.heads.setIfInBounds head value' ∧
        if value.unpack = some i then Chain.next board.items i slot = .ok value'.unpack
        else value' = value
  | setHead head value => (∀ j, SameChains j board board') ∧
      board'.heads = board.heads.setIfInBounds head value

end Op

/-- The board after some operations, of which each may have failed. -/
def runAll (board : Board slots) (ops : List Op) : Board slots :=
  ops.foldl (fun board op => op.run.after board) board

/-! ### Order -/

/-- A board of `items` items is in order. -/
structure InOrder (items : Nat) (board : Board slots) : Prop where
  size : board.items.size = items
  /-- In each slot, every item is in exactly one chain. -/
  partition : ∀ slot < slots, ∀ i, board.Has i → ∃! xs, board.IsChain slot xs ∧ i ∈ xs
  /-- Chains are in slots that exist, and have no members but items of the board. -/
  of_isChain : ∀ slot xs, board.IsChain slot xs → slot < slots ∧ ∀ i ∈ xs, board.Has i
  /-- No chain meets an item twice. -/
  acyclic : ∀ slot xs, board.IsChain slot xs → xs.Nodup
  /-- The links backwards are the inverse of the links forwards. -/
  inverse : ∀ slot p q,
    Chain.next board.items p slot = .ok (some q) ↔ Chain.prev board.items q slot = .ok (some p)
  /-- A walk from an item on yields the rest of its chain. -/
  itemsFrom : ∀ slot as i bs, board.IsChain slot (as ++ i :: bs) →
    board.itemsFrom i slot = .ok (i :: bs)
  /-- A walk from anywhere ends. -/
  itemsFrom_ends : ∀ slot i, board.itemsFrom i slot ≠ .error .endlessList
  /-- An operation that is allowed succeeds and has its effect. -/
  succeeds : ∀ op : Op, op.Allowed board → ∃ board', op.run board = .ok () board' ∧
    op.Effect board board'
  /-- Any other operation fails and leaves the board alone. -/
  refuses : ∀ op : Op, ¬op.Allowed board → ∃ fault, op.run board = .error fault board

/-! ### Chains and lists -/

variable {board board' : Board slots}

/-- In a slot that exists, the items with links are those of the board. -/
theorem isSome_linkMap {j : Fin slots} {i : Item} :
    (Chain.linkMap board.items j i).isSome = true ↔ board.Has i := by
  rw [Option.isSome_iff_exists]
  constructor
  · rintro ⟨pair, hpair⟩
    obtain ⟨l, hl, -⟩ := Chain.linkMap_eq_some_iff.1 hpair
    obtain ⟨-, r, hr, -⟩ := links_array_eq_ok_iff.1 hl
    exact ⟨(Array.getElem?_eq_some_iff.1 hr).1, LawfulChainStorage.ne_reserved hl⟩
  · rintro ⟨hlt, hne⟩
    have htop : i.val ≠ UInt64.size - 1 := fun h => hne (by cases i; cases h; rfl)
    exact ⟨_, Chain.linkMap_of_links
      (links_array_eq_ok_iff.2 ⟨htop, _, Array.getElem?_eq_getElem hlt, rfl⟩)⟩

/-- In a slot that exists, chains are the lists of linked items that are not empty. -/
theorem isChain_iff {j : Fin slots} {xs : List Item} :
    board.IsChain j xs ↔ xs ≠ [] ∧ (Chain.linkMap board.items j).IsList xs := by
  constructor
  · rintro ⟨hne, hlinks⟩
    refine ⟨hne, LinkMap.segment_of_mid fun as i bs hxs => ?_⟩
    rw [Option.or_none, Option.or_none]
    exact Chain.linkMap_eq_some_iff_reads.2 (hlinks as i bs hxs)
  · rintro ⟨hne, hlist⟩
    refine ⟨hne, ?_⟩
    rintro as i bs rfl
    have hi := LinkMap.segment_mid as hlist
    rw [Option.or_none, Option.or_none] at hi
    exact Chain.linkMap_eq_some_iff_reads.1 hi

/-- An item is a chain by itself exactly if it is linked to nothing. -/
theorem isChain_singleton {j : Fin slots} {i : Item} :
    board.IsChain j [i] ↔ Chain.linkMap board.items j i = some (none, none) := by
  rw [isChain_iff, LinkMap.isList_singleton]
  simp

/-- A chain has a member, which cannot be read in a slot that does not exist. -/
theorem IsChain.exists_slot {slot : Nat} {xs : List Item} (h : board.IsChain slot xs) :
    ∃ j : Fin slots, slot = j := by
  obtain ⟨i, bs, rfl⟩ := List.exists_cons_of_ne_nil h.ne_nil
  have hnext := (h.links [] i bs rfl).2
  obtain ⟨j, -, -, rfl, -⟩ | hnone := Chain.exists_linkMap_or board.items i slot
  · exact ⟨j, rfl⟩
  · obtain ⟨e, he⟩ := Chain.next_error hnone
    simp [he] at hnext

/-- Attaching is possible exactly if the items differ, the one is a chain by itself, and the other
one is on the board. -/
theorem canAttach_iff {i peer : Item} {slot : Nat} :
    Chain.CanAttach board.items i slot peer ↔
      i ≠ peer ∧ board.IsChain slot [i] ∧ board.Has peer := by
  constructor
  · rintro ⟨hne, j, rfl, hi, hpeer⟩
    exact ⟨hne, isChain_singleton.2 hi, isSome_linkMap.1 hpeer⟩
  · rintro ⟨hne, hi, hpeer⟩
    obtain ⟨j, rfl⟩ := hi.exists_slot
    exact ⟨hne, j, rfl, isChain_singleton.1 hi, isSome_linkMap.2 hpeer⟩

/-- A slot with the same links has the same chains. -/
theorem sameChains_of_linkMap {j : Fin slots}
    (h : Chain.linkMap board'.items j = Chain.linkMap board.items j) :
    SameChains j board board' := by
  intro xs
  rw [isChain_iff, isChain_iff, h]

/-- A board with the same items has the same chains, whatever its heads are. -/
theorem sameChains_of_items (h : board'.items = board.items) (j : Nat) :
    SameChains j board board' := by
  intro xs
  constructor
  · rintro ⟨hne, hlinks⟩
    exact ⟨hne, by simpa only [h] using hlinks⟩
  · rintro ⟨hne, hlinks⟩
    exact ⟨hne, by simpa only [h] using hlinks⟩

/-- Lists of linked items that become others are chains that become others. -/
theorem regrouped_of_lists {j : Fin slots} {old new : List (List Item)}
    (hboard : Chain.Covered board.items)
    (h : (Chain.linkMap board.items j).Regroups (Chain.linkMap board'.items j) old new)
    (hold : [] ∉ old) : Regrouped j board board' old new := by
  refine ⟨fun xs hxs => isChain_iff.2 ⟨fun hnil => hold (hnil ▸ hxs), h.isList_old xs hxs⟩,
    fun xs => ?_⟩
  rw [isChain_iff, isChain_iff]
  by_cases hne : xs = []
  · simp [hne]
  · simp [hne, h.isList_iff (hboard j) hne]

/-- Other slots keep their chains if they keep their links. -/
theorem sameChains_of_other {j : Fin slots}
    (h : ∀ k, k ≠ j → Chain.linkMap board'.items k = Chain.linkMap board.items k) :
    ∀ k, k ≠ j.val → SameChains k board board' := by
  intro k hk xs
  by_cases hlt : k < slots
  · exact sameChains_of_linkMap (j := ⟨k, hlt⟩) (h _ fun heq => hk (congrArg Fin.val heq)) xs
  · constructor
    · intro hxs
      obtain ⟨l, rfl⟩ := hxs.exists_slot
      exact absurd l.isLt hlt
    · intro hxs
      obtain ⟨l, rfl⟩ := hxs.exists_slot
      exact absurd l.isLt hlt

/-! ### What the operations do -/

/-- The links of the items lead through chains, and there are `items` of them. -/
structure Sound (items : Nat) (board : Board slots) : Prop where
  covered : Chain.Covered board.items
  size : board.items.size = items

/-- An operation has an effect and leaves a sound board. -/
structure Succeeds (op : Op) (items : Nat) (board board' : Board slots) : Prop where
  run : op.run board = .ok () board'
  effect : op.Effect board board'
  sound : Sound items board'

/-- Changing links neither adds nor removes items. -/
theorem size_of_relinked {s t : Array (Links Item slots)} (h : Chain.Relinked s t) :
    t.size = s.size := by
  induction h with
  | refl => rfl
  | step l' _ _ ih => rw [← ih]; exact Array.size_modify

/-- An action on the items that succeeds leaves the heads alone. -/
theorem onItems_ok {x : Action (Array (Links Item slots)) Unit} {t : Array (Links Item slots)}
    (h : x board.items = .ok () t) : onItems x board = .ok () { board with items := t } := by
  simp [onItems, h]

/-- An action on the items that fails and changes nothing leaves the board alone. -/
theorem onItems_error {α : Type} {x : Action (Array (Links Item slots)) α} {e : Fault}
    (h : x board.items = .error e board.items) : onItems x board = .error e board := by
  simp [onItems, h]

variable {items : Nat}

/-- A board stays sound when lists of it are regrouped, whatever becomes of the heads. -/
theorem Sound.of_regroups {j : Fin slots} {t : Array (Links Item slots)}
    {old new : List (List Item)} (h : Sound items board)
    (ht : Chain.Regroups j board.items t old new) (heads : Array (Packed Item)) :
    Sound items (⟨t, heads⟩ : Board slots) :=
  ⟨ht.covered h.covered, (size_of_relinked ht.relinked).trans h.size⟩

/-- Attaching splices an item in. -/
theorem Sound.attach (h : Sound items board) {i peer : Item} {slot : Nat}
    (hi : i ≠ peer ∧ board.IsChain slot [i] ∧ board.Has peer) :
    ∃ t, Chain.attach i slot peer board.items = .ok () t ∧
      ∀ heads, Spliced board ⟨t, heads⟩ i slot peer ∧ Sound items (⟨t, heads⟩ : Board slots) := by
  obtain ⟨j, as, bs, t, rfl, hrun, ht⟩ := Chain.attach_regroups h.covered (canAttach_iff.2 hi)
  refine ⟨t, hrun, fun heads => ⟨⟨⟨as, bs, ?_⟩, sameChains_of_other ht.other⟩,
    h.of_regroups ht heads⟩⟩
  exact regrouped_of_lists h.covered ht.lists (by simp)

/-- Detaching sets an item apart. -/
theorem Sound.detach (h : Sound items board) {i : Item} {j : Fin slots} (hi : board.Has i) :
    ∃ t, Chain.detach i j board.items = .ok () t ∧
      ∀ heads, SetApart board ⟨t, heads⟩ i j ∧
        (∀ k, k ≠ j.val → SameChains k board ⟨t, heads⟩) ∧
        Sound items (⟨t, heads⟩ : Board slots) := by
  obtain ⟨as, bs, t, -, hrun, ht⟩ := Chain.detach_regroups h.covered (isSome_linkMap.2 hi)
  refine ⟨t, hrun, fun heads => ⟨⟨as, bs, ?_⟩, sameChains_of_other ht.other,
    h.of_regroups ht heads⟩⟩
  exact regrouped_of_lists h.covered ht.lists (by simp)

/-- An item that is not there, or a slot that does not exist, cannot be detached. -/
theorem detach_error {i : Item} {slot : Nat} (hi : ¬(slot < slots ∧ board.Has i)) :
    ∃ e, Chain.detach i slot board.items = .error e board.items := by
  refine Chain.detach_refused fun j hj => ?_
  rw [← Option.not_isSome_iff_eq_none]
  exact fun hsome => hi ⟨hj ▸ j.isLt, isSome_linkMap.1 hsome⟩

/-- A head within the bounds is found. -/
theorem headAt_eq {head : Nat} {value : Packed Item} (h : board.heads[head]? = some value) :
    board.headAt head = .ok value := by
  simp [headAt, h]

/-- Attaching succeeds where it is allowed, and has its effect. -/
theorem Sound.succeeds_attach (h : Sound items board) {i peer : Item} {slot : Nat}
    (hi : (Op.attach i slot peer).Allowed board) :
    ∃ board', Succeeds (.attach i slot peer) items board board' := by
  obtain ⟨t, hrun, ht⟩ := h.attach hi
  obtain ⟨hspliced, hsound⟩ := ht board.heads
  exact ⟨⟨t, board.heads⟩, onItems_ok hrun, ⟨hspliced, rfl⟩, hsound⟩

/-- Detaching succeeds where it is allowed, and has its effect. -/
theorem Sound.succeeds_detach (h : Sound items board) {i : Item} {slot : Nat}
    (hi : (Op.detach i slot).Allowed board) :
    ∃ board', Succeeds (.detach i slot) items board board' := by
  obtain ⟨hslot, hi⟩ := hi
  obtain ⟨t, hrun, ht⟩ := h.detach (j := ⟨slot, hslot⟩) hi
  obtain ⟨hapart, hother, hsound⟩ := ht board.heads
  exact ⟨⟨t, board.heads⟩, onItems_ok hrun, ⟨hapart, hother, rfl⟩, hsound⟩

/-- Detaching from all lists succeeds where it is allowed, and has its effect. -/
theorem Sound.succeeds_detachAll (h : Sound items board) {i : Item}
    (hi : (Op.detachAll i : Op).Allowed board) :
    ∃ board', Succeeds (.detachAll i) items board board' := by
  obtain ⟨t, hrun, hcovered, hrel, hlists⟩ := Chain.detachAll_regroups h.covered
    fun j => isSome_linkMap.2 (hi (Nat.zero_lt_of_lt j.isLt))
  refine ⟨⟨t, board.heads⟩, onItems_ok hrun, ⟨fun slot hslot => ?_, rfl⟩,
    hcovered, (size_of_relinked hrel).trans h.size⟩
  obtain ⟨as, bs, hregroups⟩ := hlists ⟨slot, hslot⟩
  exact ⟨as, bs, regrouped_of_lists (j := ⟨slot, hslot⟩) h.covered hregroups (by simp)⟩

/-- Pushing succeeds where it is allowed, and has its effect. -/
theorem Sound.succeeds_pushFront (h : Sound items board) {i : Item} {slot head : Nat}
    (hi : (Op.pushFront i slot head).Allowed board) :
    ∃ board', Succeeds (.pushFront i slot head) items board board' := by
  obtain ⟨value, hvalue, hi⟩ := hi
  cases hpeer : value.unpack with
  | none =>
      simp only [hpeer] at hi
      have hpack : Packed.pack i = .ok ⟨i⟩ := by simp [Packed.pack, hi]
      refine ⟨⟨board.items, board.heads.setIfInBounds head ⟨i⟩⟩, ?_, ⟨value, hvalue, ?_,
        ⟨i⟩, Packed.unpack_of_pack hpack, rfl⟩, h.covered, h.size⟩
      · simp [Op.run, Board.pushFront, headAt_eq hvalue, onItems, Chain.pushFront, hpeer, hpack]
      · simp only [hpeer]
        exact sameChains_of_items rfl
  | some peer =>
      simp only [hpeer] at hi
      obtain ⟨j, hslot⟩ := hi.2.1.exists_slot
      have hres : i ≠ Reserved.reserved := by
        subst hslot
        have hsome : (Chain.linkMap board.items j i).isSome = true := by
          simp [isChain_singleton.1 hi.2.1]
        exact (isSome_linkMap.1 hsome).2
      have hpack : Packed.pack i = .ok ⟨i⟩ := by simp [Packed.pack, hres]
      obtain ⟨t, hrun, ht⟩ := h.attach hi
      obtain ⟨hspliced, hsound⟩ := ht (board.heads.setIfInBounds head ⟨i⟩)
      refine ⟨⟨t, board.heads.setIfInBounds head ⟨i⟩⟩, ?_, ⟨value, hvalue, ?_,
        ⟨i⟩, Packed.unpack_of_pack hpack, rfl⟩, hsound⟩
      · simp [Op.run, Board.pushFront, headAt_eq hvalue, onItems, Chain.pushFront, hpeer, hrun,
          hpack]
      · simp only [hpeer]
        exact hspliced

/-- The head that a list has without an item moves on if it names the item. -/
theorem Sound.headWithout_run (h : Sound items board) {i : Item} (j : Fin slots)
    (hi : board.Has i) (value : Packed Item) :
    ∃ value', Chain.headWithout board.items i j value = .ok value' ∧
      if value.unpack = some i then Chain.next board.items i j = .ok value'.unpack
      else value' = value := by
  by_cases hfirst : value.unpack = some i
  · obtain ⟨as, bs, _, hlinks, -, hregroups⟩ :=
      Chain.detach_regroups h.covered ((isSome_linkMap (j := j)).2 hi)
    have hnext : Chain.next board.items i j = .ok bs.head? := Chain.next_run hlinks
    have hlist := hregroups.lists.isList_old _ (List.mem_singleton_self _)
    have hres : bs.head? ≠ some Reserved.reserved := Chain.some_ne_reserved j fun q hq =>
      LinkMap.segment_mem_isSome hlist
        (List.mem_append_right _ (List.mem_cons_of_mem i (List.mem_of_head? hq)))
    obtain ⟨value', hpack, hunpack⟩ := Packed.exists_ofOption hres
    refine ⟨value', by simp [Chain.headWithout, hfirst, hnext, hpack], ?_⟩
    rw [if_pos hfirst, hnext, hunpack]
  · exact ⟨value, by simp [Chain.headWithout, hfirst], by rw [if_neg hfirst]⟩

/-- Unlinking succeeds where it is allowed, and has its effect. -/
theorem Sound.succeeds_unlink (h : Sound items board) {i : Item} {slot head : Nat}
    (hi : (Op.unlink i slot head).Allowed board) :
    ∃ board', Succeeds (.unlink i slot head) items board board' := by
  obtain ⟨hhead, hslot, hi⟩ := hi
  obtain ⟨value, hvalue⟩ : ∃ value, board.heads[head]? = some value :=
    ⟨_, Array.getElem?_eq_getElem hhead⟩
  obtain ⟨t, hrun, ht⟩ := h.detach (j := ⟨slot, hslot⟩) hi
  obtain ⟨value', hwithout, hvalue'⟩ := h.headWithout_run ⟨slot, hslot⟩ hi value
  obtain ⟨hapart, hother, hsound⟩ := ht (board.heads.setIfInBounds head value')
  refine ⟨⟨t, board.heads.setIfInBounds head value'⟩, ?_,
    ⟨hapart, hother, value, value', hvalue, rfl, hvalue'⟩, hsound⟩
  simp [Op.run, Board.unlink, headAt_eq hvalue, onItems, Chain.unlink, hwithout, hrun]

/-- An operation that is allowed succeeds and has its effect. -/
theorem Sound.succeeds (h : Sound items board) (op : Op) (hop : op.Allowed board) :
    ∃ board', Succeeds op items board board' := by
  cases op with
  | attach i slot peer => exact h.succeeds_attach hop
  | detach i slot => exact h.succeeds_detach hop
  | detachAll i => exact h.succeeds_detachAll hop
  | pushFront i slot head => exact h.succeeds_pushFront hop
  | unlink i slot head => exact h.succeeds_unlink hop
  | setHead head value =>
      exact ⟨⟨board.items, board.heads.setIfInBounds head value⟩, rfl,
        ⟨sameChains_of_items rfl, rfl⟩, h.covered, h.size⟩

/-- An operation that is not allowed fails and leaves the board alone. -/
theorem Sound.refuses (h : Sound items board) (op : Op) (hop : ¬op.Allowed board) :
    ∃ fault, op.run board = .error fault board := by
  cases op with
  | attach i slot peer =>
      obtain ⟨e, he⟩ := Chain.attach_refused fun hcan => hop (canAttach_iff.1 hcan)
      exact ⟨e, onItems_error he⟩
  | detach i slot =>
      obtain ⟨e, he⟩ := detach_error hop
      exact ⟨e, onItems_error he⟩
  | detachAll i =>
      obtain ⟨hslots, hi⟩ := Classical.not_imp.1 hop
      -- the slots are done in order, so the first one fails already
      have hnot : ¬(0 < slots ∧ board.Has i) := fun hhas => hi hhas.2
      obtain ⟨e, he⟩ := detach_error hnot
      refine ⟨e, onItems_error ?_⟩
      obtain ⟨n, rfl⟩ : ∃ n, slots = n + 1 := ⟨slots - 1, by omega⟩
      rw [Chain.detachAll, List.range_succ_eq_map, List.forM_eq_forM, List.forM_cons,
        Action.run_bind, he]
  | pushFront i slot head =>
      cases hvalue : board.heads[head]? with
      | none => exact ⟨_, by simp [Op.run, Board.pushFront, headAt, hvalue]; rfl⟩
      | some value =>
          cases hpeer : value.unpack with
          | none =>
              have hres : i = Reserved.reserved := by
                by_contra hne
                exact hop ⟨value, hvalue, by simpa [hpeer] using hne⟩
              exact ⟨.reservedValue, by
                simp [Op.run, Board.pushFront, headAt_eq hvalue, onItems, Chain.pushFront, hpeer,
                  Packed.pack, hres]⟩
          | some peer =>
              have hnot : ¬Chain.CanAttach board.items i slot peer := fun hcan =>
                hop ⟨value, hvalue, by simpa [hpeer] using canAttach_iff.1 hcan⟩
              obtain ⟨e, he⟩ := Chain.attach_refused hnot
              exact ⟨e, by
                simp [Op.run, Board.pushFront, headAt_eq hvalue, onItems, Chain.pushFront, hpeer,
                  he]⟩
  | unlink i slot head =>
      cases hvalue : board.heads[head]? with
      | none => exact ⟨_, by simp [Op.run, Board.unlink, headAt, hvalue]; rfl⟩
      | some value =>
          obtain ⟨hhead, -⟩ := Array.getElem?_eq_some_iff.1 hvalue
          have hi : ¬(slot < slots ∧ board.Has i) := fun hi => hop ⟨hhead, hi⟩
          obtain ⟨e, he⟩ := detach_error hi
          -- the head is read before the item is detached, and either can fail
          cases hwithout : Chain.headWithout board.items i slot value with
          | error e' => exact ⟨e', by
              simp [Op.run, Board.unlink, headAt_eq hvalue, onItems, Chain.unlink, hwithout]⟩
          | ok value' => exact ⟨e, by
              simp [Op.run, Board.unlink, headAt_eq hvalue, onItems, Chain.unlink, hwithout, he]⟩
  | setHead head value => exact absurd trivial hop

/-- An operation leaves a sound board behind, whether or not it succeeds. -/
theorem Sound.after (h : Sound items board) (op : Op) : Sound items (op.run.after board) := by
  by_cases hop : op.Allowed board
  · obtain ⟨board', hrun, -, hsound⟩ := h.succeeds op hop
    rwa [Action.after_of_ok hrun]
  · obtain ⟨e, he⟩ := h.refuses op hop
    rwa [Action.after_of_error he]

/-- A run of operations leaves a sound board behind. -/
theorem Sound.runAll (h : Sound items board) (ops : List Op) : Sound items (board.runAll ops) := by
  induction ops generalizing board with
  | nil => exact h
  | cons op ops ih => exact ih (h.after op)

/-- The items of a new board have no links. -/
theorem linkMap_new {j : Fin slots} {items heads : Nat} {i : Item}
    (hi : (new slots items heads).Has i) :
    Chain.linkMap (new slots items heads).items j i = some (none, none) := by
  obtain ⟨pair, hpair⟩ := Option.isSome_iff_exists.1 ((isSome_linkMap (j := j)).2 hi)
  obtain ⟨l, hl, rfl⟩ := Chain.linkMap_eq_some_iff.1 hpair
  obtain ⟨-, r, hr, rfl⟩ := links_array_eq_ok_iff.1 hl
  obtain ⟨hlt, rfl⟩ := Array.getElem?_eq_some_iff.1 hr
  rw [hpair]
  simp [new, Linked.links]

/-- Each item of a new board is a chain by itself. -/
theorem sound_new (slots items heads : Nat) : Sound items (new slots items heads) := by
  refine ⟨fun j i hi => ⟨[i], LinkMap.isList_singleton.2 ?_, List.mem_singleton_self i⟩,
    Array.size_replicate⟩
  exact linkMap_new (isSome_linkMap.1 hi)

/-! ### Sound boards are in order -/

/-- A chain is no longer than there are items. -/
theorem IsChain.length_le {j : Fin slots} {xs : List Item} (h : board.IsChain j xs) :
    xs.length ≤ board.items.size := by
  obtain ⟨-, hlist⟩ := isChain_iff.1 h
  have hnodup : (xs.map Index.val).Nodup :=
    hlist.nodup.map fun i k hik => by cases i; cases k; exact congrArg Index.mk hik
  have hsub : xs.map Index.val ⊆ List.range board.items.size := by
    intro n hn
    obtain ⟨i, hi, rfl⟩ := List.mem_map.1 hn
    exact List.mem_range.2 (isSome_linkMap.1 (LinkMap.segment_mem_isSome hlist hi)).1
  simpa using (hnodup.subperm hsub).length_le

/-- A single step forwards never runs out of fuel. -/
theorem next_ne_endlessList (board : Board slots) (i : Item) (slot : Nat) :
    Chain.next board.items i slot ≠ .error .endlessList := by
  simp only [Chain.next, ChainStorage.links]
  split_ifs
  · simp
  · split <;> simp [Links.nextAt, slotAt]
    split <;> simp

/-- A sound board is in order. -/
theorem Sound.inOrder (h : Sound items board) : InOrder items board where
  size := h.size
  partition slot hslot i hi := by
    obtain ⟨xs, hxs, hmem⟩ := h.covered ⟨slot, hslot⟩ i (isSome_linkMap.2 hi)
    refine ⟨xs, ⟨(isChain_iff (j := ⟨slot, hslot⟩)).2 ⟨List.ne_nil_of_mem hmem, hxs⟩, hmem⟩, ?_⟩
    rintro ys ⟨hys, hmem'⟩
    exact ((isChain_iff (j := ⟨slot, hslot⟩)).1 hys).2.eq_of_mem hxs hmem' hmem
  of_isChain slot xs hxs := by
    obtain ⟨j, rfl⟩ := hxs.exists_slot
    have hlist := (isChain_iff.1 hxs).2
    exact ⟨j.isLt, fun i hi => isSome_linkMap.1 (LinkMap.segment_mem_isSome hlist hi)⟩
  acyclic slot xs hxs := by
    obtain ⟨j, rfl⟩ := hxs.exists_slot
    exact (isChain_iff.1 hxs).2.nodup
  inverse slot p q := Chain.next_eq_iff_prev_eq h.covered
  itemsFrom slot as i bs hxs := by
    obtain ⟨j, rfl⟩ := hxs.exists_slot
    exact Chain.walk_from (isChain_iff.1 hxs).2 hxs.length_le
  itemsFrom_ends slot i := by
    obtain ⟨j, before, after, rfl, hi⟩ | hi := Chain.exists_linkMap_or board.items i slot
    · obtain ⟨xs, hxs, hmem⟩ := h.covered j i (by simp [hi])
      obtain ⟨as, bs, rfl⟩ := List.append_of_mem hmem
      have hchain : board.IsChain j (as ++ i :: bs) := isChain_iff.2 ⟨by simp, hxs⟩
      simp [Board.itemsFrom, Chain.walk_from hxs hchain.length_le]
    · obtain ⟨e, he⟩ := Chain.next_error hi
      have hne := board.next_ne_endlessList i slot
      rw [he] at hne
      simpa [Board.itemsFrom, Chain.walk, follow, he] using hne
  succeeds op hop := by
    obtain ⟨board', hrun, heffect, -⟩ := h.succeeds op hop
    exact ⟨board', hrun, heffect⟩
  refuses := h.refuses

/-- A board is in order after any operations, with any items, slots and heads. -/
theorem inOrder_runAll (slots items heads : Nat) (ops : List Op) :
    InOrder items ((new slots items heads).runAll ops) :=
  ((sound_new slots items heads).runAll ops).inOrder

end Board

end SlabGraph
