import SlabGraph.Chain.Storage
import SlabGraph.Proofs.Action
import SlabGraph.Proofs.Chain.LinkMap

/-!
# Chain Operations on a Storage

A storage of linked items shows one link map per slot (`Chain.linkMap`), and this module
says what each chain operation does to these maps. The storage itself enters through three
laws only (`LawfulChainStorage`): an item that is there is not the reserved one, its links
read back as they were written, and writing them leaves the other items alone.

An operation changes links and nothing else. `Relinked s t` records that: `t` arises from
`s` by writing links of items that are there. What a storage keeps beside the links is
therefore unchanged, which each storage states in its own terms by induction on `Relinked`.

## Main results

* `Chain.attach_run`, `Chain.detach_run`: the operations carry out `LinkMap.attach` and
  `LinkMap.detach`;
* `Chain.pushFront_run`, `Chain.unlink_run`: on a list with its head they put an item in
  front and take a member out (`Chain.Edited`);
* `Chain.walk_run`: walking from the head of a list answers the list.
-/

namespace SlabGraph

/-- The laws of a storage of items that embed links. -/
class LawfulChainStorage (S P : Type) (slots : Nat) [Reserved P] [ChainStorage S P slots] :
    Prop where
  /-- An item that is there is not the reserved one. -/
  ne_reserved {s : S} {p : P} {l : Links P slots} :
    ChainStorage.links s p = .ok l → p ≠ Reserved.reserved
  /-- Links read back as they were written. -/
  links_setLinks_self {s : S} {p : P} {l l' : Links P slots} :
    ChainStorage.links s p = .ok l →
      ChainStorage.links (ChainStorage.setLinks s p l') p = .ok l'
  /-- Writing links leaves the links of other items alone. -/
  links_setLinks_of_ne {s : S} {p q : P} {l m : Links P slots} :
    ChainStorage.links s p = .ok l → q ≠ p →
      ChainStorage.links (ChainStorage.setLinks s p m) q = ChainStorage.links s q

/-! ### Links of one item -/

section

variable {P : Type} [Reserved P] [DecidableEq P] {slots : Nat}

/-- A slot within the bounds is found. -/
@[simp] theorem slotAt_val (slot : Fin slots) : slotAt slots slot = .ok slot := by
  simp [slotAt]

/-- Every optional item but the reserved one can be packed. -/
theorem Packed.exists_ofOption {o : Option P} (h : o ≠ some Reserved.reserved) :
    ∃ packed, Packed.ofOption o = .ok packed ∧ packed.unpack = o := by
  cases o with
  | none => exact ⟨.empty, rfl, Packed.unpack_empty⟩
  | some a =>
      have ha : a ≠ Reserved.reserved := fun heq => h (by rw [heq])
      exact ⟨⟨a⟩, by simp [Packed.ofOption, Packed.pack, ha], by simp [Packed.unpack, ha]⟩

namespace Links

/-- The item before an item and the item after it, in a slot. -/
def pair (l : Links P slots) (slot : Fin slots) : Option P × Option P :=
  ((getElem l.prev slot slot.isLt).unpack, (getElem l.next slot slot.isLt).unpack)

/-- Links are what they show in each slot. -/
theorem eq_of_pair {l l' : Links P slots} (h : ∀ slot, l'.pair slot = l.pair slot) : l' = l := by
  obtain ⟨prev, next⟩ := l
  obtain ⟨prev', next'⟩ := l'
  obtain rfl : prev' = prev := Vector.ext fun i hi =>
    Packed.unpack_inj.1 (congrArg Prod.fst (h ⟨i, hi⟩))
  obtain rfl : next' = next := Vector.ext fun i hi =>
    Packed.unpack_inj.1 (congrArg Prod.snd (h ⟨i, hi⟩))
  rfl

/-- The item after this one, read at a slot within the bounds. -/
@[simp] theorem nextAt_val (l : Links P slots) (slot : Fin slots) :
    l.nextAt slot = .ok (l.pair slot).2 := by
  simp [nextAt, pair, pure, Except.pure]

/-- The item before this one, read at a slot within the bounds. -/
@[simp] theorem prevAt_val (l : Links P slots) (slot : Fin slots) :
    l.prevAt slot = .ok (l.pair slot).1 := by
  simp [prevAt, pair, pure, Except.pure]

/-- Links that were never set link to nothing. -/
@[simp] theorem pair_unlinked (slot : Fin slots) :
    (unlinked : Links P slots).pair slot = (none, none) := by
  simp [pair, unlinked]

/-- The link to the next item can be replaced in a slot, and all other links stay. -/
theorem exists_withNext (l : Links P slots) (slot : Fin slots) {after : Option P}
    (h : after ≠ some Reserved.reserved) :
    ∃ l' : Links P slots, l.withNext slot after = .ok l' ∧
      l'.pair slot = ((l.pair slot).1, after) ∧ ∀ j, j ≠ slot → l'.pair j = l.pair j := by
  obtain ⟨packed, hpacked, hunpack⟩ := Packed.exists_ofOption h
  refine ⟨{ l with next := l.next.set slot packed }, ?_, ?_, fun j hj => ?_⟩
  · simp [withNext, hpacked, pure, Except.pure]
  · simp [pair, hunpack]
  · have hne : slot.val ≠ j.val := fun heq => hj (Fin.ext heq.symm)
    simp [pair, hne]

/-- The link to the previous item can be replaced in a slot, and all other links stay. -/
theorem exists_withPrev (l : Links P slots) (slot : Fin slots) {before : Option P}
    (h : before ≠ some Reserved.reserved) :
    ∃ l' : Links P slots, l.withPrev slot before = .ok l' ∧
      l'.pair slot = (before, (l.pair slot).2) ∧ ∀ j, j ≠ slot → l'.pair j = l.pair j := by
  obtain ⟨packed, hpacked, hunpack⟩ := Packed.exists_ofOption h
  refine ⟨{ l with prev := l.prev.set slot packed }, ?_, ?_, fun j hj => ?_⟩
  · simp [withPrev, hpacked, pure, Except.pure]
  · simp [pair, hunpack]
  · have hne : slot.val ≠ j.val := fun heq => hj (Fin.ext heq.symm)
    simp [pair, hne]

end Links

end

namespace Chain

variable {S P : Type} {slots : Nat} [Reserved P] [DecidableEq P] [ChainStorage S P slots]

/-- The links of all items in one slot. -/
def linkMap (s : S) (slot : Fin slots) : LinkMap P := fun p =>
  match ChainStorage.links s p with
  | .ok l => some (l.pair slot)
  | .error _ => none

/-- One storage arises from another by writing links of items that are there. -/
inductive Relinked (s : S) : S → Prop
  | refl : Relinked s s
  | step {t : S} {p : P} {l : Links P slots} (l' : Links P slots) :
      Relinked s t → ChainStorage.links t p = .ok l → Relinked s (ChainStorage.setLinks t p l')

omit [Reserved P] [DecidableEq P] in
/-- Changing links twice changes nothing but links. -/
theorem Relinked.trans {s t u : S} (hst : Relinked s t) (htu : Relinked t u) : Relinked s u := by
  induction htu with
  | refl => exact hst
  | step l' _ hl ih => exact ih.step l' hl

/-- The links of an item are those that the storage answers for it. -/
theorem linkMap_eq_some_iff {s : S} {slot : Fin slots} {p : P} {pair : Option P × Option P} :
    linkMap s slot p = some pair ↔
      ∃ l, ChainStorage.links s p = .ok l ∧ l.pair slot = pair := by
  unfold linkMap
  cases h : ChainStorage.links s p with
  | ok l => simp
  | error e => simp

/-- The links of an item for which the storage answers. -/
theorem linkMap_of_links {s : S} {slot : Fin slots} {p : P} {l : Links P slots}
    (h : ChainStorage.links s p = .ok l) : linkMap s slot p = some (l.pair slot) := by
  simp [linkMap, h]

/-- The item after another one can be read. -/
theorem next_run {s : S} {slot : Fin slots} {p : P} {before after : Option P}
    (h : linkMap s slot p = some (before, after)) : next s p slot = .ok after := by
  obtain ⟨l, hl, hpair⟩ := linkMap_eq_some_iff.1 h
  simp [next, hl, hpair]

/-- The item before another one can be read. -/
theorem prev_run {s : S} {slot : Fin slots} {p : P} {before after : Option P}
    (h : linkMap s slot p = some (before, after)) : prev s p slot = .ok before := by
  obtain ⟨l, hl, hpair⟩ := linkMap_eq_some_iff.1 h
  simp [prev, hl, hpair]

/-- An item that is linked to nothing has no neighbours. -/
theorem hasNeighbours_run {s : S} {slot : Fin slots} {p : P}
    (h : linkMap s slot p = some (none, none)) : hasNeighbours s p slot = .ok false := by
  simp [hasNeighbours, next_run h, prev_run h, pure, Except.pure]

/-! ### Writing one link -/

/-- One storage is another one in which the links of a slot have become `L`. -/
structure Rewired (slot : Fin slots) (s : S) (L : LinkMap P) (t : S) : Prop where
  /-- The links of the slot. -/
  map : linkMap t slot = L
  /-- The links of the other slots are as before. -/
  other : ∀ j, j ≠ slot → linkMap t j = linkMap s j
  /-- Nothing but links has changed. -/
  relinked : Relinked s t

/-- A storage has its own links. -/
theorem Rewired.refl (slot : Fin slots) (s : S) : Rewired slot s (linkMap s slot) s :=
  ⟨rfl, fun _ _ => rfl, .refl⟩

/-- Of two changes in a row, the second one says what the links are. -/
theorem Rewired.trans {slot : Fin slots} {s t u : S} {L M : LinkMap P}
    (hst : Rewired slot s L t) (htu : Rewired slot t M u) : Rewired slot s M u :=
  ⟨htu.map, fun j hj => (htu.other j hj).trans (hst.other j hj), hst.relinked.trans htu.relinked⟩

variable [LawfulChainStorage S P slots]

/-- An item that has links is not the reserved one. -/
theorem ne_reserved_of_isSome {s : S} (slot : Fin slots) {p : P}
    (h : (linkMap s slot p).isSome = true) : p ≠ Reserved.reserved := by
  obtain ⟨pair, hpair⟩ := Option.isSome_iff_exists.1 h
  obtain ⟨l, hl, -⟩ := linkMap_eq_some_iff.1 hpair
  exact LawfulChainStorage.ne_reserved hl

/-- A neighbour that has links is not the reserved item, so it can be packed. -/
theorem some_ne_reserved {s : S} (slot : Fin slots) {o : Option P}
    (h : ∀ q, o = some q → (linkMap s slot q).isSome = true) : o ≠ some Reserved.reserved :=
  fun ho => ne_reserved_of_isSome slot (h _ ho) rfl

/-- Writing the links of an item changes its entry in the link maps. -/
theorem linkMap_setLinks {s : S} {p : P} {l : Links P slots} (l' : Links P slots)
    (hl : ChainStorage.links s p = .ok l) (slot : Fin slots) :
    linkMap (ChainStorage.setLinks s p l') slot =
      (linkMap s slot).put p (l'.pair slot).1 (l'.pair slot).2 := by
  funext q
  by_cases hq : q = p
  · subst hq
    rw [LinkMap.put_self]
    exact linkMap_of_links (LawfulChainStorage.links_setLinks_self hl)
  · rw [LinkMap.put_of_ne _ _ _ hq]
    simp only [linkMap, LawfulChainStorage.links_setLinks_of_ne (m := l') hl hq]

/-- Writing links that differ in one slot rewires that slot. -/
theorem rewired_setLinks {s : S} {slot : Fin slots} {p : P} {l l' : Links P slots}
    (hl : ChainStorage.links s p = .ok l) (hother : ∀ j, j ≠ slot → l'.pair j = l.pair j) :
    Rewired slot s ((linkMap s slot).put p (l'.pair slot).1 (l'.pair slot).2)
      (ChainStorage.setLinks s p l') := by
  refine ⟨linkMap_setLinks l' hl slot, fun j hj => ?_, Relinked.refl.step l' hl⟩
  rw [linkMap_setLinks l' hl, hother j hj]
  exact Function.update_eq_self_iff.2 (linkMap_of_links hl).symm

/-- Replacing the item after an item succeeds, and does to the links what it says. -/
theorem setNext_run {s : S} (slot : Fin slots) {p : P} {after : Option P}
    (hp : (linkMap s slot p).isSome = true) (hafter : after ≠ some Reserved.reserved) :
    ∃ t, setNext p slot after s = .ok () t ∧
      Rewired slot s ((linkMap s slot).setNext (some p) after) t := by
  obtain ⟨pair, hpair⟩ := Option.isSome_iff_exists.1 hp
  obtain ⟨l, hl, rfl⟩ := linkMap_eq_some_iff.1 hpair
  obtain ⟨l', hl', hself, hother⟩ := l.exists_withNext slot hafter
  refine ⟨ChainStorage.setLinks s p l', by simp [setNext, hl, hl'], ?_⟩
  have h := rewired_setLinks hl hother
  rw [hself] at h
  simpa [LinkMap.setNext, LinkMap.put, hpair] using h

/-- Replacing the item before an item succeeds, and does to the links what it says. -/
theorem setPrev_run {s : S} (slot : Fin slots) {p : P} {before : Option P}
    (hp : (linkMap s slot p).isSome = true) (hbefore : before ≠ some Reserved.reserved) :
    ∃ t, setPrev p slot before s = .ok () t ∧
      Rewired slot s ((linkMap s slot).setPrev (some p) before) t := by
  obtain ⟨pair, hpair⟩ := Option.isSome_iff_exists.1 hp
  obtain ⟨l, hl, rfl⟩ := linkMap_eq_some_iff.1 hpair
  obtain ⟨l', hl', hself, hother⟩ := l.exists_withPrev slot hbefore
  refine ⟨ChainStorage.setLinks s p l', by simp [setPrev, hl, hl'], ?_⟩
  have h := rewired_setLinks hl hother
  rw [hself] at h
  simpa [LinkMap.setPrev, LinkMap.put, hpair] using h

/-- Writing the link of an optional item to the next one. -/
theorem forM_setNext_run {s : S} (slot : Fin slots) {p? after : Option P}
    (hp : ∀ q, p? = some q → (linkMap s slot q).isSome = true)
    (hafter : after ≠ some Reserved.reserved) :
    ∃ t, (forM p? fun q => setNext q slot after : Action S Unit) s = .ok () t ∧
      Rewired slot s ((linkMap s slot).setNext p? after) t := by
  cases p? with
  | none => exact ⟨s, rfl, .refl slot s⟩
  | some q => exact setNext_run slot (hp q rfl) hafter

/-- Writing the link of an optional item to the previous one. -/
theorem forM_setPrev_run {s : S} (slot : Fin slots) {p? before : Option P}
    (hp : ∀ q, p? = some q → (linkMap s slot q).isSome = true)
    (hbefore : before ≠ some Reserved.reserved) :
    ∃ t, (forM p? fun q => setPrev q slot before : Action S Unit) s = .ok () t ∧
      Rewired slot s ((linkMap s slot).setPrev p? before) t := by
  cases p? with
  | none => exact ⟨s, rfl, .refl slot s⟩
  | some q => exact setPrev_run slot (hp q rfl) hbefore

/-! ### Attaching and detaching -/

/-- A loose item is attached in front of another one, and the links are as they must be. -/
theorem attach_run {s : S} {slot : Fin slots} {p peer : P} {before after : Option P}
    (hne : p ≠ peer) (hp : linkMap s slot p = some (none, none))
    (hpeer : linkMap s slot peer = some (before, after))
    (hbefore : ∀ q, before = some q → (linkMap s slot q).isSome = true) :
    ∃ t, attach p slot peer s = .ok () t ∧
      Rewired slot s ((linkMap s slot).attach p before peer) t := by
  have hpthere : (linkMap s slot p).isSome = true := by simp [hp]
  have hpeerthere : (linkMap s slot peer).isSome = true := by simp [hpeer]
  have hpres : some p ≠ some Reserved.reserved := fun h =>
    ne_reserved_of_isSome slot hpthere (Option.some.inj h)
  have hpeerres : some peer ≠ some Reserved.reserved := fun h =>
    ne_reserved_of_isSome slot hpeerthere (Option.some.inj h)
  obtain ⟨t₁, h₁, r₁⟩ := setPrev_run slot hpthere (some_ne_reserved slot hbefore)
  obtain ⟨t₂, h₂, r₂⟩ := setNext_run slot (s := t₁) (p := p) (by simp [r₁.map, hpthere]) hpeerres
  obtain ⟨t₃, h₃, r₃⟩ := setPrev_run slot (s := t₂) (p := peer)
    (by simp [r₂.map, r₁.map, hpeerthere]) hpres
  obtain ⟨t₄, h₄, r₄⟩ := forM_setNext_run slot (s := t₃)
    (fun q (hq : before = some q) => by simp [r₃.map, r₂.map, r₁.map, hbefore q hq]) hpres
  refine ⟨t₄, ?_, ?_⟩
  · simp [attach, hne, hasNeighbours_run hp, prev_run hpeer, h₁, h₂, h₃, h₄]
  · have h := ((r₁.trans r₂).trans r₃).trans r₄
    rwa [r₃.map, r₂.map, r₁.map, LinkMap.setNext_setPrev hpthere] at h

/-- An item is detached, and the links are as they must be. -/
theorem detach_run {s : S} {slot : Fin slots} {p : P} {before after : Option P}
    (hp : linkMap s slot p = some (before, after))
    (hbefore : ∀ q, before = some q → (linkMap s slot q).isSome = true)
    (hafter : ∀ q, after = some q → (linkMap s slot q).isSome = true) :
    ∃ t, detach p slot s = .ok () t ∧
      Rewired slot s ((linkMap s slot).detach p before after) t := by
  have hpthere : (linkMap s slot p).isSome = true := by simp [hp]
  obtain ⟨t₁, h₁, r₁⟩ := forM_setNext_run slot hbefore (some_ne_reserved slot hafter)
  obtain ⟨t₂, h₂, r₂⟩ := forM_setPrev_run slot (s := t₁)
    (fun q (hq : after = some q) => by simp [r₁.map, hafter q hq]) (some_ne_reserved slot hbefore)
  obtain ⟨t₃, h₃, r₃⟩ := setPrev_run slot (s := t₂) (p := p)
    (by simp [r₂.map, r₁.map, hpthere]) (Option.some_ne_none Reserved.reserved).symm
  obtain ⟨t₄, h₄, r₄⟩ := setNext_run slot (s := t₃) (p := p)
    (by simp [r₃.map, r₂.map, r₁.map, hpthere]) (Option.some_ne_none Reserved.reserved).symm
  refine ⟨t₄, ?_, ?_⟩
  · simp [detach, prev_run hp, next_run hp, h₁, h₂, h₃, h₄]
  · have h := ((r₁.trans r₂).trans r₃).trans r₄
    rwa [r₃.map, r₂.map, r₁.map, LinkMap.setNext_setPrev (by simp [hpthere])] at h

/-! ### Lists with a head -/

/-- A list of a slot has become another list, and nothing but its links has changed. -/
structure Edited (slot : Fin slots) (s : S) (xs ys : List P) (t : S) : Prop where
  /-- The new list. -/
  list : LinkMap.IsList (linkMap t slot) ys
  /-- Items in neither list are linked in the slot as before. -/
  outside : ∀ q, q ∉ xs → q ∉ ys → linkMap t slot q = linkMap s slot q
  /-- The links of the other slots are as before. -/
  other : ∀ j, j ≠ slot → linkMap t j = linkMap s j
  /-- Nothing but links has changed. -/
  relinked : Relinked s t

/-- An item that is in no list of a slot becomes the first member of one. -/
theorem pushFront_run {s : S} {slot : Fin slots} {p : P} {head : Packed P} {xs : List P}
    (hxs : LinkMap.IsList (linkMap s slot) xs) (hhead : head.unpack = xs.head?)
    (hp : linkMap s slot p = some (none, none)) (hmem : p ∉ xs) :
    ∃ head' t, pushFront p slot head s = .ok head' t ∧ head'.unpack = some p ∧
      Edited slot s xs (p :: xs) t := by
  have hres : p ≠ Reserved.reserved := ne_reserved_of_isSome slot (s := s) (by simp [hp])
  have hpack : Packed.pack p = .ok ⟨p⟩ := by simp [Packed.pack, hres]
  refine ⟨⟨p⟩, ?_⟩
  cases xs with
  | nil =>
      refine ⟨s, by simp [pushFront, hhead, hpack], Packed.unpack_of_pack hpack, ?_⟩
      exact ⟨LinkMap.isList_singleton.2 hp, fun _ _ _ => rfl, fun _ _ => rfl, .refl⟩
  | cons peer bs =>
      have hpeer : linkMap s slot peer = some (none, bs.head?) := by
        simpa using LinkMap.segment_mid [] hxs
      have hne : p ≠ peer := fun h => hmem (by simp [h])
      obtain ⟨t, ht, hr⟩ := attach_run hne hp hpeer (by simp)
      refine ⟨t, by simp [pushFront, hhead, ht, hpack], Packed.unpack_of_pack hpack, ?_⟩
      refine ⟨?_, fun q hq hq' => ?_, hr.other, hr.relinked⟩
      · rw [hr.map]
        exact LinkMap.IsList.attach [] hxs hmem
      · rw [hr.map]
        exact LinkMap.attach_of_ne (fun h => hq' (by simp [h])) (fun h => hq (by simp [h]))
          (by simp)

/-- A member of a list is taken out of it. -/
theorem unlink_run {s : S} {slot : Fin slots} {p : P} {head : Packed P} {xs : List P}
    (hxs : LinkMap.IsList (linkMap s slot) xs) (hhead : head.unpack = xs.head?) (hmem : p ∈ xs) :
    ∃ head' t, unlink p slot head s = .ok head' t ∧ head'.unpack = (xs.erase p).head? ∧
      linkMap t slot p = some (none, none) ∧ Edited slot s xs (xs.erase p) t := by
  obtain ⟨as, bs, rfl⟩ := List.append_of_mem hmem
  have hnodup := hxs.nodup
  have hpas : p ∉ as := fun h => (List.nodup_append.1 hnodup).2.2 p h p List.mem_cons_self rfl
  have herase : (as ++ p :: bs).erase p = as ++ bs := by
    rw [List.erase_append_right _ hpas, List.erase_cons_head]
  have hp : linkMap s slot p = some (as.getLast?, bs.head?) := by
    simpa using LinkMap.segment_mid as hxs
  have hthere : ∀ q ∈ as ++ p :: bs, (linkMap s slot q).isSome = true := fun q hq =>
    LinkMap.segment_mem_isSome hxs hq
  have hbefore : ∀ q, as.getLast? = some q → (linkMap s slot q).isSome = true := fun q hq =>
    hthere q (List.mem_append_left _ (List.mem_of_getLast? hq))
  have hafter : ∀ q, bs.head? = some q → (linkMap s slot q).isSome = true := fun q hq =>
    hthere q (List.mem_append_right _ (List.mem_cons_of_mem p (List.mem_of_head? hq)))
  obtain ⟨t, ht, hr⟩ := detach_run hp hbefore hafter
  rw [herase]
  have hedited : linkMap t slot p = some (none, none) ∧
      Edited slot s (as ++ p :: bs) (as ++ bs) t := by
    refine ⟨by rw [hr.map, LinkMap.detach_self], ?_, fun q hq hq' => ?_, hr.other, hr.relinked⟩
    · rw [hr.map]
      exact LinkMap.IsList.detach hxs
    · rw [hr.map]
      refine LinkMap.detach_of_ne (fun h => hq (by simp [h])) (fun h => hq' ?_) fun h => hq' ?_
      · exact List.mem_append_left _ (List.mem_of_getLast? h)
      · exact List.mem_append_right _ (List.mem_of_head? h)
  -- the head moves on exactly if nothing stands before the member
  cases as with
  | nil =>
      have hheadp : head.unpack = some p := hhead
      obtain ⟨packed, hpacked, hunpack⟩ := Packed.exists_ofOption (some_ne_reserved slot hafter)
      have hwithout : headWithout s p slot head = .ok packed := by
        simp [headWithout, hheadp, next_run hp, hpacked]
      exact ⟨packed, t, by simp [unlink, hwithout, ht], hunpack, hedited⟩
  | cons a as' =>
      have hheadp : head.unpack ≠ some p := by
        rw [hhead]
        intro h
        exact hpas (by simp [← Option.some.inj h])
      have hwithout : headWithout s p slot head = .ok head := by
        simp [headWithout, hheadp]
      exact ⟨head, t, by simp [unlink, hwithout, ht], hhead, hedited⟩

/-- Unlinking an item without neighbours, of which the head does not know, changes nothing. -/
theorem unlink_loose_run {s : S} {slot : Fin slots} {p : P} {head : Packed P}
    (hp : linkMap s slot p = some (none, none)) (hhead : head.unpack ≠ some p) :
    ∃ t, unlink p slot head s = .ok head t ∧ (∀ j, linkMap t j = linkMap s j) ∧ Relinked s t := by
  obtain ⟨t, hrun, hrewired⟩ := detach_run hp (by simp) (by simp)
  refine ⟨t, by simp [unlink, headWithout, hhead, hrun], fun j => ?_, hrewired.relinked⟩
  by_cases hj : j = slot
  · subst hj
    rw [hrewired.map, LinkMap.detach, LinkMap.setNext_none, LinkMap.setPrev_none, LinkMap.put, ← hp,
      Function.update_eq_self]
  · exact hrewired.other j hj

end Chain

/-! ### Walking -/

/-- Following the members of a list, each of which leads to the next, answers the list. -/
theorem follow_run {α : Type} {step : α → Except Fault (Option α)} {xs : List α} {fuel : Nat}
    (hstep : ∀ a as, (a :: as) <:+ xs → step a = .ok as.head?) (hfuel : xs.length ≤ fuel) :
    follow step fuel xs.head? = .ok xs := by
  induction xs generalizing fuel with
  | nil => cases fuel <;> rfl
  | cons a as ih =>
      obtain ⟨fuel, rfl⟩ : ∃ k, fuel = k + 1 := ⟨fuel - 1, by simp at hfuel; omega⟩
      have hrest : follow step fuel as.head? = .ok as :=
        ih (fun b bs hbs => hstep b bs (hbs.trans (List.suffix_cons a as))) (by simpa using hfuel)
      simp [follow, hstep a as List.suffix_rfl, hrest, pure, Except.pure]

namespace Chain

variable {S P : Type} {slots : Nat} [Reserved P] [DecidableEq P] [ChainStorage S P slots]

/-- Walking from the head of a list answers the list. -/
theorem walk_run {s : S} {slot : Fin slots} {xs : List P}
    (hxs : LinkMap.IsList (linkMap s slot) xs) (hlen : xs.length ≤ ChainStorage.size s) :
    walk s slot xs.head? = .ok xs := by
  refine follow_run (fun p ps hps => ?_) (by omega)
  obtain ⟨as, rfl⟩ := hps
  have hp := LinkMap.segment_mid as hxs
  rw [Option.or_none, Option.or_none] at hp
  exact next_run hp

end Chain

end SlabGraph
