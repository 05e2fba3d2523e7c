import SlabGraph.Proofs.Chain.Storage

/-!
# Partitions into Chains

No item is in two lists of a link map (`LinkMap.IsList.eq_of_mem`), since each link of an item
determines what stands there. A link map is *covered* if every item that is there is in a list
at all, and then the lists partition the items. This needs an argument. Links taken at random
need not lead back where they came from, and may run in a circle.

Attaching and detaching keep a link map covered. Each replaces a few lists by others with the
same members and leaves the rest of the items alone (`LinkMap.Regroups`), and the lists of the
new link map are then known exactly: the replacements, and the old lists that were not replaced
(`Regroups.isList_iff`).

On a storage whose link maps are covered, the chain operations either fail and have changed
nothing, or regroup the lists of one slot (`Chain.attach_regroups`, `Chain.detach_regroups`).

## Main definitions

* `LinkMap.Covered`, `LinkMap.Regroups`, `Chain.Covered`, `Chain.Regroups`, `Chain.CanAttach`.

## Main results

* `LinkMap.IsList.eq_of_mem`, `LinkMap.Regroups.isList_iff`, `LinkMap.Regroups.covered`;
* `LinkMap.regroups_attach`, `LinkMap.regroups_detach`;
* `Chain.attach_refused`, `Chain.attach_regroups`, `Chain.detach_refused`,
  `Chain.detach_regroups`.
-/

namespace SlabGraph

namespace LinkMap

variable {P : Type} {L L' : LinkMap P}

/-! ### Lists are apart -/

/-- Links forwards determine what stands behind an item. -/
theorem Segment.eq_of_head? {before before' : Option P} {xs ys : List P}
    (hxs : Segment L none before xs) (hys : Segment L none before' ys)
    (h : xs.head? = ys.head?) : xs = ys := by
  induction xs generalizing before before' ys with
  | nil => exact (List.head?_eq_none_iff.1 h.symm).symm
  | cons x xs ih =>
      obtain ⟨ys, rfl⟩ := List.head?_eq_some_iff.1 h.symm
      obtain ⟨hx, hxs⟩ := hxs
      obtain ⟨hx', hys⟩ := hys
      rw [hx] at hx'
      have hhead : xs.head? = ys.head? := by simpa using congrArg (Option.map Prod.snd) hx'
      rw [ih hxs hys hhead]

/-- Links backwards determine what stands before an item. -/
theorem Segment.eq_of_getLast? {after after' : Option P} {xs ys : List P}
    (hxs : Segment L after none xs) (hys : Segment L after' none ys)
    (h : xs.getLast? = ys.getLast?) : xs = ys := by
  induction xs using List.reverseRecOn generalizing after after' ys with
  | nil => exact (List.getLast?_eq_none_iff.1 h.symm).symm
  | append_singleton xs x ih =>
      rw [List.getLast?_concat] at h
      obtain ⟨ys, rfl⟩ := List.getLast?_eq_some_iff.1 h.symm
      have hx := segment_mid xs hxs
      rw [segment_mid ys hys] at hx
      have hlast : xs.getLast? = ys.getLast? := by
        simpa using (congrArg (Option.map Prod.fst) hx).symm
      rw [ih ((segment_append xs [x]).1 hxs).1 ((segment_append ys [x]).1 hys).1 hlast]

/-- Lists that share a member are one list. -/
theorem IsList.eq_of_mem {xs ys : List P} {p : P} (hxs : IsList L xs) (hys : IsList L ys)
    (hp : p ∈ xs) (hp' : p ∈ ys) : xs = ys := by
  obtain ⟨as, bs, rfl⟩ := List.append_of_mem hp
  obtain ⟨cs, ds, rfl⟩ := List.append_of_mem hp'
  have hlinks := segment_mid as hxs
  rw [segment_mid cs hys] at hlinks
  simp only [Option.or_none, Option.some.injEq, Prod.mk.injEq] at hlinks
  obtain ⟨has, hbs⟩ := (segment_append as (p :: bs)).1 hxs
  obtain ⟨hcs, hds⟩ := (segment_append cs (p :: ds)).1 hys
  rw [has.eq_of_getLast? hcs hlinks.1.symm, hbs.2.eq_of_head? hds.2 hlinks.2.symm]

/-- A list is linked in order if each of its members is linked to the members around it. -/
theorem segment_of_mid {before after : Option P} {xs : List P}
    (h : ∀ as p bs, xs = as ++ p :: bs → L p = some (as.getLast?.or before, bs.head?.or after)) :
    Segment L after before xs := by
  induction xs generalizing before with
  | nil => trivial
  | cons x xs ih =>
      refine ⟨by simpa using h [] x xs rfl, ih fun as p bs hxs => ?_⟩
      rw [h (x :: as) p bs (by rw [hxs, List.cons_append])]
      cases as with
      | nil => simp
      | cons a as => simp [List.getLast?_eq_some_getLast]

/-! ### Regrouping -/

/-- Every item that is there is a member of a list. -/
def Covered (L : LinkMap P) : Prop :=
  ∀ p, (L p).isSome = true → ∃ xs, IsList L xs ∧ p ∈ xs

/-- Some lists of a link map have become other lists, and the items outside them are linked as
before. -/
structure Regroups (L L' : LinkMap P) (old new : List (List P)) : Prop where
  /-- The lists that are replaced. -/
  isList_old : ∀ xs ∈ old, IsList L xs
  /-- The lists in their place. -/
  isList_new : ∀ xs ∈ new, IsList L' xs
  /-- They have the same members. -/
  members : ∀ p, p ∈ new.flatten ↔ p ∈ old.flatten
  /-- Other items are linked as before. -/
  outside : ∀ p, p ∉ old.flatten → L' p = L p

namespace Regroups

variable {old new : List (List P)}

/-- A list that is not replaced stays. -/
theorem kept (h : Regroups L L' old new) {xs : List P} (hxs : IsList L xs) (hold : xs ∉ old) :
    IsList L' xs := by
  refine hxs.of_eq_on fun p hp => h.outside p fun hmem => ?_
  obtain ⟨ys, hys, hp'⟩ := List.mem_flatten.1 hmem
  exact hold ((h.isList_old ys hys).eq_of_mem hxs hp' hp ▸ hys)

/-- An item of the new link map is in a replacement, or in an old list that stays. -/
theorem cases_of_isSome (h : Regroups L L' old new) (hL : Covered L) {p : P}
    (hp : (L' p).isSome = true) :
    (∃ xs ∈ new, p ∈ xs) ∨ ∃ xs, IsList L xs ∧ xs ∉ old ∧ p ∈ xs := by
  by_cases hmem : p ∈ old.flatten
  · exact .inl (List.mem_flatten.1 ((h.members p).2 hmem))
  · rw [h.outside p hmem] at hp
    obtain ⟨xs, hxs, hpxs⟩ := hL p hp
    exact .inr ⟨xs, hxs, fun hold => hmem (List.mem_flatten.2 ⟨xs, hold, hpxs⟩), hpxs⟩

/-- Every item is on a list after some lists were replaced, if the items on them are the same. -/
theorem covered (h : Regroups L L' old new) (hL : Covered L) : Covered L' := by
  intro p hp
  obtain ⟨xs, hxs, hpxs⟩ | ⟨xs, hxs, hold, hpxs⟩ := h.cases_of_isSome hL hp
  · exact ⟨xs, h.isList_new xs hxs, hpxs⟩
  · exact ⟨xs, h.kept hxs hold, hpxs⟩

/-- The lists of the new link map are the replacements and the old lists that stay. -/
theorem isList_iff (h : Regroups L L' old new) (hL : Covered L) {xs : List P} (hne : xs ≠ []) :
    IsList L' xs ↔ xs ∈ new ∨ IsList L xs ∧ xs ∉ old := by
  constructor
  · intro hxs
    obtain ⟨p, hp⟩ := List.exists_mem_of_ne_nil xs hne
    obtain ⟨ys, hys, hpys⟩ | ⟨ys, hys, hold, hpys⟩ :=
      h.cases_of_isSome hL (segment_mem_isSome hxs hp)
    · obtain rfl := hxs.eq_of_mem (h.isList_new ys hys) hp hpys
      exact .inl hys
    · obtain rfl := hxs.eq_of_mem (h.kept hys hold) hp hpys
      exact .inr ⟨hys, hold⟩
  · rintro (hxs | ⟨hxs, hold⟩)
    · exact h.isList_new xs hxs
    · exact h.kept hxs hold

end Regroups

section

variable [DecidableEq P]

/-- Attaching an item that is alone joins it to the list of the other item. -/
theorem regroups_attach {as bs : List P} {p peer : P} (h : IsList L (as ++ peer :: bs))
    (hp : L p = some (none, none)) (hne : p ≠ peer) :
    Regroups L (L.attach p as.getLast? peer) [[p], as ++ peer :: bs] [as ++ p :: peer :: bs] := by
  have hsingle : IsList L [p] := isList_singleton.2 hp
  have hmem : p ∉ as ++ peer :: bs := fun hmem => by
    have heq := hsingle.eq_of_mem h List.mem_cons_self hmem
    have hpeer : peer ∈ [p] := heq ▸ List.mem_append_right as List.mem_cons_self
    exact hne (List.mem_singleton.1 hpeer).symm
  refine ⟨?_, ?_, fun q => ?_, fun q hq => ?_⟩
  · simp only [List.mem_cons, List.not_mem_nil, or_false, forall_eq_or_imp, forall_eq]
    exact ⟨hsingle, h⟩
  · simp only [List.mem_singleton, forall_eq]
    exact h.attach as hmem
  · simp only [List.flatten_cons, List.flatten_nil, List.mem_append, List.mem_cons,
      List.not_mem_nil]
    tauto
  · have hq' : q ≠ p ∧ q ∉ as ++ peer :: bs := by simpa using hq
    refine attach_of_ne hq'.1 (fun hpeer => hq'.2 (by simp [hpeer])) fun hlast => hq'.2 ?_
    exact List.mem_append_left _ (List.mem_of_getLast? hlast)

/-- Detaching an item sets it apart from its list. -/
theorem regroups_detach {as bs : List P} {p : P} (h : IsList L (as ++ p :: bs)) :
    Regroups L (L.detach p as.getLast? bs.head?) [as ++ p :: bs] [[p], as ++ bs] := by
  refine ⟨?_, ?_, fun q => ?_, fun q hq => ?_⟩
  · simp only [List.mem_singleton, forall_eq]
    exact h
  · simp only [List.mem_cons, List.not_mem_nil, or_false, forall_eq_or_imp, forall_eq]
    exact ⟨isList_singleton.2 (detach_self L p _ _), h.detach⟩
  · simp only [List.flatten_cons, List.flatten_nil, List.mem_append, List.mem_cons,
      List.not_mem_nil]
    tauto
  · have hq' : q ∉ as ++ p :: bs := by simpa using hq
    refine detach_of_ne (fun hp => hq' (by simp [hp])) (fun hlast => hq' ?_) fun hhead => hq' ?_
    · exact List.mem_append_left _ (List.mem_of_getLast? hlast)
    · exact List.mem_append_right _ (List.mem_cons_of_mem p (List.mem_of_head? hhead))

end

end LinkMap

/-! ### Storages -/

namespace Chain

variable {S P : Type} {slots : Nat} [Reserved P] [DecidableEq P] [ChainStorage S P slots]

/-- In each slot, every item that is there is a member of a list. -/
def Covered (s : S) : Prop := ∀ slot : Fin slots, (linkMap s slot).Covered

/-- A storage has become another one in which some lists of a slot have become other lists. -/
structure Regroups (slot : Fin slots) (s t : S) (old new : List (List P)) : Prop where
  /-- The lists of the slot. -/
  lists : (linkMap s slot).Regroups (linkMap t slot) old new
  /-- The links of the other slots are as before. -/
  other : ∀ j, j ≠ slot → linkMap t j = linkMap s j
  /-- Nothing but links has changed. -/
  relinked : Relinked s t

/-- Every item stays on a list when lists are regrouped. -/
theorem Regroups.covered {slot : Fin slots} {s t : S} {old new : List (List P)}
    (h : Regroups slot s t old new) (hs : Covered s) : Covered t := by
  intro j
  by_cases hj : j = slot
  · exact hj ▸ h.lists.covered (hs slot)
  · rw [h.other j hj]
    exact hs j

/-! #### Reads that fail -/

/-- The item after an item that is not there cannot be read, nor can anything in a slot that
does not exist. -/
theorem next_error {s : S} {p : P} {slot : Nat}
    (h : ∀ j : Fin slots, slot = j → linkMap s j p = none) : ∃ e, next s p slot = .error e := by
  cases hl : ChainStorage.links s p with
  | error e => exact ⟨e, by simp [next, hl]⟩
  | ok l =>
      have hslot : ¬slot < slots := fun hlt => by
        simpa [linkMap_of_links hl] using h ⟨slot, hlt⟩ rfl
      exact ⟨.outOfBounds slots slot, by simp [next, hl, Links.nextAt, slotAt, hslot]⟩

/-- The item before another one cannot be read where there are no links. -/
theorem prev_error {s : S} {p : P} {slot : Nat}
    (h : ∀ j : Fin slots, slot = j → linkMap s j p = none) : ∃ e, prev s p slot = .error e := by
  cases hl : ChainStorage.links s p with
  | error e => exact ⟨e, by simp [prev, hl]⟩
  | ok l =>
      have hslot : ¬slot < slots := fun hlt => by
        simpa [linkMap_of_links hl] using h ⟨slot, hlt⟩ rfl
      exact ⟨.outOfBounds slots slot, by simp [prev, hl, Links.prevAt, slotAt, hslot]⟩

/-- A slot and an item of which the links can be read, or neither of them. -/
theorem exists_linkMap_or (s : S) (p : P) (slot : Nat) :
    (∃ (j : Fin slots) (before after : Option P), slot = j ∧ linkMap s j p = some (before, after)) ∨
      ∀ j : Fin slots, slot = j → linkMap s j p = none := by
  by_cases hslot : slot < slots
  · cases hp : linkMap s ⟨slot, hslot⟩ p with
    | some pair => exact .inl ⟨⟨slot, hslot⟩, pair.1, pair.2, rfl, hp⟩
    | none =>
        refine .inr fun j hj => ?_
        obtain rfl : j = ⟨slot, hslot⟩ := Fin.ext hj.symm
        exact hp
  · exact .inr fun j hj => absurd (hj ▸ j.isLt) hslot

/-- The links of an item are what is read of them. -/
theorem linkMap_eq_some_iff_reads {s : S} {j : Fin slots} {p : P} {before after : Option P} :
    linkMap s j p = some (before, after) ↔
      prev s p j = .ok before ∧ next s p j = .ok after := by
  refine ⟨fun h => ⟨prev_run h, next_run h⟩, fun ⟨hprev, hnext⟩ => ?_⟩
  cases hp : linkMap s j p with
  | some pair =>
      rw [prev_run hp] at hprev
      rw [next_run hp] at hnext
      rw [← Except.ok.inj hprev, ← Except.ok.inj hnext]
  | none =>
      obtain ⟨e, he⟩ := next_error (s := s) (p := p) fun k (hk : j.val = k) => by
        rwa [← Fin.ext hk]
      simp [he] at hnext

/-- The links backwards are the inverse of the links forwards. -/
theorem next_eq_iff_prev_eq {s : S} (hs : Covered s) {p q : P} {slot : Nat} :
    next s p slot = .ok (some q) ↔ prev s q slot = .ok (some p) := by
  constructor
  · intro hnext
    obtain ⟨j, before, after, rfl, hp⟩ | hp := exists_linkMap_or s p slot
    · obtain rfl : after = some q := Except.ok.inj ((next_run hp).symm.trans hnext)
      -- both items stand on the list of the first one, one after the other
      obtain ⟨xs, hxs, hmem⟩ := hs j p (by simp [hp])
      obtain ⟨as, bs, rfl⟩ := List.append_of_mem hmem
      have hbs : bs.head? = some q := by
        have := (LinkMap.segment_mid as hxs).symm.trans hp
        simp only [Option.or_none, Option.some.injEq, Prod.mk.injEq] at this
        exact this.2
      obtain ⟨ds, rfl⟩ := List.head?_eq_some_iff.1 hbs
      have hq := LinkMap.segment_mid (as ++ [p]) ((List.append_cons as p _) ▸ hxs)
      simpa using prev_run hq
    · obtain ⟨e, he⟩ := next_error hp
      simp [he] at hnext
  · intro hprev
    obtain ⟨j, before, after, rfl, hq⟩ | hq := exists_linkMap_or s q slot
    · obtain rfl : before = some p := Except.ok.inj ((prev_run hq).symm.trans hprev)
      obtain ⟨xs, hxs, hmem⟩ := hs j q (by simp [hq])
      obtain ⟨as, bs, rfl⟩ := List.append_of_mem hmem
      have has : as.getLast? = some p := by
        have := (LinkMap.segment_mid as hxs).symm.trans hq
        simp only [Option.or_none, Option.some.injEq, Prod.mk.injEq] at this
        exact this.1
      obtain ⟨cs, rfl⟩ := List.getLast?_eq_some_iff.1 has
      have hp := LinkMap.segment_mid cs ((List.append_cons cs p _).symm ▸ hxs)
      simpa using next_run hp
    · obtain ⟨e, he⟩ := prev_error hq
      simp [he] at hprev

/-- A walk from a member of a list on answers the rest of the list. -/
theorem walk_from {s : S} {j : Fin slots} {as bs : List P} {p : P}
    (hxs : LinkMap.IsList (linkMap s j) (as ++ p :: bs))
    (hlen : (as ++ p :: bs).length ≤ ChainStorage.size s) :
    walk s j (some p) = .ok (p :: bs) := by
  rw [List.length_append] at hlen
  refine follow_run (fun q qs hqs => ?_) (show (p :: bs).length ≤ _ by omega)
  obtain ⟨cs, hcs⟩ := hqs
  rw [← hcs, ← List.append_assoc] at hxs
  simpa using next_run (LinkMap.segment_mid (as ++ cs) hxs)

/-! #### Attaching -/

/-- An item is alone in a slot, and another one is there. -/
def CanAttach (s : S) (p : P) (slot : Nat) (peer : P) : Prop :=
  p ≠ peer ∧ ∃ j : Fin slots, slot = j ∧ linkMap s j p = some (none, none) ∧
    (linkMap s j peer).isSome = true

/-- Attaching that is not possible fails, and leaves the storage alone. -/
theorem attach_refused {s : S} {p peer : P} {slot : Nat} (h : ¬CanAttach s p slot peer) :
    ∃ e, attach p slot peer s = .error e s := by
  by_cases hne : p = peer
  · exact ⟨.selfAttach, by simp [attach, hne]⟩
  obtain ⟨j, before, after, rfl, hp⟩ | hp := exists_linkMap_or s p slot
  · cases after with
    | some q => exact ⟨.alreadyLinked, by
        simp [attach, hne, hasNeighbours, next_run hp, pure, Except.pure]⟩
    | none =>
        cases before with
        | some q => exact ⟨.alreadyLinked, by
            simp [attach, hne, hasNeighbours, next_run hp, prev_run hp, pure, Except.pure]⟩
        | none =>
            have hpeer : linkMap s j peer = none := by
              by_contra hsome
              exact h ⟨hne, j, rfl, hp, Option.isSome_iff_ne_none.2 hsome⟩
            have hnone : ∀ k : Fin slots, j.val = k → linkMap s k peer = none := fun k hk => by
              rwa [← Fin.ext hk]
            obtain ⟨e, he⟩ := prev_error hnone
            exact ⟨e, by simp [attach, hne, hasNeighbours_run hp, he]⟩
  · obtain ⟨e, he⟩ := next_error hp
    exact ⟨e, by simp [attach, hne, hasNeighbours, he]⟩

section

variable [LawfulChainStorage S P slots]

/-- Attaching joins an item that is alone to the list of another one. -/
theorem attach_regroups {s : S} {p peer : P} {slot : Nat} (hs : Covered s)
    (h : CanAttach s p slot peer) :
    ∃ (j : Fin slots) (as bs : List P) (t : S), slot = j ∧ attach p slot peer s = .ok () t ∧
      Regroups j s t [[p], as ++ peer :: bs] [as ++ p :: peer :: bs] := by
  obtain ⟨hne, j, rfl, hp, hpeer⟩ := h
  obtain ⟨xs, hxs, hmem⟩ := hs j peer hpeer
  obtain ⟨as, bs, rfl⟩ := List.append_of_mem hmem
  have hlinks : linkMap s j peer = some (as.getLast?, bs.head?) := by
    simpa using LinkMap.segment_mid as hxs
  obtain ⟨t, ht, hr⟩ := attach_run hne hp hlinks fun q hq =>
    LinkMap.segment_mem_isSome hxs (List.mem_append_left _ (List.mem_of_getLast? hq))
  exact ⟨j, as, bs, t, rfl, ht, hr.map ▸ LinkMap.regroups_attach hxs hp hne, hr.other, hr.relinked⟩

/-! #### Detaching -/

omit [LawfulChainStorage S P slots] in
/-- Detaching what has no links fails, and leaves the storage alone. -/
theorem detach_refused {s : S} {p : P} {slot : Nat}
    (h : ∀ j : Fin slots, slot = j → linkMap s j p = none) :
    ∃ e, detach p slot s = .error e s := by
  obtain ⟨e, he⟩ := prev_error h
  exact ⟨e, by simp [detach, he]⟩

/-- Detaching sets an item apart from its list. -/
theorem detach_regroups {s : S} {p : P} {j : Fin slots} (hs : Covered s)
    (hp : (linkMap s j p).isSome = true) :
    ∃ (as bs : List P) (t : S), linkMap s j p = some (as.getLast?, bs.head?) ∧
      detach p j s = .ok () t ∧ Regroups j s t [as ++ p :: bs] [[p], as ++ bs] := by
  obtain ⟨xs, hxs, hmem⟩ := hs j p hp
  obtain ⟨as, bs, rfl⟩ := List.append_of_mem hmem
  have hlinks : linkMap s j p = some (as.getLast?, bs.head?) := by
    simpa using LinkMap.segment_mid as hxs
  obtain ⟨t, ht, hr⟩ := detach_run hlinks
    (fun q hq =>
      LinkMap.segment_mem_isSome hxs (List.mem_append_left _ (List.mem_of_getLast? hq)))
    (fun q hq => LinkMap.segment_mem_isSome hxs
      (List.mem_append_right _ (List.mem_cons_of_mem p (List.mem_of_head? hq))))
  exact ⟨as, bs, t, hlinks, ht, hr.map ▸ LinkMap.regroups_detach hxs, hr.other, hr.relinked⟩

/-- An item is detached from one slot after another. -/
theorem forM_detach_regroups {p : P} {slotList : List (Fin slots)} {s : S} (hs : Covered s)
    (hp : ∀ j : Fin slots, (linkMap s j p).isSome = true) (hnodup : slotList.Nodup) :
    ∃ t, forM (slotList.map Fin.val) (detach p) s = .ok () t ∧ Covered t ∧ Relinked s t ∧
      (∀ j, j ∉ slotList → linkMap t j = linkMap s j) ∧
      ∀ j ∈ slotList, ∃ as bs, (linkMap s j).Regroups (linkMap t j) [as ++ p :: bs]
        [[p], as ++ bs] := by
  induction slotList generalizing s with
  | nil => exact ⟨s, rfl, hs, .refl, fun _ _ => rfl, by simp⟩
  | cons i is ih =>
      obtain ⟨hi, his⟩ := List.nodup_cons.1 hnodup
      obtain ⟨as, bs, u, -, hrun, hu⟩ := detach_regroups hs (hp i)
      have hpu : ∀ j : Fin slots, (linkMap u j p).isSome = true := fun j => by
        by_cases hj : j = i
        · subst hj
          exact LinkMap.segment_mem_isSome (hu.lists.isList_new [p] (by simp))
            List.mem_cons_self
        · rw [hu.other j hj]
          exact hp j
      obtain ⟨t, ht, hct, hrel, hother, hlists⟩ := ih (hu.covered hs) hpu his
      refine ⟨t, ?_, hct, hu.relinked.trans hrel, fun j hj => ?_, fun j hj => ?_⟩
      · rw [List.map_cons, List.forM_cons, Action.run_bind, hrun]
        exact ht
      · rw [hother j fun hmem => hj (List.mem_cons_of_mem i hmem),
          hu.other j fun heq => hj (heq ▸ List.mem_cons_self)]
      · rcases List.mem_cons.1 hj with rfl | hj
        · exact ⟨as, bs, hother j hi ▸ hu.lists⟩
        · rw [← hu.other j fun heq => hi (heq ▸ hj)]
          exact hlists j hj

/-- Detaching an item from all slots sets it apart from its list in each of them. -/
theorem detachAll_regroups {p : P} {s : S} (hs : Covered s)
    (hp : ∀ j : Fin slots, (linkMap s j p).isSome = true) :
    ∃ t, detachAll p s = .ok () t ∧ Covered t ∧ Relinked s t ∧
      ∀ j, ∃ as bs, (linkMap s j).Regroups (linkMap t j) [as ++ p :: bs] [[p], as ++ bs] := by
  obtain ⟨t, ht, hct, hrel, -, hlists⟩ := forM_detach_regroups hs hp (List.nodup_finRange slots)
  rw [List.map_coe_finRange_eq_range, ← List.forM_eq_forM] at ht
  exact ⟨t, ht, hct, hrel, fun j => hlists j (List.mem_finRange j)⟩

end

end Chain

end SlabGraph
