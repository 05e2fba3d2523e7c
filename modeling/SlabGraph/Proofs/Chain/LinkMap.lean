import Mathlib.Data.List.Induction
import Mathlib.Data.List.Nodup
import Mathlib.Logic.Function.Basic
import SlabGraph.Chain.Links

/-!
# Link Maps

The links of one slot, seen all at once, are a map from items to pairs: the item before
and the item after. This module relates such maps to plain lists, without any storage.

`LinkMap.IsList L xs` says that the members of `xs` are linked in that order, that nothing
is linked in front of the first or behind the last, and therefore that no item occurs twice
(`IsList.nodup`): the link backwards of an item determines all that stands before it.
It is the special case of `LinkMap.Segment` in which both neighbours are absent, and
segments are what the proofs are about, since they can be cut and joined
(`segment_append`).

The two changes to a link map are the ones that the chain operations make: `LinkMap.attach`
puts an item in front of another, and `LinkMap.detach` takes an item out and closes the gap.

## Main results

* `IsList.nodup`;
* `IsList.attach`: attaching inserts into the list;
* `IsList.detach`: detaching erases from the list;
* `IsList.of_eq_on`: a list depends only on the links of its members.
-/

namespace SlabGraph

/-- The item before and the item after each item of a slot. -/
abbrev LinkMap (P : Type) := P → Option (Option P × Option P)

namespace LinkMap

variable {P : Type}

/-- The members of a list are linked one after another, the first of them behind `before`
and the last of them in front of `after`. -/
def Segment (L : LinkMap P) (after : Option P) : Option P → List P → Prop
  | _, [] => True
  | before, p :: ps => L p = some (before, ps.head?.or after) ∧ Segment L after (some p) ps

/-- The members of a list are linked one after another, and to nothing else. -/
def IsList (L : LinkMap P) (xs : List P) : Prop := Segment L none none xs

/-- No items are a list. -/
theorem isList_nil (L : LinkMap P) : IsList L [] := trivial

/-- One item is a list exactly if it is linked to nothing. -/
theorem isList_singleton {L : LinkMap P} {p : P} : IsList L [p] ↔ L p = some (none, none) := by
  simp [IsList, Segment]

/-! ### Cutting and joining -/

/-- A segment of two parts is a segment that ends in front of the second part, and a
segment that begins behind the first. -/
theorem segment_append {L : LinkMap P} {after : Option P} (xs ys : List P) {before : Option P} :
    Segment L after before (xs ++ ys) ↔
      Segment L (ys.head?.or after) before xs ∧ Segment L after (xs.getLast?.or before) ys := by
  induction xs generalizing before with
  | nil => simp [Segment]
  | cons p ps ih =>
      have hlast : (p :: ps).getLast?.or before = ps.getLast?.or (some p) := by
        cases ps with
        | nil => simp
        | cons q qs => simp [List.getLast?_eq_some_getLast]
      have hhead : (ps ++ ys).head?.or after = ps.head?.or (ys.head?.or after) := by
        cases ps <;> simp
      rw [List.cons_append, Segment, Segment, ih, hlast, hhead, and_assoc]

/-- What a segment says about one of its members. -/
theorem segment_mid {L : LinkMap P} {after before : Option P} (xs : List P) {p : P}
    {ys : List P} (h : Segment L after before (xs ++ p :: ys)) :
    L p = some (xs.getLast?.or before, ys.head?.or after) := by
  rw [segment_append] at h
  exact h.2.1

/-- The links of a member are the same in all maps in which a segment is one. -/
theorem Segment.links_eq {L L' : LinkMap P} {after before : Option P} {xs : List P} {p : P}
    (h : Segment L after before xs) (h' : Segment L' after before xs) (hp : p ∈ xs) :
    L' p = L p := by
  obtain ⟨as, bs, rfl⟩ := List.append_of_mem hp
  rw [segment_mid as h, segment_mid as h']

/-- The members of a segment have links. -/
theorem segment_mem_isSome {L : LinkMap P} {after before : Option P} {xs : List P} {p : P}
    (h : Segment L after before xs) (hp : p ∈ xs) : (L p).isSome = true := by
  obtain ⟨as, bs, rfl⟩ := List.append_of_mem hp
  rw [segment_mid as h]
  rfl

/-- A segment depends only on the links of its members. -/
theorem Segment.of_eq_on {L L' : LinkMap P} {after before : Option P} {xs : List P}
    (h : Segment L after before xs) (heq : ∀ q ∈ xs, L' q = L q) : Segment L' after before xs := by
  induction xs generalizing before with
  | nil => trivial
  | cons p ps ih =>
      obtain ⟨hp, hps⟩ := h
      refine ⟨(heq p List.mem_cons_self).trans hp, ih hps fun q hq => ?_⟩
      exact heq q (List.mem_cons_of_mem p hq)

/-- A list stays one if the links of its members stay. -/
theorem IsList.of_eq_on {L L' : LinkMap P} {xs : List P} (h : IsList L xs)
    (heq : ∀ q ∈ xs, L' q = L q) : IsList L' xs :=
  Segment.of_eq_on h heq

/-- No item occurs twice. Of two places of one item, the later one would be linked behind
the last item before it, which then stands twice among the earlier ones. -/
theorem Segment.nodup {L : LinkMap P} {after : Option P} {xs : List P}
    (h : Segment L after none xs) : xs.Nodup := by
  induction xs using List.reverseRecOn generalizing after with
  | nil => exact List.nodup_nil
  | append_singleton as x ih =>
      have has : as.Nodup := ih ((segment_append as [x]).1 h).1
      rw [← List.concat_eq_append, List.nodup_concat]
      refine ⟨fun hx => ?_, has⟩
      obtain ⟨us, vs, rfl⟩ := List.append_of_mem hx
      have hlate := segment_mid (us ++ x :: vs) h
      have hearly := segment_mid us (List.append_assoc us (x :: vs) [x] ▸ h)
      have hprev : us.getLast? = (us ++ x :: vs).getLast? := by
        rw [hlate] at hearly
        simpa using (Prod.ext_iff.1 (Option.some.inj hearly)).1.symm
      have hlast : (us ++ x :: vs).getLast? = (x :: vs).getLast? := by
        rw [List.getLast?_append, List.getLast?_eq_some_getLast (List.cons_ne_nil x vs),
          Option.some_or]
      have hmem : (x :: vs).getLast (List.cons_ne_nil x vs) ∈ us := by
        apply List.mem_of_getLast?
        rw [hprev, hlast, List.getLast?_eq_some_getLast]
      exact (List.disjoint_of_nodup_append has) hmem (List.getLast_mem _)

/-- No item is in a list twice. -/
theorem IsList.nodup {L : LinkMap P} {xs : List P} (h : IsList L xs) : xs.Nodup :=
  Segment.nodup h

/-! ### Changing links -/

section

variable [DecidableEq P]

/-- Replaces both links of an item. -/
def put (L : LinkMap P) (p : P) (before after : Option P) : LinkMap P :=
  Function.update L p (some (before, after))

/-- The links of an item that were replaced. -/
@[simp] theorem put_self (L : LinkMap P) (p : P) (before after : Option P) :
    L.put p before after p = some (before, after) := by
  simp [put]

/-- The links of other items stay. -/
theorem put_of_ne (L : LinkMap P) {p q : P} (before after : Option P) (h : q ≠ p) :
    L.put p before after q = L q := by
  simp [put, h]

/-- Replaces the item before an item, if there is such an item. -/
def setPrev (L : LinkMap P) (p? : Option P) (before : Option P) : LinkMap P :=
  match p? with
  | none => L
  | some p => Function.update L p ((L p).map fun pair => (before, pair.2))

/-- Replaces the item after an item, if there is such an item. -/
def setNext (L : LinkMap P) (p? : Option P) (after : Option P) : LinkMap P :=
  match p? with
  | none => L
  | some p => Function.update L p ((L p).map fun pair => (pair.1, after))

@[simp] theorem setPrev_none (L : LinkMap P) (before : Option P) :
    L.setPrev none before = L := rfl

@[simp] theorem setNext_none (L : LinkMap P) (after : Option P) : L.setNext none after = L := rfl

/-- Replacing the item before an item keeps the one after it. -/
@[simp] theorem setPrev_self (L : LinkMap P) (p : P) (before : Option P) :
    L.setPrev (some p) before p = (L p).map fun pair => (before, pair.2) := by
  simp [setPrev]

/-- Replacing the item after an item keeps the one before it. -/
@[simp] theorem setNext_self (L : LinkMap P) (p : P) (after : Option P) :
    L.setNext (some p) after p = (L p).map fun pair => (pair.1, after) := by
  simp [setNext]

/-- Replacing the item before an item leaves all other items alone. -/
theorem setPrev_of_ne (L : LinkMap P) {p? : Option P} {q : P} (before : Option P)
    (h : p? ≠ some q) : L.setPrev p? before q = L q := by
  cases p? with
  | none => rfl
  | some p =>
      have hne : q ≠ p := fun hqp => h (by rw [hqp])
      simp [setPrev, hne]

/-- Replacing the item after an item leaves all other items alone. -/
theorem setNext_of_ne (L : LinkMap P) {p? : Option P} {q : P} (after : Option P)
    (h : p? ≠ some q) : L.setNext p? after q = L q := by
  cases p? with
  | none => rfl
  | some p =>
      have hne : q ≠ p := fun hqp => h (by rw [hqp])
      simp [setNext, hne]

/-- Replacing the item before an item gives links to no item that had none. -/
@[simp] theorem isSome_setPrev (L : LinkMap P) (p? before : Option P) (q : P) :
    (L.setPrev p? before q).isSome = (L q).isSome := by
  by_cases h : p? = some q
  · simp [h]
  · rw [setPrev_of_ne L before h]

/-- Replacing the item after an item gives links to no item that had none. -/
@[simp] theorem isSome_setNext (L : LinkMap P) (p? after : Option P) (q : P) :
    (L.setNext p? after q).isSome = (L q).isSome := by
  by_cases h : p? = some q
  · simp [h]
  · rw [setNext_of_ne L after h]

/-- Writing both links of an item that is there, one after the other. -/
theorem setNext_setPrev {L : LinkMap P} {p : P} (h : (L p).isSome = true)
    (before after : Option P) :
    (L.setPrev (some p) before).setNext (some p) after = L.put p before after := by
  obtain ⟨pair, hpair⟩ := Option.isSome_iff_exists.1 h
  funext q
  by_cases hq : q = p
  · subst hq
    simp [hpair]
  · have hne : some p ≠ some q := fun hpq => hq (Option.some.inj hpq).symm
    rw [setNext_of_ne _ _ hne, setPrev_of_ne _ _ hne, put_of_ne _ _ _ hq]

/-- Linking the last member of a segment to another item behind it. -/
theorem Segment.setNext_getLast {L : LinkMap P} {after before : Option P} {xs : List P}
    (h : Segment L after before xs) (hnodup : xs.Nodup) (after' : Option P) :
    Segment (L.setNext xs.getLast? after') after' before xs := by
  rcases List.eq_nil_or_concat xs with rfl | ⟨as, x, rfl⟩
  · trivial
  · rw [List.concat_eq_append] at h hnodup ⊢
    rw [List.getLast?_append, List.getLast?_singleton, Option.some_or, segment_append]
    obtain ⟨has, hx, -⟩ := (segment_append as [x]).1 h
    have hnot : x ∉ as := by
      have := List.nodup_append.1 hnodup
      exact fun hmem => this.2.2 x hmem x (List.mem_singleton_self x) rfl
    refine ⟨has.of_eq_on fun q hq => ?_, ?_, trivial⟩
    · exact setNext_of_ne L after' fun hxq => hnot (Option.some.inj hxq ▸ hq)
    · simp [hx]

/-- Linking the first member of a segment to another item before it. -/
theorem Segment.setPrev_head {L : LinkMap P} {after before : Option P} {xs : List P}
    (h : Segment L after before xs) (hnodup : xs.Nodup) (before' : Option P) :
    Segment (L.setPrev xs.head? before') after before' xs := by
  cases xs with
  | nil => trivial
  | cons x ys =>
      obtain ⟨hx, hys⟩ := h
      refine ⟨by simp [hx], hys.of_eq_on fun q hq => ?_⟩
      have hne : x ≠ q := fun hxq => (List.nodup_cons.1 hnodup).1 (hxq ▸ hq)
      exact setPrev_of_ne L before' fun hxq => hne (Option.some.inj hxq)

/-! ### Attaching and detaching -/

/-- Puts an item in front of `peer`, which stands behind `before`. -/
def attach (L : LinkMap P) (p : P) (before : Option P) (peer : P) : LinkMap P :=
  ((L.put p before (some peer)).setPrev (some peer) (some p)).setNext before (some p)

/-- Takes an item out that stands behind `before` and in front of `after`. -/
def detach (L : LinkMap P) (p : P) (before after : Option P) : LinkMap P :=
  ((L.setNext before after).setPrev after before).put p none none

/-- Attaching touches the item itself, its new neighbour and the item before that. -/
theorem attach_of_ne {L : LinkMap P} {p q peer : P} {before : Option P} (hp : q ≠ p)
    (hpeer : q ≠ peer) (hbefore : before ≠ some q) : L.attach p before peer q = L q := by
  rw [attach, setNext_of_ne _ _ hbefore, setPrev_of_ne _ _ fun h => hpeer (Option.some.inj h).symm,
    put_of_ne _ _ _ hp]

/-- An item that was detached is linked to nothing. -/
theorem detach_self (L : LinkMap P) (p : P) (before after : Option P) :
    L.detach p before after p = some (none, none) := by
  simp [detach]

/-- Detaching touches the item itself and its two neighbours. -/
theorem detach_of_ne {L : LinkMap P} {p q : P} {before after : Option P} (hp : q ≠ p)
    (hbefore : before ≠ some q) (hafter : after ≠ some q) : L.detach p before after q = L q := by
  rw [detach, put_of_ne _ _ _ hp, setPrev_of_ne _ _ hafter, setNext_of_ne _ _ hbefore]

/-- Attaching an item in front of a member of a list inserts it there. -/
theorem IsList.attach {L : LinkMap P} (as : List P) {bs : List P} {p peer : P}
    (h : IsList L (as ++ peer :: bs)) (hp : p ∉ as ++ peer :: bs) :
    IsList (L.attach p as.getLast? peer) (as ++ p :: peer :: bs) := by
  have hnodup := h.nodup
  obtain ⟨has, hpeer, hbs⟩ := (segment_append as (peer :: bs)).1 h
  obtain ⟨hnas, hnpeer, hdisj⟩ := List.nodup_append.1 hnodup
  have hpas : p ∉ as := fun hm => hp (List.mem_append_left _ hm)
  have hppeer : p ≠ peer := fun hm => hp (by simp [hm])
  have hpbs : p ∉ bs := fun hm => hp (by simp [hm])
  have hpeeras : peer ∉ as := fun hm => hdisj peer hm peer List.mem_cons_self rfl
  have hlast : ∀ q, as.getLast? = some q → q ∈ as := fun q hq => List.mem_of_getLast? hq
  refine (segment_append as (p :: peer :: bs)).2 ⟨?_, ?_, ?_, ?_⟩
  · refine Segment.of_eq_on (has.setNext_getLast hnas (some p)) fun q hq => ?_
    have hqp : q ≠ p := fun hqp => hpas (hqp ▸ hq)
    have hqpeer : q ≠ peer := fun hqp => hpeeras (hqp ▸ hq)
    have hinner : (L.put p as.getLast? (some peer)).setPrev (some peer) (some p) q = L q := by
      rw [setPrev_of_ne _ _ fun h => hqpeer (Option.some.inj h).symm, put_of_ne _ _ _ hqp]
    by_cases hq' : as.getLast? = some q
    · rw [LinkMap.attach, hq', setNext_self, setNext_self, ← hq', hinner]
    · rw [LinkMap.attach, setNext_of_ne _ _ hq', setNext_of_ne _ _ hq', hinner]
  · rw [LinkMap.attach, setNext_of_ne _ _ fun hq => hpas (hlast p hq),
      setPrev_of_ne _ _ fun h => hppeer (Option.some.inj h).symm, put_self]
    simp
  · rw [LinkMap.attach, setNext_of_ne _ _ fun hq => hpeeras (hlast peer hq), setPrev_self,
      put_of_ne _ _ _ hppeer.symm, hpeer]
    simp
  · refine hbs.of_eq_on fun q hq => ?_
    have hqas : q ∉ as := fun hm => hdisj q hm q (List.mem_cons_of_mem peer hq) rfl
    have hqpeer : q ≠ peer := fun hqp => (List.nodup_cons.1 hnpeer).1 (hqp ▸ hq)
    have hqp : q ≠ p := fun hqp => hpbs (hqp ▸ hq)
    exact attach_of_ne hqp hqpeer fun hm => hqas (hlast q hm)

/-- Detaching a member of a list erases it. -/
theorem IsList.detach {L : LinkMap P} {as bs : List P} {p : P} (h : IsList L (as ++ p :: bs)) :
    IsList (L.detach p as.getLast? bs.head?) (as ++ bs) := by
  obtain ⟨has, hp, hbs⟩ := (segment_append as (p :: bs)).1 h
  obtain ⟨hnas, hnpbs, hdisj⟩ := List.nodup_append.1 h.nodup
  obtain ⟨hpbs, hnbs⟩ := List.nodup_cons.1 hnpbs
  have hpas : p ∉ as := fun hm => hdisj p hm p List.mem_cons_self rfl
  have hasbs : ∀ q ∈ as, q ∉ bs := fun q hq hq' =>
    hdisj q hq q (List.mem_cons_of_mem p hq') rfl
  refine (segment_append as bs).2 ⟨?_, ?_⟩
  · rw [Option.or_none]
    refine Segment.of_eq_on (has.setNext_getLast hnas bs.head?) fun q hq => ?_
    have hqp : q ≠ p := fun hqp => hpas (hqp ▸ hq)
    have hhead : bs.head? ≠ some q := fun hq' => hasbs q hq (List.mem_of_head? hq')
    rw [LinkMap.detach, put_of_ne _ _ _ hqp, setPrev_of_ne _ _ hhead]
  · rw [Option.or_none]
    refine Segment.of_eq_on (hbs.setPrev_head hnbs as.getLast?) fun q hq => ?_
    have hqp : q ≠ p := fun hqp => hpbs (hqp ▸ hq)
    have hlast : as.getLast? ≠ some q := fun hq' =>
      hasbs q (List.mem_of_getLast? hq') hq
    have hinner : L.setNext as.getLast? bs.head? q = L q := setNext_of_ne _ _ hlast
    rw [LinkMap.detach, put_of_ne _ _ _ hqp]
    by_cases hq' : bs.head? = some q
    · rw [hq', setPrev_self, setPrev_self, ← hq', hinner]
    · rw [setPrev_of_ne _ _ hq', setPrev_of_ne _ _ hq', hinner]

end

end LinkMap

end SlabGraph
