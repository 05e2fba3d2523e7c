import Mathlib.Data.List.Nodup
import Mathlib.Data.List.Pairwise
import Mathlib.Data.List.Perm.Subperm
import Mathlib.Logic.Function.Basic
import SlabGraph.Graph.Record

/-!
# Populations

A population is what a roster is about once pools, links and counters are left out: which
slots are taken, in which order, what stands in each of them, and which id comes next.

All changes of a roster come down to four changes of a population: an entity is added with
the next id, some entities are kept and the others leave, the bodies are altered in place, and
an id is skipped. `Population.Consistent` is preserved by each of them.

The list of members is in the order of the ids, the newest first, so an id names at most one
member (`Consistent.uid_inj`), and an id that was given out is never given out again.

## Main results

* `Population.Consistent.add`, `Consistent.keep`, `Consistent.alter`, `Consistent.skip`;
* `Population.Consistent.uid_inj`.
-/

namespace SlabGraph

/-- What a record holds beside its links. The graph of the record is that of its roster. -/
structure Body (κ δ : Type) where
  /-- The id. -/
  uid : Nat
  /-- What is shown of the incidence. -/
  incidence : κ
  /-- The tags. -/
  area : TagArea
  /-- The payload. -/
  data : δ

/-- The members of a roster. -/
structure Population (κ δ : Type) where
  /-- The slots of the members, the newest first. -/
  members : List Ptr
  /-- What stands in each slot. -/
  body : Ptr → Option (Body κ δ)
  /-- The id that comes next. -/
  next : Nat
  /-- How many members there is room for. -/
  limit : Nat

namespace Population

variable {κ δ : Type} {P : Population κ δ}

/-- The invariant of a population. -/
structure Consistent (P : Population κ δ) : Prop where
  /-- The members are the slots in which something stands. -/
  mem_iff : ∀ p, p ∈ P.members ↔ (P.body p).isSome = true
  /-- The ids of members were given out. -/
  uid_lt : ∀ p b, P.body p = some b → b.uid < P.next
  /-- Members with greater ids stand before members with smaller ones. -/
  newest_first : P.members.Pairwise fun p q =>
    ∀ a b, P.body p = some a → P.body q = some b → b.uid < a.uid

/-- A population without members. -/
def nobody (limit : Nat) : Population κ δ := ⟨[], fun _ => none, 0, limit⟩

/-- Adds a member. -/
def add (P : Population κ δ) (p : Ptr) (b : Body κ δ) : Population κ δ where
  members := p :: P.members
  body := Function.update P.body p (some b)
  next := P.next + 1
  limit := P.limit

/-- Keeps some of the members. -/
def keep (P : Population κ δ) (k : Ptr → Bool) : Population κ δ where
  members := P.members.filter k
  body p := if k p then P.body p else none
  next := P.next
  limit := P.limit

/-- Alters what stands in the slots. -/
def alter (P : Population κ δ) (f : Ptr → Body κ δ → Body κ δ) : Population κ δ where
  members := P.members
  body p := (P.body p).map (f p)
  next := P.next
  limit := P.limit

/-- Alters what stands in one slot. -/
def write (P : Population κ δ) (p : Ptr) (k : Body κ δ → Body κ δ) : Population κ δ :=
  P.alter fun q b => if q = p then k b else b

/-- Gives an id out to nobody. -/
def skip (P : Population κ δ) : Population κ δ := { P with next := P.next + 1 }

/-- What stands in the slot that a handle names, if the id is that of the handle. -/
def find? {kind : EntityKind} (P : Population κ δ) (graph : GraphId) (h : Handle kind) :
    Option (Body κ δ) :=
  if h.graph = graph then (P.body h.slot).filter fun b => b.uid == h.uid else none

/-- A handle finds what stands in its slot, if it has the graph and the id that belong to it. -/
theorem find?_eq_some_iff {kind : EntityKind} {graph : GraphId} {h : Handle kind}
    {b : Body κ δ} :
    P.find? graph h = some b ↔ P.body h.slot = some b ∧ h = ⟨graph, b.uid, h.slot⟩ := by
  obtain ⟨owner, uid, slot⟩ := h
  unfold find?
  by_cases howner : owner = graph
  · simp only [howner, if_true, Option.filter_eq_some_iff, beq_iff_eq, Handle.mk.injEq, true_and,
      and_true]
    exact and_congr_right fun _ => eq_comm
  · simp [howner]

/-- What was added stands in its slot. -/
@[simp] theorem body_add_self (p : Ptr) (b : Body κ δ) : (P.add p b).body p = some b := by
  simp [add]

/-- Adding leaves the other slots alone. -/
theorem body_add_of_ne {p q : Ptr} (b : Body κ δ) (h : q ≠ p) : (P.add p b).body q = P.body q := by
  simp [add, h]

/-- A slot that was taken before something was added elsewhere holds the same. -/
theorem body_add_of_body {p q : Ptr} (b : Body κ δ) {c : Body κ δ} (hp : P.body p = none)
    (hc : P.body q = some c) : (P.add p b).body q = some c := by
  have hne : q ≠ p := by
    rintro rfl
    rw [hp] at hc
    cases hc
  rw [body_add_of_ne b hne, hc]

/-- The slots of those that are kept are as before, and the others are free. -/
theorem body_keep (k : Ptr → Bool) (p : Ptr) :
    (P.keep k).body p = if k p then P.body p else none := rfl

/-- Each slot holds what it held, altered. -/
theorem body_alter (f : Ptr → Body κ δ → Body κ δ) (p : Ptr) :
    (P.alter f).body p = (P.body p).map (f p) := rfl

/-- One slot holds what it held, altered, and the others are as before. -/
theorem body_write (p : Ptr) (k : Body κ δ → Body κ δ) (q : Ptr) :
    (P.write p k).body q = if q = p then (P.body q).map k else P.body q := by
  by_cases hq : q = p
  · simp [write, body_alter, hq]
  · simp [write, body_alter, hq]

/-- Altering what stands in a slot neither takes nor frees a slot. -/
theorem isSome_body_write (p : Ptr) (k : Body κ δ → Body κ δ) (q : Ptr) :
    ((P.write p k).body q).isSome = (P.body q).isSome := by
  rw [write, body_alter, Option.isSome_map]

/-- Writing back what stands in a slot changes nothing. -/
@[simp] theorem write_id (P : Population κ δ) (p : Ptr) : (P.write p fun b => b) = P := by
  simp [write, alter]

/-! ### What handles find after a change -/

section

variable {kind : EntityKind} {graph : GraphId} {h : Handle kind}

/-- No handle finds anything where there are no members. -/
@[simp] theorem find?_nobody (limit : Nat) :
    (nobody limit : Population κ δ).find? graph h = none := by
  unfold find?
  split <;> rfl

/-- Nothing is found in a free slot. -/
theorem find?_of_free (hfree : P.body h.slot = none) : P.find? graph h = none := by
  refine Option.eq_none_iff_forall_ne_some.2 fun b hb => ?_
  rw [(find?_eq_some_iff.1 hb).1] at hfree
  cases hfree

/-- A handle that finds something does not name a free slot. -/
theorem slot_ne_of_find? {p : Ptr} {b : Body κ δ} (hp : P.body p = none)
    (hb : P.find? graph h = some b) : h.slot ≠ p := by
  rintro rfl
  rw [find?_of_free hp] at hb
  cases hb

/-- A new member is found by its own handle only. -/
theorem find?_add {p : Ptr} (b : Body κ δ) (hp : P.body p = none) :
    (P.add p b).find? graph h = if h = ⟨graph, b.uid, p⟩ then some b else P.find? graph h := by
  obtain ⟨owner, uid, slot⟩ := h
  by_cases howner : owner = graph
  · subst howner
    by_cases hslot : slot = p
    · subst hslot
      by_cases huid : uid = b.uid
      · simp [find?, huid]
      · have huid' : ¬ b.uid = uid := fun heq => huid heq.symm
        simp [find?, huid, huid', hp]
    · simp [find?, body_add_of_ne b hslot, hslot]
  · simp [find?, howner]

/-- After something was added, a handle finds something exactly if it is the new handle or found
something before. -/
theorem isSome_find?_add {p : Ptr} (b : Body κ δ) (hp : P.body p = none) :
    ((P.add p b).find? graph h).isSome = true ↔
      h = ⟨graph, b.uid, p⟩ ∨ (P.find? graph h).isSome = true := by
  rw [find?_add b hp]
  by_cases heq : h = ⟨graph, b.uid, p⟩
  · simp [heq]
  · simp [heq]

/-- The handle of what was added finds it. -/
theorem find?_add_self {p : Ptr} (b : Body κ δ) :
    (P.add p b).find? graph (⟨graph, b.uid, p⟩ : Handle kind) = some b :=
  find?_eq_some_iff.2 ⟨body_add_self p b, rfl⟩

/-- Members are found when there is one more. -/
theorem find?_add_of_find? {p : Ptr} (b : Body κ δ) {c : Body κ δ} (hp : P.body p = none)
    (hc : P.find? graph h = some c) : (P.add p b).find? graph h = some c := by
  obtain ⟨hbody, heq⟩ := find?_eq_some_iff.1 hc
  exact find?_eq_some_iff.2 ⟨body_add_of_body b hp hbody, heq⟩

/-- A handle finds what it found before, as long as its slot is kept. -/
theorem find?_keep (k : Ptr → Bool) :
    (P.keep k).find? graph h = if k h.slot then P.find? graph h else none := by
  cases hk : k h.slot <;> simp [find?, body_keep, hk]

/-- A handle finds what it found before, altered, if the ids stay. -/
theorem find?_alter {f : Ptr → Body κ δ → Body κ δ} (hf : ∀ p b, (f p b).uid = b.uid) :
    (P.alter f).find? graph h = (P.find? graph h).map (f h.slot) := by
  unfold find?
  by_cases howner : h.graph = graph
  · rw [if_pos howner, if_pos howner, body_alter]
    cases P.body h.slot with
    | none => rfl
    | some b => by_cases huid : b.uid = h.uid <;> simp [Option.filter, hf, huid]
  · rw [if_neg howner, if_neg howner]
    rfl

/-- The handles of one slot find what they found before, altered, and the others find the same as
before. -/
theorem find?_write {p : Ptr} {k : Body κ δ → Body κ δ} (hk : ∀ b, (k b).uid = b.uid) :
    (P.write p k).find? graph h =
      if h.slot = p then (P.find? graph h).map k else P.find? graph h := by
  rw [write, find?_alter fun q b => by by_cases hq : q = p <;> simp [hq, hk]]
  by_cases hp : h.slot = p
  · simp [hp]
  · simp [hp]

/-- Altering what stands in a slot does not change which handles find something. -/
theorem isSome_find?_write {p : Ptr} {k : Body κ δ → Body κ δ} (hk : ∀ b, (k b).uid = b.uid) :
    ((P.write p k).find? graph h).isSome = (P.find? graph h).isSome := by
  rw [find?_write hk]
  split
  · rw [Option.isSome_map]
  · rfl

/-- The tags of the member that a handle names. -/
def area? (P : Population κ δ) (graph : GraphId) (h : Handle kind) : Option TagArea :=
  (P.find? graph h).map Body.area

/-- Altering what stands in the slots does not change which handles have tags. -/
theorem isSome_area?_alter {f : Ptr → Body κ δ → Body κ δ} (hf : ∀ p b, (f p b).uid = b.uid) :
    ((P.alter f).area? graph h).isSome = (P.area? graph h).isSome := by
  unfold area?
  rw [find?_alter hf, Option.isSome_map, Option.isSome_map, Option.isSome_map]

/-- What was added has the tags it was added with, and the tags of all others are as before. -/
theorem area?_add {p : Ptr} (b : Body κ δ) (hp : P.body p = none) :
    (P.add p b).area? graph h =
      if h = ⟨graph, b.uid, p⟩ then some b.area else P.area? graph h := by
  unfold area?
  rw [find?_add b hp]
  split <;> rfl

/-- What is kept has the same tags, and what is not has none. -/
theorem area?_keep (k : Ptr → Bool) :
    (P.keep k).area? graph h = if k h.slot then P.area? graph h else none := by
  unfold area?
  rw [find?_keep]
  split <;> rfl

/-- Altering anything but ids and tags leaves all tags alone. -/
theorem area?_write {p : Ptr} {k : Body κ δ → Body κ δ} (hk : ∀ b, (k b).uid = b.uid)
    (harea : ∀ b, (k b).area = b.area) : (P.write p k).area? graph h = P.area? graph h := by
  unfold area?
  rw [find?_write hk]
  split
  · rw [Option.map_map]
    congr 1
    funext b
    exact harea b
  · rfl

/-- Altering the tags of all members alters the tags that each handle has. -/
theorem area?_mapAreas (f : TagArea → TagArea) :
    (P.alter fun _ b => { b with area := f b.area }).area? graph h = (P.area? graph h).map f := by
  unfold area?
  rw [find?_alter, Option.map_map, Option.map_map]
  · rfl
  · exact fun _ _ => rfl

/-- The tags of a member that were replaced. -/
theorem area?_write_self (area : TagArea) (hsome : (P.area? graph h).isSome = true) :
    (P.write h.slot fun b => { b with area }).area? graph h = some area := by
  unfold area? at hsome ⊢
  rw [Option.isSome_map] at hsome
  obtain ⟨b, hb⟩ := Option.isSome_iff_exists.1 hsome
  rw [find?_write, if_pos rfl, hb]
  · rfl
  · exact fun _ => rfl

/-- Handles that find something in one slot are equal. -/
theorem eq_of_find? {h' : Handle kind} {b b' : Body κ δ} (hb : P.find? graph h = some b)
    (hb' : P.find? graph h' = some b') (hslot : h.slot = h'.slot) : h = h' := by
  obtain ⟨hbody, heq⟩ := find?_eq_some_iff.1 hb
  obtain ⟨hbody', heq'⟩ := find?_eq_some_iff.1 hb'
  rw [hslot] at hbody
  obtain rfl : b = b' := Option.some.inj (hbody.symm.trans hbody')
  rw [heq, heq', hslot]

/-- Replacing the tags of a member leaves the tags of all others alone. -/
theorem area?_write_of_ne {h' : Handle kind} (area : TagArea)
    (hsome : (P.area? graph h).isSome = true) (hne : h' ≠ h) :
    (P.write h.slot fun b => { b with area }).area? graph h' = P.area? graph h' := by
  unfold area? at hsome ⊢
  rw [Option.isSome_map] at hsome
  obtain ⟨b, hb⟩ := Option.isSome_iff_exists.1 hsome
  rw [find?_write]
  · by_cases hslot : h'.slot = h.slot
    · rw [if_pos hslot]
      cases hfind : P.find? graph h' with
      | none => rfl
      | some c => exact absurd (eq_of_find? hfind hb hslot) hne
    · rw [if_neg hslot]
  · exact fun _ => rfl

end

/-- Keeping some and then some of those is keeping the common ones. -/
theorem keep_keep (k l : Ptr → Bool) : (P.keep k).keep l = P.keep fun p => k p && l p := by
  unfold keep
  congr 1
  · simp [List.filter_filter, Bool.and_comm]
  · funext p
    cases hk : k p <;> cases hl : l p <;> simp [hk, hl]

namespace Consistent

/-- A population without members is consistent. -/
theorem nobody (limit : Nat) : (Population.nobody limit : Population κ δ).Consistent :=
  ⟨by simp [Population.nobody], by simp [Population.nobody], List.Pairwise.nil⟩

/-- No slot is a member twice. -/
theorem nodup (h : P.Consistent) : P.members.Nodup := by
  refine h.newest_first.imp_of_mem fun {p q} hp _ huid heq => ?_
  obtain ⟨a, ha⟩ := Option.isSome_iff_exists.1 ((h.mem_iff p).1 hp)
  exact Nat.lt_irrefl _ (huid a a ha (heq ▸ ha))

/-- A slot in which something stands is a member. -/
theorem mem_of_body (h : P.Consistent) {p : Ptr} {b : Body κ δ} (hb : P.body p = some b) :
    p ∈ P.members :=
  (h.mem_iff p).2 (by simp [hb])

/-- An id names one member. -/
theorem uid_inj (h : P.Consistent) {p q : Ptr} {a b : Body κ δ} (ha : P.body p = some a)
    (hb : P.body q = some b) (huid : a.uid = b.uid) : p = q := by
  have hdiff : P.members.Pairwise fun p q =>
      ∀ a b, P.body p = some a → P.body q = some b → a.uid ≠ b.uid :=
    h.newest_first.imp fun hlt a b ha hb => Nat.ne_of_gt (hlt a b ha hb)
  by_contra hne
  have hsymm : Std.Symm fun p q => ∀ a b, P.body p = some a → P.body q = some b → a.uid ≠ b.uid :=
    ⟨fun p q hpq a b ha hb => (hpq b a hb ha).symm⟩
  exact hdiff.forall (h.mem_of_body ha) (h.mem_of_body hb) hne a b ha hb huid

/-- No more members are there than ids were given out. -/
theorem length_le_next (h : P.Consistent) : P.members.length ≤ P.next := by
  let uid (p : Ptr) : Nat := (P.body p).elim 0 Body.uid
  have hnodup : (P.members.map uid).Nodup := by
    refine List.pairwise_map.2 (h.newest_first.imp_of_mem fun {p q} hp hq hlt => ?_)
    obtain ⟨a, ha⟩ := Option.isSome_iff_exists.1 ((h.mem_iff p).1 hp)
    obtain ⟨b, hb⟩ := Option.isSome_iff_exists.1 ((h.mem_iff q).1 hq)
    simpa [uid, ha, hb] using Nat.ne_of_gt (hlt a b ha hb)
  have hsub : P.members.map uid ⊆ List.range P.next := by
    intro i hi
    obtain ⟨p, hp, rfl⟩ := List.mem_map.1 hi
    obtain ⟨b, hb⟩ := Option.isSome_iff_exists.1 ((h.mem_iff p).1 hp)
    simpa [uid, hb] using h.uid_lt p b hb
  have hle := (List.subperm_of_subset hnodup hsub).length_le
  rwa [List.length_map, List.length_range] at hle

/-- A population stays consistent when a member with the next id is added in a free slot. -/
theorem add (h : P.Consistent) {p : Ptr} {b : Body κ δ} (hp : P.body p = none)
    (hb : b.uid = P.next) : (P.add p b).Consistent where
  mem_iff q := by
    by_cases hq : q = p
    · subst hq
      simp [Population.add]
    · rw [body_add_of_ne b hq, ← h.mem_iff q]
      simp [Population.add, hq]
  uid_lt q c hc := by
    change c.uid < P.next + 1
    by_cases hq : q = p
    · subst hq
      rw [body_add_self, Option.some.injEq] at hc
      rw [← hc, hb]
      exact Nat.lt_succ_self _
    · rw [body_add_of_ne b hq] at hc
      exact Nat.lt_succ_of_lt (h.uid_lt q c hc)
  newest_first := by
    -- the slot was free, so no old member is in it
    have hother : ∀ q ∈ P.members, (P.add p b).body q = P.body q := fun q hq => by
      have hsome := (h.mem_iff q).1 hq
      refine body_add_of_ne b fun heq => ?_
      rw [heq, hp] at hsome
      exact Bool.false_ne_true hsome
    refine List.pairwise_cons.2 ⟨fun q hq a c ha hc => ?_, ?_⟩
    · rw [body_add_self, Option.some.injEq] at ha
      rw [hother q hq] at hc
      rw [← ha, hb]
      exact h.uid_lt q c hc
    · refine h.newest_first.imp_of_mem fun {q r} hq hr huid a c ha hc => ?_
      rw [hother q hq] at ha
      rw [hother r hr] at hc
      exact huid a c ha hc

/-- A population stays consistent when only some members are kept. -/
theorem keep (h : P.Consistent) (k : Ptr → Bool) : (P.keep k).Consistent where
  mem_iff p := by
    rw [body_keep, Population.keep, List.mem_filter, h.mem_iff p]
    cases k p <;> simp
  uid_lt p b hb := by
    rw [body_keep] at hb
    cases hk : k p with
    | true => exact h.uid_lt p b (by simpa [hk] using hb)
    | false => simp [hk] at hb
  newest_first := by
    refine (h.newest_first.filter k).imp_of_mem fun {p q} hp hq huid a b ha hb => ?_
    rw [body_keep, if_pos (List.mem_filter.1 hp).2] at ha
    rw [body_keep, if_pos (List.mem_filter.1 hq).2] at hb
    exact huid a b ha hb

/-- A population stays consistent when what stands in the slots is altered, but for ids. -/
theorem alter (h : P.Consistent) {f : Ptr → Body κ δ → Body κ δ}
    (hf : ∀ p b, (f p b).uid = b.uid) : (P.alter f).Consistent where
  mem_iff p := by
    rw [body_alter, Option.isSome_map]
    exact h.mem_iff p
  uid_lt p c hc := by
    obtain ⟨b, hb, rfl⟩ := Option.map_eq_some_iff.1 hc
    rw [hf]
    exact h.uid_lt p b hb
  newest_first := by
    refine h.newest_first.imp fun {p q} huid a c ha hc => ?_
    obtain ⟨a', ha', rfl⟩ := Option.map_eq_some_iff.1 ha
    obtain ⟨c', hc', rfl⟩ := Option.map_eq_some_iff.1 hc
    rw [hf, hf]
    exact huid a' c' ha' hc'

/-- A population stays consistent when what stands in one slot is altered, but for its id. -/
theorem write (h : P.Consistent) (p : Ptr) {k : Body κ δ → Body κ δ}
    (hk : ∀ b, (k b).uid = b.uid) : (P.write p k).Consistent := by
  refine h.alter fun q b => ?_
  by_cases hq : q = p
  · rw [if_pos hq, hk]
  · rw [if_neg hq]

/-- A population stays consistent when an id is used up. -/
theorem skip (h : P.Consistent) : P.skip.Consistent :=
  ⟨h.mem_iff, fun p b hb => Nat.lt_succ_of_lt (h.uid_lt p b hb), h.newest_first⟩

/-- A member is taken out of the list by a filter, since no member stands there twice. -/
theorem erase_eq_filter (h : P.Consistent) (p : Ptr) :
    P.members.erase p = P.members.filter (· != p) :=
  h.nodup.erase_eq_filter p

end Consistent

end Population

end SlabGraph
