import SlabGraph.Proofs.Tag.Reuse

/-!
# Copies of Hosts

A ledger is told from others by the number it drew when it was made, and a copy of a host keeps
the number of its original. So hosts with ledgers that were made apart have nothing to do with
each other: a tag of one is dead on the other, for as long as there are numbers left to draw.
A host and its copies, on the other hand, are one as far as their tags go. Each of them goes on
where the original stood, and when two of them grant at the same index, they grant equal tags.

`TagHost.Family` are the hosts that come about when hosts are made, copied and used in any order.
The *root* of a host is the draw that its ledger got its number from, and its log is the line of
what happened to its tags, from the making of the original on.

## Main definitions

* `TagHost.Use`, one use of a host; `TagHost.Member`, `TagHost.Family`;
* `TagHost.Apart`, which says how far the hosts of a family are told apart.

## Main results

* `TagHost.Family.told_apart`: all families;
* `TagHost.live_in_copy`: a marker that was granted after the copying and is in use in the copy.
-/

namespace SlabGraph

/-! ### The number of a ledger -/

namespace TagLedger

variable {kind : TagKind} {ledger ledger' : TagLedger kind} {tag : Tag kind}

/-- A grant does not change the number of a ledger. -/
theorem owner_grant {i : Fin kind.capacity} (h : ledger.grant i = .ok (tag, ledger')) :
    ledger'.owner = ledger.owner := by
  unfold grant at h
  split_ifs at h
  cases h
  rfl

/-- A release does not change the number of a ledger. -/
theorem owner_release (h : ledger.release tag = .ok ledger') : ledger'.owner = ledger.owner := by
  unfold release at h
  split_ifs at h
  cases h
  rfl

end TagLedger

namespace TagHost

open TagLog

variable {H : Type} {kind : TagKind} [TagHost H kind]

/-! ### Families -/

/-- One use of a host, with the log before and after. -/
inductive Use (kind : TagKind) [TagHost H kind] (host : H) (log : TagLog kind) :
    H → TagLog kind → Prop
  | grant {host' : H} {tag : Tag kind} : TagHost.grant kind host = .ok tag host' →
      Use kind host log host' (.granted tag (sweepsNext kind host) :: log)
  | grantRefused {host' : H} {e : Fault} : TagHost.grant kind host = .error e host' →
      Use kind host log host' log
  | release {host' : H} {tag : Tag kind} : TagHost.release tag host = .ok () host' →
      Use kind host log host' (.released tag :: log)
  | releaseRefused {host' : H} {tag : Tag kind} {e : Fault} :
      TagHost.release tag host = .error e host' → Use kind host log host' log
  /-- Whatever else a host does leaves its ledger alone. -/
  | other {host' : H} : (ledger host' : TagLedger kind) = ledger host → Use kind host log host' log

/-- A host among others. -/
structure Member (H : Type) (kind : TagKind) where
  /-- The host. -/
  host : H
  /-- How many numbers had been drawn when its ledger drew one. -/
  root : Nat
  /-- What happened to its tags, and before to those of the hosts it was copied from. -/
  log : TagLog kind

/-- The hosts that come about when hosts are made, copied and used, with how many numbers of
ledgers have been drawn. -/
inductive Family (kind : TagKind) [TagHost H kind] :
    IdSupply → Nat → List (Member H kind) → Prop
  | none (supply : IdSupply) : Family kind supply 0 []
  /-- A number is drawn for a ledger of another kind. -/
  | draw {supply supply' : IdSupply} {drawn : Nat} {members : List (Member H kind)}
      {owner : UInt32} : Family kind supply drawn members →
      IdSupply.drawOwner supply = .ok owner supply' → Family kind supply' (drawn + 1) members
  | drawGraph {supply supply' : IdSupply} {drawn : Nat} {members : List (Member H kind)}
      {id : GraphId} : Family kind supply drawn members →
      IdSupply.drawGraph supply = .ok id supply' → Family kind supply' drawn members
  /-- A host is made with a new ledger. -/
  | make {supply supply' : IdSupply} {drawn : Nat} {members : List (Member H kind)} {host : H} :
      Family kind supply drawn members →
      (TagLedger.new : Action IdSupply (TagLedger kind)) supply = .ok (ledger host) supply' →
      Family kind supply' (drawn + 1) (⟨host, drawn, []⟩ :: members)
  /-- A host is made with a copy of a ledger. -/
  | copy {supply : IdSupply} {drawn : Nat} {members : List (Member H kind)} {m : Member H kind}
      {host : H} : Family kind supply drawn members → m ∈ members →
      (ledger host : TagLedger kind) = ledger m.host →
      Family kind supply drawn (⟨host, m.root, m.log⟩ :: members)
  | use {supply : IdSupply} {drawn : Nat} {before after : List (Member H kind)}
      {m : Member H kind} {host : H} {log : TagLog kind} :
      Family kind supply drawn (before ++ m :: after) → Use kind m.host m.log host log →
      Family kind supply drawn (before ++ ⟨host, m.root, log⟩ :: after)
  /-- A host is given up. -/
  | drop {supply : IdSupply} {drawn : Nat} {before after : List (Member H kind)}
      {m : Member H kind} : Family kind supply drawn (before ++ m :: after) →
      Family kind supply drawn (before ++ after)

/-- How far the hosts of a family are told apart. -/
structure Apart (members : List (Member H kind)) : Prop where
  /-- On each host those tags are in use that were granted in its own line and not taken back in
  it since. For a copy these are the tags the original had in use at the copying, and those
  granted by the copy itself. -/
  isLive_iff : ∀ m ∈ members, ∀ tag,
    (ledger m.host : TagLedger kind).isLive tag = true ↔ Held tag m.log
  /-- All other tags are dead on it. -/
  dead_of_not_held : ∀ m ∈ members, ∀ tag, ¬ Held tag m.log → Dead m.host tag
  /-- A tag is dead on all hosts that do not have the root of the host that granted it. -/
  dead_of_root_ne : ∀ m ∈ members, ∀ m' ∈ members, m.root ≠ m'.root →
    ∀ tag swept, .granted tag swept ∈ m.log → Dead m'.host tag

/-! ### One use -/

/-- The use of a host continues its run. -/
theorem Run.use {host host' : H} {log log' : TagLog kind} (h : Run kind host log)
    (huse : Use kind host log host' log') : Run kind host' log' := by
  cases huse with
  | grant hrun => exact h.grant hrun
  | grantRefused hrun => exact h.grantRefused hrun
  | release hrun => exact h.release hrun
  | releaseRefused hrun => exact h.releaseRefused hrun
  | other hledger => exact h.other hledger

/-- A member of a family in which so many numbers have been drawn, from a first one on. -/
structure Traced (first : UInt32) (drawn : Nat) (m : Member H kind) : Prop where
  run : Run kind m.host m.log
  root_lt : m.root < drawn
  owner : (ledger m.host : TagLedger kind).owner = first + .ofNat m.root
  granted : ∀ tag swept, .granted tag swept ∈ m.log → tag.owner = first + .ofNat m.root

namespace Traced

variable {first : UInt32} {drawn : Nat} {m : Member H kind} {host : H}

/-- A member stays traced when another number is drawn. -/
theorem succ (h : Traced first drawn m) : Traced first (drawn + 1) m :=
  ⟨h.run, Nat.lt_succ_of_lt h.root_lt, h.owner, h.granted⟩

/-- A host with a new ledger is traced back to itself. -/
theorem new (hledger : (ledger host : TagLedger kind) = .ofOwner (first + .ofNat drawn)) :
    Traced first (drawn + 1) (⟨host, drawn, []⟩ : Member H kind) where
  run := .new _ hledger
  root_lt := Nat.lt_succ_self drawn
  owner := by rw [hledger]; rfl
  granted _ _ hmem := by cases hmem

/-- A copy is traced back to where its original is. -/
theorem copy (h : Traced first drawn m)
    (hledger : (ledger host : TagLedger kind) = ledger m.host) :
    Traced first drawn ⟨host, m.root, m.log⟩ :=
  ⟨h.run.other hledger, h.root_lt, by rw [hledger, h.owner], h.granted⟩

end Traced

variable [LawfulTagHost H kind]

/-- Making room does not change the number of the ledger. -/
theorem owner_makeRoom (i : Fin kind.capacity) (host : H) :
    (ledger (makeRoom kind i host) : TagLedger kind).owner =
      (ledger host : TagLedger kind).owner := by
  rw [ledger_makeRoom]
  split <;> rfl

/-- A host keeps the number of its ledger over a grant. -/
theorem owner_of_grant {host host' : H} {tag : Tag kind} (h : grant kind host = .ok tag host') :
    (ledger host' : TagLedger kind).owner = (ledger host : TagLedger kind).owner := by
  rw [grant_eq] at h
  cases hfree : (ledger host : TagLedger kind).freeIndex with
  | none =>
      rw [hfree] at h
      cases h
  | some i =>
      simp only [hfree] at h
      cases hgrant : (ledger (makeRoom kind i host) : TagLedger kind).grant i with
      | error e =>
          rw [hgrant] at h
          cases h
      | ok answer =>
          rw [hgrant] at h
          cases h
          rw [LawfulTagHost.ledger_setLedger, TagLedger.owner_grant hgrant, owner_makeRoom]

/-- A host keeps the number of its ledger over a release. -/
theorem owner_of_release {host host' : H} {tag : Tag kind}
    (h : release tag host = .ok () host') :
    (ledger host' : TagLedger kind).owner = (ledger host : TagLedger kind).owner := by
  rw [release_eq] at h
  cases hrelease : (ledger host : TagLedger kind).release tag with
  | error e =>
      rw [hrelease] at h
      cases h
  | ok released =>
      rw [hrelease] at h
      cases h
      rw [LawfulTagHost.ledger_setLedger, TagLedger.owner_release hrelease]

/-- A host keeps its number. -/
theorem Use.owner {host host' : H} {log log' : TagLog kind}
    (h : Use kind host log host' log') (hsound : (ledger host : TagLedger kind).Sound) :
    (ledger host' : TagLedger kind).owner = (ledger host : TagLedger kind).owner := by
  cases h with
  | grant hrun => exact owner_of_grant hrun
  | grantRefused hrun =>
      obtain ⟨rfl, -⟩ := of_grant_error hsound hrun
      rfl
  | release hrun => exact owner_of_release hrun
  | releaseRefused hrun =>
      obtain ⟨rfl, -⟩ := of_release_error hrun
      rfl
  | other hledger => rw [hledger]

/-- The tags granted by a use carry the number of the host. -/
theorem Use.granted_owner {host host' : H} {log log' : TagLog kind}
    (h : Use kind host log host' log') (hsound : (ledger host : TagLedger kind).Sound)
    {tag : Tag kind} {swept : Bool} (htag : .granted tag swept ∈ log') :
    .granted tag swept ∈ log ∨ tag.owner = (ledger host : TagLedger kind).owner := by
  cases h with
  | grant hrun =>
      rcases List.mem_cons.1 htag with heq | hmem
      · obtain ⟨rfl, -⟩ := TagEvent.granted.inj heq
        have hkept := owner_of_grant hrun
        obtain ⟨-, granted, hhost, -, -, -, hlive⟩ := of_grant hsound hrun
        have howner := (TagLedger.isLive_iff.1 ((hlive tag).2 (.inl rfl))).1
        rw [hhost, LawfulTagHost.ledger_setLedger] at hkept
        exact .inr (howner.trans hkept)
      · exact .inl hmem
  | grantRefused _ => exact .inl htag
  | release _ =>
      rcases List.mem_cons.1 htag with heq | hmem
      · cases heq
      · exact .inl hmem
  | releaseRefused _ => exact .inl htag
  | other _ => exact .inl htag

/-! ### Runs -/

/-- A member stays traced when its host is used. -/
theorem Traced.use {first : UInt32} {drawn : Nat} {m : Member H kind} {host : H}
    {log : TagLog kind} (h : Traced first drawn m) (huse : Use kind m.host m.log host log) :
    Traced first drawn ⟨host, m.root, log⟩ := by
  have hsound := h.run.follows.sound
  refine ⟨h.run.use huse, h.root_lt, (huse.owner hsound).trans h.owner, ?_⟩
  intro tag swept hmem
  rcases huse.granted_owner hsound hmem with hold | hnew
  · exact h.granted tag swept hold
  · exact hnew.trans h.owner

/-- The numbers are drawn one after another. -/
theorem Family.traced {supply : IdSupply} {drawn : Nat} {members : List (Member H kind)}
    (h : Family kind supply drawn members) :
    ∃ first : UInt32, supply.owner = first + .ofNat drawn ∧
      ∀ m ∈ members, Traced first drawn m := by
  induction h with
  | none supply => exact ⟨supply.owner, by simp, fun m hm => by cases hm⟩
  | @draw supply _ drawn _ _ _ hdraw ih =>
      obtain ⟨first, hnext, hmembers⟩ := ih
      cases hdraw
      refine ⟨first, ?_, fun m hm => (hmembers m hm).succ⟩
      simp only [hnext, UInt32.ofNat_add, UInt32.add_assoc]
      rfl
  | drawGraph _ hdraw ih =>
      obtain ⟨first, hnext, hmembers⟩ := ih
      cases hdraw
      exact ⟨first, hnext, hmembers⟩
  | @make supply _ drawn _ host _ hmake ih =>
      obtain ⟨first, hnext, hmembers⟩ := ih
      have hdraw : (TagLedger.new : Action IdSupply (TagLedger kind)) supply =
          .ok (.ofOwner supply.owner) { supply with owner := supply.owner + 1 } := rfl
      rw [hdraw] at hmake
      obtain ⟨hledger, rfl⟩ := EStateM.Result.ok.inj hmake
      refine ⟨first, ?_, fun x hx => ?_⟩
      · simp only [hnext, UInt32.ofNat_add, UInt32.add_assoc]
        rfl
      · rcases List.mem_cons.1 hx with rfl | hx
        · exact .new (by rw [← hledger, hnext])
        · exact (hmembers x hx).succ
  | copy _ hm hledger ih =>
      obtain ⟨first, hnext, hmembers⟩ := ih
      refine ⟨first, hnext, fun x hx => ?_⟩
      rcases List.mem_cons.1 hx with rfl | hx
      · exact (hmembers _ hm).copy hledger
      · exact hmembers x hx
  | @use _ _ before after m host log _ huse ih =>
      obtain ⟨first, hnext, hmembers⟩ := ih
      refine ⟨first, hnext, fun x hx => ?_⟩
      rcases List.mem_append.1 hx with hx | hx
      · exact hmembers x (List.mem_append_left _ hx)
      · rcases List.mem_cons.1 hx with rfl | hx
        · exact (hmembers m (List.mem_append_right _ List.mem_cons_self)).use huse
        · exact hmembers x (List.mem_append_right _ (List.mem_cons_of_mem _ hx))
  | @drop _ _ before after m _ ih =>
      obtain ⟨first, hnext, hmembers⟩ := ih
      refine ⟨first, hnext, fun x hx => hmembers x ?_⟩
      rcases List.mem_append.1 hx with hx | hx
      · exact List.mem_append_left _ hx
      · exact List.mem_append_right _ (List.mem_cons_of_mem _ hx)

/-- Hosts are told apart by their roots, as long as the numbers of ledgers last. -/
theorem Family.told_apart {supply : IdSupply} {drawn : Nat} {members : List (Member H kind)}
    (h : Family kind supply drawn members) (hdrawn : drawn ≤ UInt32.size) : Apart members := by
  obtain ⟨first, -, hmembers⟩ := h.traced
  have hlive : ∀ m ∈ members, ∀ tag,
      (ledger m.host : TagLedger kind).isLive tag = true ↔ Held tag m.log :=
    fun m hm => (hmembers m hm).run.follows.isLive_iff
  refine ⟨hlive, ?_, ?_⟩
  · intro m hm tag hnot
    rw [← hlive m hm, Bool.not_eq_true] at hnot
    exact dead_of_not_live hnot
  · intro m hm m' hm' hroot tag swept hmem
    refine dead_of_not_live ?_
    rw [← Bool.not_eq_true, TagLedger.isLive_iff]
    rintro ⟨howner, -⟩
    have hlt := (hmembers m hm).root_lt
    have hlt' := (hmembers m' hm').root_lt
    rw [(hmembers m hm).granted tag swept hmem, (hmembers m' hm').owner] at howner
    have heq := congrArg UInt32.toNat ((UInt32.add_right_inj first).1 howner)
    rw [UInt32.toNat_ofNat_of_lt' (by omega), UInt32.toNat_ofNat_of_lt' (by omega)] at heq
    exact hroot heq

/-! ### A copy that grants -/

namespace Member

/-- A host on which no marker was granted. -/
def original : Member ObjectHost .marker := ⟨.idle 0, 0, []⟩

/-- The same host after its first grant. -/
def granting : Member ObjectHost .marker := ⟨.busy 1, 0, [.granted (ObjectHost.lowest 1) false]⟩

/-- A host made apart from the first one. -/
def stranger : Member ObjectHost .marker := ⟨⟨.ofOwner 2, .ofOwner 3, #[]⟩, 2, []⟩

end Member

open Member

/-- A host and a copy of it, and one that was made apart. -/
theorem family_copied : Family .marker ⟨0, 4⟩ 4 [original, stranger, original] := by
  have hmade : Family .marker ⟨0, 1⟩ 1 [original] := .make (.none ⟨0, 0⟩) rfl
  have hnums : Family .marker ⟨0, 2⟩ 2 [original] := hmade.draw rfl
  have hstranger : Family .marker ⟨0, 3⟩ 3 [stranger, original] := hnums.make rfl
  have hall : Family .marker ⟨0, 4⟩ 4 [stranger, original] := hstranger.draw rfl
  exact hall.copy (m := original) (List.mem_cons_of_mem _ List.mem_cons_self) rfl

/-- The first grant on the original. -/
theorem use_original : Use .marker original.host original.log granting.host granting.log := by
  have hgrant : TagHost.grant .marker original.host = .ok (ObjectHost.lowest 1) granting.host :=
    ObjectHost.grant_idle (by decide)
  have huse : Use .marker original.host original.log granting.host _ := .grant hgrant
  have hswept : sweepsNext .marker original.host = false := ObjectHost.sweepsNext_idle (by decide)
  rwa [hswept] at huse

/-- The copy after a grant on it, with the original as it was. -/
theorem family_granting : Family .marker ⟨0, 4⟩ 4 [granting, stranger, original] := by
  have hall : Family .marker ⟨0, 4⟩ 4 ([] ++ original :: [stranger, original]) := family_copied
  exact hall.use use_original

/-- What a host grants is dead on a host that was made apart. -/
theorem apart_stranger :
    Family .marker ⟨0, 4⟩ 4 [granting, stranger, original] ∧ 4 ≤ UInt32.size ∧
    Dead stranger.host (ObjectHost.lowest 1) :=
  ⟨family_granting, by decide, (Family.told_apart family_granting (by decide)).dead_of_root_ne
    granting (by simp) stranger (by simp) (by decide) _ false (by simp [granting])⟩

/-- The original and its copy after a grant on each. -/
theorem family_both_granting : Family .marker ⟨0, 4⟩ 4 [granting, stranger, granting] := by
  have hall : Family .marker ⟨0, 4⟩ 4 ([granting, stranger] ++ original :: []) := family_granting
  exact hall.use use_original

/-- A tag need not be dead on a copy of its host. A host is copied, then both grant their first
marker. The marker of the one is in use in the other, and can be taken back there. -/
theorem live_in_copy :
    Family .marker ⟨0, 4⟩ 4 [original, stranger, original] ∧
    TagHost.grant .marker original.host = .ok (ObjectHost.lowest 1) granting.host ∧
    Family .marker ⟨0, 4⟩ 4 [granting, stranger, granting] ∧
    (ledger granting.host : TagLedger .marker).isLive (ObjectHost.lowest 1) = true ∧
    TagHost.release (ObjectHost.lowest 1) granting.host = .ok () (ObjectHost.idle 1) :=
  ⟨family_copied, ObjectHost.grant_idle (by decide),
    family_both_granting, by decide, ObjectHost.release_busy 1⟩

end TagHost

end SlabGraph
