import SlabGraph.Proofs.Tag.Host

/-!
# Runs of Grants and Releases

What may be said about the tags of a host after many grants and releases is said in terms of a log
of what happened to them. The log decides which tags are in use: those that were granted and not
taken back since (`TagLog.Held`). A tag that was taken back is *spent* until the host sweeps for a
grant (`TagLog.Spent`), and a spent tag is not granted again: from one sweep to the next the values
of an index only grow. The host need not sweep before it has granted as many tags as an index has
values.

## Main definitions

* `TagEvent`, `TagLog`, `TagLog.Held`, `TagLog.Spent`, `TagLog.grants`;
* `TagHost.Run`: the hosts that come about from one with a new ledger, with their logs;
* `TagLedger.Follows`: what the log says about a ledger.

## Main results

* `TagHost.follows_grant`, `TagHost.follows_release`: one step;
* `TagHost.Run.follows`: all runs.
-/

namespace SlabGraph

/-- What happens to the tags of a host. -/
inductive TagEvent (kind : TagKind) where
  /-- A tag was granted. The host had to sweep for it or not. -/
  | granted (tag : Tag kind) (swept : Bool)
  /-- A tag was taken back. -/
  | released (tag : Tag kind)
deriving DecidableEq

/-- What happened to the tags of a host, the newest event first. -/
abbrev TagLog (kind : TagKind) := List (TagEvent kind)

namespace TagLog

variable {kind : TagKind}

/-- A tag was granted and has not been taken back since. -/
def Held (tag : Tag kind) (log : TagLog kind) : Prop :=
  ∃ later swept earlier, log = later ++ .granted tag swept :: earlier ∧ .released tag ∉ later

/-- A tag was taken back, and there has been no sweep since. -/
def Spent (tag : Tag kind) (log : TagLog kind) : Prop :=
  ∃ later earlier, log = later ++ .released tag :: earlier ∧ ∀ other, .granted other true ∉ later

/-- How many tags were granted. -/
def grants (log : TagLog kind) : Nat :=
  log.countP fun
    | .granted .. => true
    | .released _ => false

section

variable {tag other : Tag kind} {swept : Bool} {log : TagLog kind}

/-- No tag is held before anything has happened. -/
theorem not_held_nil : ¬ Held tag [] := by
  rintro ⟨later, swept, earlier, hlog, -⟩
  simp at hlog

/-- After a grant, the granted tag is held, and those held before. -/
theorem held_granted : Held tag (.granted other swept :: log) ↔ tag = other ∨ Held tag log := by
  constructor
  · rintro ⟨_ | ⟨event, later⟩, swept', earlier, hlog, hlater⟩
    · cases hlog
      exact .inl rfl
    · cases hlog
      exact .inr ⟨later, swept', earlier, rfl, fun hmem => hlater (List.mem_cons_of_mem _ hmem)⟩
  · rintro (rfl | ⟨later, swept', earlier, rfl, hlater⟩)
    · exact ⟨[], swept, log, rfl, List.not_mem_nil⟩
    · exact ⟨.granted other swept :: later, swept', earlier, rfl, by simp [hlater]⟩

/-- After a release, the released tag is no longer held, and the others are as before. -/
theorem held_released : Held tag (.released other :: log) ↔ tag ≠ other ∧ Held tag log := by
  constructor
  · rintro ⟨_ | ⟨event, later⟩, swept', earlier, hlog, hlater⟩
    · cases hlog
    · cases hlog
      rw [List.mem_cons, not_or] at hlater
      exact ⟨fun heq => hlater.1 (by rw [heq]), later, swept', earlier, rfl, hlater.2⟩
  · rintro ⟨hne, later, swept', earlier, rfl, hlater⟩
    exact ⟨.released other :: later, swept', earlier, rfl, by simp [hlater, hne]⟩

/-- No tag is spent before anything has happened. -/
theorem not_spent_nil : ¬ Spent tag [] := by
  rintro ⟨later, earlier, hlog, -⟩
  simp at hlog

/-- A grant leaves the spent tags as they are, unless the host sweeps for it. Then none is. -/
theorem spent_granted :
    Spent tag (.granted other swept :: log) ↔ swept = false ∧ Spent tag log := by
  constructor
  · rintro ⟨_ | ⟨event, later⟩, earlier, hlog, hlater⟩
    · cases hlog
    · cases hlog
      refine ⟨?_, later, earlier, rfl, fun t hmem => hlater t (List.mem_cons_of_mem _ hmem)⟩
      cases swept with
      | false => rfl
      | true => exact absurd List.mem_cons_self (hlater other)
  · rintro ⟨rfl, later, earlier, rfl, hlater⟩
    exact ⟨.granted other false :: later, earlier, rfl, by simpa using hlater⟩

/-- After a release, the released tag is spent, and those spent before. -/
theorem spent_released : Spent tag (.released other :: log) ↔ tag = other ∨ Spent tag log := by
  constructor
  · rintro ⟨_ | ⟨event, later⟩, earlier, hlog, hlater⟩
    · cases hlog
      exact .inl rfl
    · cases hlog
      exact .inr ⟨later, earlier, rfl, fun t hmem => hlater t (List.mem_cons_of_mem _ hmem)⟩
  · rintro (rfl | ⟨later, earlier, rfl, hlater⟩)
    · exact ⟨[], log, rfl, fun t => List.not_mem_nil⟩
    · exact ⟨.released other :: later, earlier, rfl, by simpa using hlater⟩

/-- A spent tag was released at some time. -/
theorem Spent.released_mem (h : Spent tag log) : .released tag ∈ log := by
  obtain ⟨later, earlier, rfl, -⟩ := h
  simp

/-- A grant is counted. -/
theorem grants_granted : grants (.granted other swept :: log) = grants log + 1 :=
  List.countP_cons_of_pos rfl

/-- A release is not counted as a grant. -/
theorem grants_released : grants (.released other :: log) = grants log :=
  List.countP_cons_of_neg (by simp)

end

end TagLog

/-! ### What the log says about the ledger -/

namespace TagLedger

open TagLog

variable {kind : TagKind} {ledger : TagLedger kind} {log : TagLog kind}

/-- A ledger is as a log says. -/
structure Follows (ledger : TagLedger kind) (log : TagLog kind) : Prop where
  /-- The values of the ledger are within their bounds. -/
  sound : ledger.Sound
  /-- The tags in use. -/
  isLive_iff : ∀ tag, ledger.isLive tag = true ↔ Held tag log
  /-- No index has got further than there were grants. -/
  last_le : ∀ i : Fin kind.capacity, getElem ledger.last i i.isLt ≤ grants log
  /-- The values of spent tags are past. -/
  value_le : ∀ tag, Spent tag log → tag.value ≤ getElem ledger.last tag.index tag.index.isLt
  /-- Spent tags are not in use. -/
  not_held : ∀ tag, Spent tag log → ¬ Held tag log
  /-- All values of an index have been granted before a sweep. -/
  sweep_late : ∀ tag later earlier, log = later ++ .granted tag true :: earlier →
    Tag.lastValue ≤ grants earlier

/-- A new ledger is as the empty log says. -/
theorem follows_ofOwner (owner : UInt32) : (ofOwner owner : TagLedger kind).Follows [] where
  sound := sound_ofOwner owner
  isLive_iff tag := by simp [isLive_ofOwner, not_held_nil]
  last_le i := by simp [ofOwner, Tag.clean]
  value_le _ hspent := absurd hspent not_spent_nil
  not_held _ hspent := absurd hspent not_spent_nil
  sweep_late _ _ _ hlog := by simp at hlog

end TagLedger

namespace TagHost

open TagLog TagLedger

variable {H : Type} {kind : TagKind} [TagHost H kind]

/-- Whether a host sweeps before the next grant. -/
def sweepsNext (kind : TagKind) [TagHost H kind] (host : H) : Bool :=
  (ledger host : TagLedger kind).freeIndex.any (ledger host : TagLedger kind).exhausted

/-- A host that comes about from one with a new ledger, with what happened to its tags. -/
inductive Run (kind : TagKind) [TagHost H kind] : H → TagLog kind → Prop
  | new {host : H} (owner : UInt32) : (ledger host : TagLedger kind) = .ofOwner owner →
      Run kind host []
  | grant {host host' : H} {log : TagLog kind} {tag : Tag kind} : Run kind host log →
      grant kind host = .ok tag host' → Run kind host' (.granted tag (sweepsNext kind host) :: log)
  | grantRefused {host host' : H} {log : TagLog kind} {e : Fault} : Run kind host log →
      grant kind host = .error e host' → Run kind host' log
  | release {host host' : H} {log : TagLog kind} {tag : Tag kind} : Run kind host log →
      release tag host = .ok () host' → Run kind host' (.released tag :: log)
  | releaseRefused {host host' : H} {log : TagLog kind} {tag : Tag kind} {e : Fault} :
      Run kind host log → release tag host = .error e host' → Run kind host' log
  /-- Whatever else a host does leaves its ledger alone. -/
  | other {host host' : H} {log : TagLog kind} : Run kind host log →
      (ledger host' : TagLedger kind) = ledger host → Run kind host' log

variable [LawfulTagHost H kind] {host host' : H} {log : TagLog kind} {tag : Tag kind}

/-- Making room lowers values only. -/
theorem last_makeRoom_le (i j : Fin kind.capacity) (host : H) :
    getElem (ledger (makeRoom kind i host) : TagLedger kind).last j j.isLt ≤
      getElem (ledger host : TagLedger kind).last j j.isLt := by
  rw [ledger_makeRoom]
  split
  · rw [last_restart]
    split
    · exact Nat.le_refl _
    · exact Nat.zero_le _
  · exact Nat.le_refl _

/-- A tag that is granted is none of the spent ones. -/
theorem follows_grant (h : (ledger host : TagLedger kind).Follows log)
    (hrun : grant kind host = .ok tag host') :
    (ledger host' : TagLedger kind).Follows (.granted tag (sweepsNext kind host) :: log) := by
  obtain ⟨hfree, granted, rfl, hsound, hvalue, hlast, hlive⟩ := TagHost.of_grant h.sound hrun
  have hsweeps : sweepsNext kind host = (ledger host : TagLedger kind).exhausted tag.index := by
    simp [sweepsNext, hfree]
  -- without a sweep the ledger is the old one; with one, the bounds only get lower
  have hroom : sweepsNext kind host = false →
      (ledger (makeRoom kind tag.index host) : TagLedger kind) = ledger host := by
    intro hswept
    rw [ledger_makeRoom, if_neg (by simp [← hsweeps, hswept])]
  rw [LawfulTagHost.ledger_setLedger]
  refine ⟨hsound, ?_, ?_, ?_, ?_, ?_⟩
  · intro other
    rw [hlive, h.isLive_iff, held_granted]
  · intro j
    have hle := h.last_le j
    have hroom_le := last_makeRoom_le tag.index j host
    rw [hlast, grants_granted]
    by_cases hj : j = tag.index
    · subst hj
      rw [if_pos rfl]
      omega
    · rw [if_neg hj]
      omega
  · intro other hspent
    obtain ⟨hswept, hpast⟩ := spent_granted.1 hspent
    have hle := h.value_le other hpast
    rw [hroom hswept] at hvalue hlast
    rw [hlast]
    by_cases hindex : other.index = tag.index
    · rw [hindex] at hle
      rw [if_pos hindex]
      omega
    · rw [if_neg hindex]
      exact hle
  · intro other hspent
    obtain ⟨hswept, hpast⟩ := spent_granted.1 hspent
    have hle := h.value_le other hpast
    rw [held_granted]
    rintro (rfl | hheld)
    · -- the value granted is the one after the last, and the spent one is not
      rw [hroom hswept] at hvalue
      omega
    · exact h.not_held other hpast hheld
  · intro other later earlier hlog
    -- the sweep is the event at hand, or it is an older one
    rcases later with _ | ⟨event, later⟩
    · obtain ⟨hhead, rfl⟩ := List.cons.inj hlog
      have hswept : sweepsNext kind host = true := (TagEvent.granted.inj hhead).2
      rw [hsweeps, TagLedger.exhausted, beq_iff_eq] at hswept
      exact hswept ▸ h.last_le tag.index
    · obtain ⟨-, htail⟩ := List.cons.inj hlog
      exact h.sweep_late other later earlier htail

/-- A tag that is taken back is spent. -/
theorem follows_release (h : (ledger host : TagLedger kind).Follows log)
    (hrun : release tag host = .ok () host') :
    (ledger host' : TagLedger kind).Follows (.released tag :: log) := by
  obtain ⟨huse, released, rfl, hsound, hlast, hlive⟩ := TagHost.of_release h.sound hrun
  rw [LawfulTagHost.ledger_setLedger]
  refine ⟨hsound, ?_, ?_, ?_, ?_, ?_⟩
  · intro other
    rw [hlive, h.isLive_iff, held_released]
  · intro j
    rw [hlast, grants_released]
    exact h.last_le j
  · intro other hspent
    rw [hlast]
    rcases spent_released.1 hspent with rfl | hpast
    · exact Nat.le_of_eq (isLive_iff.1 huse).2.2.symm
    · exact h.value_le other hpast
  · intro other hspent
    rw [held_released]
    rintro ⟨hne, hheld⟩
    exact h.not_held other ((spent_released.1 hspent).resolve_left hne) hheld
  · intro other later earlier hlog
    rcases later with _ | ⟨event, later⟩
    · cases hlog
    · obtain ⟨-, htail⟩ := List.cons.inj hlog
      exact h.sweep_late other later earlier htail

/-- After any run, the ledger is as the log says. -/
theorem Run.follows (h : Run kind host log) : (ledger host : TagLedger kind).Follows log := by
  induction h with
  | new owner hledger => exact hledger ▸ follows_ofOwner owner
  | grant _ hrun ih => exact follows_grant ih hrun
  | grantRefused _ hrun ih =>
      obtain ⟨rfl, -⟩ := of_grant_error ih.sound hrun
      exact ih
  | release _ hrun ih => exact follows_release ih hrun
  | releaseRefused _ hrun ih =>
      obtain ⟨rfl, -⟩ := of_release_error hrun
      exact ih
  | other _ hledger ih => exact hledger ▸ ih

end TagHost

end SlabGraph
