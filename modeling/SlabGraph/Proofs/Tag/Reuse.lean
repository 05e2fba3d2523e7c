import SlabGraph.Proofs.Graph.Tags
import SlabGraph.Proofs.Tag.Runs

/-!
# When a Tag Comes Back

A tag is known by its owner, its index and its value. So a tag that was taken back is dead as long
as no equal tag is granted: it is not in use, taking it back again is refused, and a graph refuses
every operation with it (`TagHost.Dead`). An index has only `Tag.lastValue` values. When they are
used up, the host sweeps its objects and lets the values of the indices not in use start over. Up to
the next such sweep, a tag that was taken back stays dead, whatever is granted in between, and the
first sweep comes only when as many tags were granted as an index has values.

After that sweep equal tags are granted again, and then an old copy of such a tag is as good as the
new one. `TagHost.first_live_again` has the shortest case: all values of one index, and one more
grant.

## Main definitions

* `Graph.Rejects`, `TagHost.Dead`, `TagHost.LogFaithful`.

## Main results

* `TagHost.Run.logFaithful`: all runs;
* `TagHost.first_live_again`: a marker that comes back.
-/

namespace SlabGraph

variable {N E : Type}

/-! ### Tags that are not in use -/

namespace Graph

/-- The ledger of a kind of tag. -/
def ledgerOf (g : Graph N E) : (kind : TagKind) → TagLedger kind
  | .marker => g.markers
  | .numeration => g.nums

/-- All operations with a tag fail, on whatever node or edge, and change nothing. -/
def Rejects (g : Graph N E) : {kind : TagKind} → Tag kind → Prop
  | .marker, marker => ∀ {kind : EntityKind} (x : Handle kind),
      mark x marker g = .error (.tagNotInUse marker g.id) g ∧
      unmark x marker g = .error (.tagNotInUse marker g.id) g ∧
      isMarked x marker g = .error (.tagNotInUse marker g.id)
  | .numeration, num => ∀ {kind : EntityKind} (x : Handle kind),
      (∀ value, setNumber x num value g = .error (.tagNotInUse num g.id) g) ∧
      unnumber x num g = .error (.tagNotInUse num g.id) g ∧
      number x num g = .error (.tagNotInUse num g.id) ∧
      isNumbered x num g = .error (.tagNotInUse num g.id)

/-- A tag that is not in use does not pass the check. -/
theorem checkTag_refused {g : Graph N E} {kind : TagKind} [TagHost (Graph N E) kind]
    {tag : Tag kind} (hdead : (TagHost.ledger g : TagLedger kind).isLive tag = false) :
    g.checkTag tag = .error (.tagNotInUse tag g.id) :=
  if_neg (by simp [hdead])

/-- A graph rejects every tag that is not in use. -/
theorem rejects {g : Graph N E} {kind : TagKind} {tag : Tag kind}
    (hdead : (g.ledgerOf kind).isLive tag = false) : g.Rejects tag := by
  cases kind with
  | marker =>
      have hcheck : g.checkTag tag = .error (.tagNotInUse tag g.id) := checkTag_refused hdead
      intro kind x
      refine ⟨?_, ?_, ?_⟩
      · simp [mark, hcheck]
      · simp [unmark, hcheck]
      · simp [isMarked, hcheck]
  | numeration =>
      have hcheck : g.checkTag tag = .error (.tagNotInUse tag g.id) := checkTag_refused hdead
      intro kind x
      refine ⟨fun value => ?_, ?_, ?_, ?_⟩
      · simp [setNumber, hcheck]
      · simp [unnumber, hcheck]
      · simp [number, hcheck]
      · simp [isNumbered, hcheck]

end Graph

namespace TagHost

open TagLog

variable {H : Type} {kind : TagKind} [TagHost H kind]

/-- Nothing can be done with a tag on a host. -/
structure Dead (host : H) (tag : Tag kind) : Prop where
  /-- The tag is not in use. -/
  not_live : (ledger host : TagLedger kind).isLive tag = false
  /-- It cannot be taken back. -/
  release : release tag host = .error (.tagNotHeld tag.index tag.value) host
  /-- A graph with the ledger of the host refuses it. -/
  rejects : ∀ {N E : Type} (g : Graph N E), g.ledgerOf kind = ledger host → g.Rejects tag

/-- On a host, nothing can be done with a tag that is not in use. -/
theorem dead_of_not_live {host : H} {tag : Tag kind}
    (hdead : (ledger host : TagLedger kind).isLive tag = false) : Dead host tag where
  not_live := hdead
  release := release_refused hdead
  rejects _ hledger := Graph.rejects (by rw [hledger, hdead])

end TagHost

/-! ### All values of one index -/

namespace ObjectHost

open TagHost TagLog

instance : LawfulTagHost ObjectHost .marker := ⟨fun _ _ => rfl, fun _ => rfl⟩

instance : LawfulTagHost ObjectHost .numeration := ⟨fun _ _ => rfl, fun _ => rfl⟩

/-- A host without objects and without markers in use, with the value granted last at the lowest
index. At the other indices no marker was granted. -/
def idle (value : Nat) : ObjectHost where
  markers := ⟨0, (Vector.replicate _ Tag.clean).set 0 value (TagKind.capacity_pos .marker),
    .replicate _ false⟩
  nums := .ofOwner 1
  objects := #[]

/-- Such a host with the last of these markers in use. -/
def busy (value : Nat) : ObjectHost where
  markers := ⟨0, (Vector.replicate _ Tag.clean).set 0 value (TagKind.capacity_pos .marker),
    (Vector.replicate _ false).set 0 true (TagKind.capacity_pos .marker)⟩
  nums := .ofOwner 1
  objects := #[]

/-- A marker of the lowest index. -/
def lowest (value : Nat) : Marker := ⟨0, ⟨0, TagKind.capacity_pos .marker⟩, value⟩

/-- The markers of the lowest index were granted and taken back, one after another. -/
def rounds : Nat → TagLog .marker
  | 0 => []
  | value + 1 =>
    .released (lowest (value + 1)) :: .granted (lowest (value + 1)) false :: rounds value

/-- The lowest index is granted, with the value after the last one, once there is room. -/
theorem grant_of_makeRoom {value room : Nat} (hleft : room < Tag.lastValue)
    (hroom : makeRoom .marker (lowest value).index (idle value) = idle room) :
    grant .marker (idle value) = .ok (lowest (room + 1)) (busy (room + 1)) := by
  have hfree : (TagHost.ledger (idle value) : TagLedger .marker).freeIndex =
    some (lowest value).index := rfl
  have hrun : (TagHost.ledger (idle room) : TagLedger .marker).grant (lowest value).index = _ :=
    TagLedger.grant_eq_ok rfl hleft
  rw [grant_eq, hfree]
  simp only [hroom]
  rw [hrun]
  rfl

/-- With values left at the lowest index, no room need be made for a grant. -/
theorem grant_idle {value : Nat} (h : value < Tag.lastValue) :
    grant .marker (idle value) = .ok (lowest (value + 1)) (busy (value + 1)) :=
  grant_of_makeRoom h (if_neg fun hleft => absurd (beq_iff_eq.1 hleft) (Nat.ne_of_lt h))

/-- After the last value, the first marker is granted again. -/
theorem grant_idle_lastValue : grant .marker (idle Tag.lastValue) = .ok (lowest 1) (busy 1) :=
  grant_of_makeRoom (by decide) (by decide +kernel)

/-- The tag in use is taken back. -/
theorem release_busy (value : Nat) : release (lowest value) (busy value) = .ok () (idle value) := by
  have hlive : (TagHost.ledger (busy value) : TagLedger .marker).isLive (lowest value) = true :=
    TagLedger.isLive_iff.2 ⟨rfl, rfl, rfl⟩
  rw [release_eq, TagLedger.release, if_pos hlive]
  rfl

/-- With values left at the lowest index, the host does not sweep for the next grant. -/
theorem sweepsNext_idle {value : Nat} (h : value < Tag.lastValue) :
    sweepsNext .marker (idle value) = false := by
  have hnext : sweepsNext .marker (idle value) = (value == Tag.lastValue) := rfl
  rw [hnext, beq_eq_false_iff_ne]
  exact Nat.ne_of_lt h

/-- The lowest index is granted and taken back as often as it has values. -/
theorem run_rounds : ∀ {value : Nat}, value ≤ Tag.lastValue →
    Run .marker (idle value) (rounds value)
  | 0, _ => .new 0 rfl
  | value + 1, h => by
      have hgrant := (run_rounds (Nat.le_of_succ_le h)).grant (grant_idle h)
      rw [sweepsNext_idle h] at hgrant
      exact hgrant.release (release_busy (value + 1))

/-- The first marker stays spent. -/
theorem spent_rounds : ∀ value : Nat, Spent (lowest 1) (rounds (value + 1))
  | 0 => spent_released.2 (.inl rfl)
  | value + 1 => spent_released.2 (.inr (spent_granted.2 ⟨rfl, spent_rounds value⟩))

end ObjectHost

/-! ### Runs -/

namespace TagHost

open TagLog

variable {H : Type} {kind : TagKind} [TagHost H kind]

/-- The tags of a host are as the log of its grants and releases says. -/
structure LogFaithful (host : H) (log : TagLog kind) : Prop where
  /-- A tag is in use if it was granted and not taken back since. -/
  isLive_iff : ∀ tag, (ledger host : TagLedger kind).isLive tag = true ↔ Held tag log
  /-- Such a tag can be taken back. -/
  release_held : ∀ tag, Held tag log → ∃ host', release tag host = .ok () host'
  /-- Any other tag is dead. -/
  dead_of_not_held : ∀ tag, ¬ Held tag log → Dead host tag
  /-- A tag that was taken back is dead up to the next sweep. -/
  dead_of_spent : ∀ tag, Spent tag log → Dead host tag
  /-- There is no sweep before `Tag.lastValue` tags were granted. -/
  sweep_late : ∀ tag later earlier, log = later ++ .granted tag true :: earlier →
    Tag.lastValue ≤ grants earlier

/-- The log of every run is right about the tags of the host. -/
theorem Run.logFaithful [LawfulTagHost H kind] {host : H} {log : TagLog kind}
    (h : Run kind host log) : LogFaithful host log := by
  have hfollows := h.follows
  have hdead : ∀ tag, ¬ Held tag log → Dead host tag := by
    intro tag hnot
    rw [← hfollows.isLive_iff, Bool.not_eq_true] at hnot
    exact dead_of_not_live hnot
  refine ⟨hfollows.isLive_iff, ?_, hdead, ?_, hfollows.sweep_late⟩
  · intro tag hheld
    obtain ⟨released, hrun, -⟩ :=
      release_run host hfollows.sound ((hfollows.isLive_iff tag).2 hheld)
    exact ⟨_, hrun⟩
  · intro tag hspent
    exact hdead tag (hfollows.not_held tag hspent)

/-- When all values of an index have been granted, the first one is still dead. -/
theorem Run.logFaithful_last_value :
    Run .marker (ObjectHost.idle Tag.lastValue) (ObjectHost.rounds Tag.lastValue) ∧
    Dead (ObjectHost.idle Tag.lastValue) (ObjectHost.lowest 1) :=
  ⟨ObjectHost.run_rounds (Nat.le_refl _),
    (Run.logFaithful (ObjectHost.run_rounds (Nat.le_refl _))).dead_of_spent _
      (ObjectHost.spent_rounds 65534)⟩

/-- With one more grant, it is in use again, and can be taken back again. -/
theorem first_live_again :
    Run .marker (ObjectHost.busy 1)
      (.granted (ObjectHost.lowest 1) true :: ObjectHost.rounds Tag.lastValue) ∧
    .released (ObjectHost.lowest 1) ∈ ObjectHost.rounds Tag.lastValue ∧
    (ObjectHost.busy 1).markers.isLive (ObjectHost.lowest 1) = true ∧
    release (ObjectHost.lowest 1) (ObjectHost.busy 1) = .ok () (ObjectHost.idle 1) :=
  ⟨(ObjectHost.run_rounds (Nat.le_refl _)).grant ObjectHost.grant_idle_lastValue,
    (ObjectHost.spent_rounds 65534).released_mem, by decide, ObjectHost.release_busy 1⟩

end TagHost

end SlabGraph
