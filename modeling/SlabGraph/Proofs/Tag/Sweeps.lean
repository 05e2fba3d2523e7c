import Mathlib.Algebra.Order.BigOperators.Group.Finset
import SlabGraph.Proofs.Tag.Reuse

/-!
# How Often a Host Sweeps

A sweep visits every object of a host, so a host should not sweep often. It sweeps only for a grant
at an index whose values are used up, and then the values of the indices in use do not start over.
So when several indices run out of values at one time, each of them can be the cause of a sweep of
its own, one shortly after the other.

All the same there is one sweep at most for every `Tag.lastValue` grants. Each grant draws one
value of one index, and a sweep gives all values of the index that caused it back. What is drawn
and not given back (`TagLedger.drawn`) is never negative, so that the sweeps are paid for by the
grants (`TagHost.Run.sweeps_paid`).

## Main definitions

* `TagLog.sweeps`, `TagLedger.drawn`;
* `TagHost.Rationed`.

## Main result

* `TagHost.Run.rationed`: all runs.
-/

namespace SlabGraph

namespace TagLog

variable {kind : TagKind} {tag : Tag kind} {log : TagLog kind}

/-- How many of the grants made the host sweep. -/
def sweeps (log : TagLog kind) : Nat :=
  log.countP fun
    | .granted _ swept => swept
    | .released _ => false

/-- A grant counts as a sweep if the host swept for it. -/
theorem sweeps_granted (swept : Bool) :
    sweeps (.granted tag swept :: log) = sweeps log + if swept then 1 else 0 := by
  cases swept with
  | true => exact List.countP_cons_of_pos rfl
  | false => exact List.countP_cons_of_neg (by simp)

/-- A release does not count as a sweep. -/
theorem sweeps_released : sweeps (.released tag :: log) = sweeps log :=
  List.countP_cons_of_neg (by simp)

end TagLog

/-! ### Values that are drawn -/

namespace TagLedger

variable {kind : TagKind} {ledger : TagLedger kind}

/-- How many values were drawn since the values of their index started over. -/
def drawn (ledger : TagLedger kind) : Nat :=
  ∑ i : Fin kind.capacity, ledger.last.get i

/-- One index is told from the others. -/
theorem drawn_eq_add (ledger : TagLedger kind) (i : Fin kind.capacity) :
    ledger.drawn = getElem ledger.last i i.isLt +
      ∑ j ∈ Finset.univ.erase i, getElem ledger.last j j.isLt :=
  (Finset.add_sum_erase Finset.univ (fun j : Fin kind.capacity => getElem ledger.last j j.isLt)
    (Finset.mem_univ i)).symm

/-- No value of a new ledger was drawn. -/
theorem drawn_ofOwner (owner : UInt32) : (ofOwner owner : TagLedger kind).drawn = 0 := by
  refine Finset.sum_eq_zero fun i _ => ?_
  change (Vector.replicate kind.capacity Tag.clean)[i] = 0
  rw [Fin.getElem_fin, Vector.getElem_replicate, Tag.clean]

/-- A grant draws one value. -/
theorem drawn_of_grant {granted : TagLedger kind} {i : Fin kind.capacity} {value : Nat}
    (hvalue : value = getElem ledger.last i i.isLt + 1)
    (hlast : ∀ j : Fin kind.capacity, getElem granted.last j j.isLt =
      if j = i then value else getElem ledger.last j j.isLt) :
    granted.drawn = ledger.drawn + 1 := by
  have hothers : ∑ j ∈ Finset.univ.erase i, getElem granted.last j j.isLt =
      ∑ j ∈ Finset.univ.erase i, getElem ledger.last j j.isLt :=
    Finset.sum_congr rfl fun j hj => by rw [hlast, if_neg (Finset.ne_of_mem_erase hj)]
  have hself : getElem granted.last i i.isLt = value := by rw [hlast, if_pos rfl]
  rw [drawn_eq_add granted i, drawn_eq_add ledger i, hothers, hself, hvalue]
  omega

/-- When the values start over, those of an index not in use are given back. -/
theorem drawn_restart_add_le {i : Fin kind.capacity}
    (hused : getElem ledger.used i i.isLt = false) :
    ledger.restart.drawn + getElem ledger.last i i.isLt ≤ ledger.drawn := by
  have hothers : ∑ j ∈ Finset.univ.erase i, getElem ledger.restart.last j j.isLt ≤
      ∑ j ∈ Finset.univ.erase i, getElem ledger.last j j.isLt := by
    refine Finset.sum_le_sum fun j _ => ?_
    rw [last_restart]
    split
    · exact Nat.le_refl _
    · exact Nat.zero_le _
  have hself : getElem ledger.restart.last i i.isLt = 0 := by
    rw [last_restart, hused]
    rfl
  rw [drawn_eq_add ledger.restart i, drawn_eq_add ledger i, hself]
  omega

end TagLedger

/-! ### Grants pay for sweeps -/

namespace TagHost

open TagLog

variable {H : Type} {kind : TagKind} [TagHost H kind] [LawfulTagHost H kind] {host host' : H}
  {log : TagLog kind} {tag : Tag kind}

omit [LawfulTagHost H kind] in
/-- A host sweeps for a grant if the index that is next has no value left. -/
theorem sweepsNext_eq {i : Fin kind.capacity}
    (hfree : (ledger host : TagLedger kind).freeIndex = some i) :
    sweepsNext kind host = (ledger host : TagLedger kind).exhausted i := by
  simp [sweepsNext, hfree]

/-- Making room for a grant gives all values of the index back if the host sweeps for it. -/
theorem drawn_makeRoom_add_le {i : Fin kind.capacity}
    (hfree : (ledger host : TagLedger kind).freeIndex = some i) :
    (ledger (makeRoom kind i host) : TagLedger kind).drawn +
        (if sweepsNext kind host then Tag.lastValue else 0) ≤
      (ledger host : TagLedger kind).drawn := by
  rw [sweepsNext_eq hfree, ledger_makeRoom]
  split
  · rename_i hleft
    rw [TagLedger.exhausted, beq_iff_eq] at hleft
    have hback := TagLedger.drawn_restart_add_le (TagLedger.used_of_freeIndex hfree)
    rwa [show getElem _ i i.isLt = Tag.lastValue from hleft] at hback
  · exact Nat.le_refl _

/-- A grant draws one value, and all values of an index are given back if the host sweeps for it. -/
theorem drawn_grant_add_le (hsound : (ledger host : TagLedger kind).Sound)
    (hrun : grant kind host = .ok tag host') :
    (ledger host' : TagLedger kind).drawn + (if sweepsNext kind host then Tag.lastValue else 0) ≤
      (ledger host : TagLedger kind).drawn + 1 := by
  obtain ⟨hfree, granted, rfl, -, hvalue, hlast, -⟩ := of_grant hsound hrun
  have hroom := drawn_makeRoom_add_le hfree
  rw [LawfulTagHost.ledger_setLedger, TagLedger.drawn_of_grant hvalue hlast]
  omega

/-- A release draws no value and gives none back. -/
theorem drawn_release (hsound : (ledger host : TagLedger kind).Sound)
    (hrun : release tag host = .ok () host') :
    (ledger host' : TagLedger kind).drawn = (ledger host : TagLedger kind).drawn := by
  obtain ⟨-, released, rfl, -, hlast, -⟩ := of_release hsound hrun
  rw [LawfulTagHost.ledger_setLedger, TagLedger.drawn, TagLedger.drawn, hlast]

/-- Every sweep is paid for by as many grants as an index has values, and what was drawn since by
as many more. -/
theorem Run.sweeps_paid (h : Run kind host log) :
    sweeps log * Tag.lastValue + (ledger host : TagLedger kind).drawn ≤ grants log := by
  induction h with
  | new owner hledger => simp [hledger, TagLedger.drawn_ofOwner, sweeps]
  | grant hbefore hrun ih =>
      have hstep := drawn_grant_add_le hbefore.follows.sound hrun
      rw [sweeps_granted, grants_granted, Nat.add_mul, ite_mul, Nat.one_mul, Nat.zero_mul]
      omega
  | grantRefused hbefore hrun ih =>
      obtain ⟨rfl, -⟩ := of_grant_error hbefore.follows.sound hrun
      exact ih
  | release hbefore hrun ih =>
      rw [sweeps_released, grants_released, drawn_release hbefore.follows.sound hrun]
      exact ih
  | releaseRefused _ hrun ih =>
      obtain ⟨rfl, -⟩ := of_release_error hrun
      exact ih
  | other _ hledger ih => rwa [hledger]

/-- Every value that was granted is one of an index, and not the stamp of an object without tags. -/
theorem Run.value_bounds (h : Run kind host log) {swept : Bool}
    (hmem : .granted tag swept ∈ log) : Tag.clean < tag.value ∧ tag.value ≤ Tag.lastValue := by
  induction h with
  | new => cases hmem
  | grant hbefore hrun ih =>
      rcases List.mem_cons.1 hmem with heq | hmem
      · obtain ⟨rfl, -⟩ := TagEvent.granted.inj heq
        obtain ⟨-, granted, -, hsound, hvalue, hlast, -⟩ := of_grant hbefore.follows.sound hrun
        have hle := hsound.le_lastValue tag.index
        rw [hlast, if_pos rfl] at hle
        exact ⟨hvalue ▸ Nat.succ_pos _, hle⟩
      · exact ih hmem
  | release _ _ ih => exact ih ((List.mem_cons.1 hmem).resolve_left (by simp))
  | grantRefused _ _ ih | releaseRefused _ _ ih | other _ _ ih => exact ih hmem

/-! ### Rationing -/

/-- Once there is room for a grant, its guards do not fail. -/
theorem room_of_freeIndex (hsound : (ledger host : TagLedger kind).Sound) {i : Fin kind.capacity}
    (hfree : (ledger host : TagLedger kind).freeIndex = some i) :
    getElem (ledger (makeRoom kind i host) : TagLedger kind).used i i.isLt = false ∧
    (ledger (makeRoom kind i host) : TagLedger kind).exhausted i = false ∧
    getElem (ledger (makeRoom kind i host) : TagLedger kind).last i i.isLt + 1 ≤ Tag.lastValue := by
  obtain ⟨tag, granted, hrun, hgranted, rfl, hvalue, hlast, -⟩ := grant_run host hsound hfree
  have hle := hgranted.le_lastValue tag.index
  rw [hlast, if_pos rfl, hvalue] at hle
  rw [grant_eq, hfree] at hrun
  cases hroom : (ledger (makeRoom kind tag.index host) : TagLedger kind).grant tag.index with
  | error e => simp [hroom] at hrun
  | ok answer =>
      obtain ⟨hused, hleft⟩ := TagLedger.of_grant hroom
      exact ⟨hused, hleft, hle⟩

/-- The values of a host with such a log are rationed. -/
structure Rationed (kind : TagKind) [TagHost H kind] (host : H) (log : TagLog kind) : Prop where
  /-- The values that were granted are the positive ones up to the last. -/
  values : ∀ (tag : Tag kind) (swept : Bool), .granted tag swept ∈ log →
    Tag.clean < tag.value ∧ tag.value ≤ Tag.lastValue
  /-- The index of the next grant, once there is room at it, is not in use and has a value left.
  So raising its value does not lead past the last one. -/
  room : ∀ i : Fin kind.capacity, (ledger host : TagLedger kind).freeIndex = some i →
    getElem (ledger (makeRoom kind i host) : TagLedger kind).used i i.isLt = false ∧
    (ledger (makeRoom kind i host) : TagLedger kind).exhausted i = false ∧
    getElem (ledger (makeRoom kind i host) : TagLedger kind).last i i.isLt + 1 ≤ Tag.lastValue
  /-- The next grant is refused exactly if all indices are in use, and for no other cause. -/
  refused : ∀ e host', grant kind host = .error e host' ↔
    (∀ i : Fin kind.capacity, getElem (ledger host : TagLedger kind).used i i.isLt = true) ∧
      e = .tagsExhausted kind ∧ host' = host
  /-- The log will tell truly whether the host swept for the next grant, and let values start
  over. -/
  swept : ∀ tag host', grant kind host = .ok tag host' → ∃ granted : TagLedger kind,
    host' = setLedger (if sweepsNext kind host then restart kind host else host) granted
  /-- There was one sweep at most for as many grants as an index has values. -/
  sweeps_le : sweeps log ≤ grants log / Tag.lastValue

/-- After every run, the values of the host are rationed. -/
theorem Run.rationed (h : Run kind host log) : Rationed kind host log := by
  have hsound := h.follows.sound
  refine ⟨fun tag swept => h.value_bounds, fun i hfree => room_of_freeIndex hsound hfree,
    fun e host' => ⟨fun hrun => ?_, ?_⟩, fun tag host' hrun => ?_, ?_⟩
  · obtain ⟨rfl, rfl, hfree⟩ := of_grant_error hsound hrun
    exact ⟨TagLedger.freeIndex_eq_none_iff.1 hfree, rfl, rfl⟩
  · rintro ⟨hall, rfl, rfl⟩
    exact grant_exhausted (TagLedger.freeIndex_eq_none_iff.2 hall)
  · obtain ⟨hfree, granted, rfl, -⟩ := of_grant hsound hrun
    exact ⟨granted, by rw [makeRoom, sweepsNext_eq hfree]⟩
  · rw [Nat.le_div_iff_mul_le (by decide)]
    exact Nat.le_of_add_right_le h.sweeps_paid

end TagHost

/-! ### Two indices that run out of values at one time -/

namespace ObjectHost

open TagHost TagLog

/-- There is an index after the lowest. -/
theorem one_lt_capacity : 1 < TagKind.marker.capacity := by decide

/-- A host without objects, with the last values of the two lowest indices and whether these are in
use. At the other indices no marker was granted. -/
def pair (first second : Nat) (firstUsed secondUsed : Bool) : ObjectHost where
  markers := ⟨0,
    ((Vector.replicate _ Tag.clean).set 0 first (TagKind.capacity_pos .marker)).set 1 second
      one_lt_capacity,
    ((Vector.replicate _ false).set 0 firstUsed (TagKind.capacity_pos .marker)).set 1 secondUsed
      one_lt_capacity⟩
  nums := .ofOwner 1
  objects := #[]

/-- A marker of the index after the lowest. -/
def second (value : Nat) : Marker := ⟨0, ⟨1, one_lt_capacity⟩, value⟩

/-- A grant of a marker, given the host with room for it. -/
theorem grant_of_room {host : ObjectHost} {i : Fin TagKind.marker.capacity} (room : ObjectHost)
    (hfree : host.markers.freeIndex = some i) (hroom : makeRoom .marker i host = room)
    (hused : getElem room.markers.used i i.isLt = false)
    (hleft : getElem room.markers.last i i.isLt < Tag.lastValue) :
    grant .marker host = .ok ⟨room.markers.owner, i, room.markers.last[i] + 1⟩
      { room with markers := { room.markers with
          last := room.markers.last.set i (room.markers.last[i] + 1)
          used := room.markers.used.set i true } } := by
  have hfree' : (TagHost.ledger host : TagLedger .marker).freeIndex = some i := hfree
  have hrun : (TagHost.ledger room : TagLedger .marker).grant i = _ :=
    TagLedger.grant_eq_ok hused hleft
  rw [grant_eq, hfree']
  simp only [hroom]
  rw [hrun]
  rfl

/-- A marker in use is taken back. -/
theorem release_of_isLive {host : ObjectHost} {marker : Marker}
    (hlive : host.markers.isLive marker = true) : release marker host =
      .ok () { host with markers := { host.markers with
        used := host.markers.used.set marker.index false marker.index.isLt } } := by
  have hlive' : (TagHost.ledger host : TagLedger .marker).isLive marker = true := hlive
  rw [release_eq, TagLedger.release, if_pos hlive']
  rfl

/-- The last marker of the lowest index stays in use, and those of the index after it were granted
and taken back, one after another. -/
def secondRounds : Nat → TagLog .marker
  | 0 => .granted (lowest Tag.lastValue) false :: rounds 65534
  | value + 1 =>
    .released (second (value + 1)) :: .granted (second (value + 1)) false :: secondRounds value

/-- The index after the lowest is granted while the lowest is in use. -/
theorem run_second {value : Nat} {log : TagLog .marker} (hleft : value < Tag.lastValue)
    (h : Run .marker (pair Tag.lastValue value true false) log) :
    Run .marker (pair Tag.lastValue (value + 1) true true)
      (.granted (second (value + 1)) false :: log) := by
  have hnext : sweepsNext .marker (pair Tag.lastValue value true false) =
      (value == Tag.lastValue) := rfl
  have hgrant := h.grant (grant_of_room (i := (second value).index) _ rfl
    (if_neg fun hspent => absurd (beq_iff_eq.1 hspent) (Nat.ne_of_lt hleft)) rfl hleft)
  rwa [hnext, beq_eq_false_iff_ne.2 (Nat.ne_of_lt hleft)] at hgrant

/-- The index after the lowest is granted and taken back as often as it has values, while the last
marker of the lowest index stays in use. -/
theorem run_secondRounds : ∀ {value : Nat}, value ≤ Tag.lastValue →
    Run .marker (pair Tag.lastValue value true false) (secondRounds value)
  | 0, _ => by
      have hrounds := run_rounds (show 65534 ≤ Tag.lastValue by decide)
      have hgrant := hrounds.grant (grant_idle (by decide))
      rw [sweepsNext_idle (by decide)] at hgrant
      exact hgrant
  | value + 1, h =>
      (run_second h (run_secondRounds (Nat.le_of_succ_le h))).release
        (release_of_isLive (TagLedger.isLive_iff.2 ⟨rfl, rfl, rfl⟩))

/-- Each round has one grant. -/
theorem grants_rounds (value : Nat) : grants (rounds value) = value := by
  induction value with
  | zero => rfl
  | succ value ih => rw [rounds, grants_released, grants_granted, ih]

/-- The host does not sweep in these rounds. -/
theorem sweeps_rounds (value : Nat) : sweeps (rounds value) = 0 := by
  induction value with
  | zero => rfl
  | succ value ih => rw [rounds, sweeps_released, sweeps_granted, ih]; rfl

/-- Each round has one grant, and before the first one all values of the lowest index were
granted. -/
theorem grants_secondRounds (value : Nat) :
    grants (secondRounds value) = Tag.lastValue + value := by
  induction value with
  | zero => rw [secondRounds, grants_granted, grants_rounds]; rfl
  | succ value ih => rw [secondRounds, grants_released, grants_granted, ih]; rfl

/-- The host does not sweep in these rounds. -/
theorem sweeps_secondRounds (value : Nat) : sweeps (secondRounds value) = 0 := by
  induction value with
  | zero => rw [secondRounds, sweeps_granted, sweeps_rounds]; rfl
  | succ value ih => rw [secondRounds, sweeps_released, sweeps_granted, ih]; rfl

/-- The last markers of both indices are in use at one time. Each of them is taken back while the
other index is in use, and for the next grant the host sweeps. -/
def twoSweeps : TagLog .marker :=
  .granted (second 1) true :: .released (second Tag.lastValue) ::
    .granted (lowest 1) true :: .released (lowest Tag.lastValue) ::
      .granted (second Tag.lastValue) false :: secondRounds 65534

/-- A host sweeps for two grants that are close together. -/
theorem run_twoSweeps : Run .marker (pair 1 1 true true) twoSweeps := by
  have hboth : Run .marker (pair Tag.lastValue Tag.lastValue true true) _ :=
    run_second (by decide) (run_secondRounds (show 65534 ≤ Tag.lastValue by decide))
  have hfirst : release (lowest Tag.lastValue) (pair Tag.lastValue Tag.lastValue true true) =
      .ok () (pair Tag.lastValue Tag.lastValue false true) :=
    release_of_isLive (by decide +kernel)
  have hsweep : grant .marker (pair Tag.lastValue Tag.lastValue false true) =
      .ok (lowest 1) (pair 1 Tag.lastValue true true) :=
    grant_of_room (i := (lowest 1).index) (pair 0 Tag.lastValue false true) rfl
      (by decide +kernel) rfl (by decide)
  have hsecond : release (second Tag.lastValue) (pair 1 Tag.lastValue true true) =
      .ok () (pair 1 Tag.lastValue true false) :=
    release_of_isLive (by decide +kernel)
  have hagain : grant .marker (pair 1 Tag.lastValue true false) =
      .ok (second 1) (pair 1 1 true true) :=
    grant_of_room (i := (second 1).index) (pair 1 0 true false) rfl (by decide +kernel) rfl
      (by decide)
  exact (((hboth.release hfirst).grant hsweep).release hsecond).grant hagain

end ObjectHost

/-- The second sweep comes right after the first, and there was one for as many grants as an index
has values. -/
theorem TagHost.Run.rationed_twoSweeps :
    TagHost.Run .marker (ObjectHost.pair 1 1 true true) ObjectHost.twoSweeps ∧
    TagHost.Rationed .marker (ObjectHost.pair 1 1 true true) ObjectHost.twoSweeps ∧
    TagLog.sweeps ObjectHost.twoSweeps = 2 ∧
    TagLog.grants ObjectHost.twoSweeps = 2 * Tag.lastValue + 2 := by
  refine ⟨ObjectHost.run_twoSweeps, TagHost.Run.rationed ObjectHost.run_twoSweeps, ?_, ?_⟩
  · simp only [ObjectHost.twoSweeps, TagLog.sweeps_granted, TagLog.sweeps_released,
      ObjectHost.sweeps_secondRounds]
    rfl
  · simp only [ObjectHost.twoSweeps, TagLog.grants_granted, TagLog.grants_released,
      ObjectHost.grants_secondRounds]
    rfl

end SlabGraph
