import SlabGraph.Proofs.Action
import SlabGraph.Proofs.Tag.Ledger
import SlabGraph.Tag.Host

/-!
# Granting and Releasing

Granting and releasing touch a host through the operations of its `TagHost` instance only. The
two equations `TagHost.grant_eq` and `TagHost.release_eq` say what they do in terms of these. Two
things follow without looking at the host.

A relation between two hosts that the operations of a host keep is kept by granting and
releasing, and the two hosts answer the same (`TagHost.Simulates`).

In a host whose ledger is where it was put (`LawfulTagHost`), granting is refused only if all
indices are in use, and else grants a tag at the lowest free index (`TagHost.grant_run`).

## Main results

* `TagHost.grant_eq`, `TagHost.release_eq`;
* `TagHost.grant_preserves`, `TagHost.release_preserves`;
* `TagHost.Simulates.grant_run`, `TagHost.Simulates.release_run`;
* `TagHost.grant_run`, `TagHost.grant_exhausted`, `TagHost.release_run`;
* `TagHost.of_grant`, `TagHost.of_release`: what a grant or a release that succeeds has done.
-/

namespace SlabGraph

namespace TagHost

variable {H K : Type} {kind : TagKind} [TagHost H kind] [TagHost K kind]

/-- What a grant does, step by step: it finds an unused index, makes room there, and enters the
grant into the ledger. -/
theorem grant_eq (host : H) :
    grant kind host = match (ledger host : TagLedger kind).freeIndex with
      | none => .error (.tagsExhausted kind) host
      | some i => match (ledger (makeRoom kind i host) : TagLedger kind).grant i with
        | .ok (tag, granted) => .ok tag (setLedger (makeRoom kind i host) granted)
        | .error e => .error e (makeRoom kind i host) := by
  cases hfree : (ledger host : TagLedger kind).freeIndex with
  | none => simp [grant, hfree]
  | some i =>
      cases hgrant : (ledger (makeRoom kind i host) : TagLedger kind).grant i with
      | ok answer => simp [grant, hfree, hgrant]
      | error e => simp [grant, hfree, hgrant]

/-- What a release does: it enters the release into the ledger. -/
theorem release_eq (tag : Tag kind) (host : H) :
    release tag host = match (ledger host : TagLedger kind).release tag with
      | .ok released => .ok () (setLedger host released)
      | .error e => .error e host := by
  cases h : (ledger host : TagLedger kind).release tag with
  | ok released => simp [release, h]
  | error e => simp [release, h]

/-- A grant when all indices are in use. -/
theorem grant_exhausted {host : H} (hfree : (ledger host : TagLedger kind).freeIndex = none) :
    grant kind host = .error (.tagsExhausted kind) host := by
  rw [grant_eq, hfree]

/-- A release of a tag in use. -/
theorem release_run (host : H) (hsound : (ledger host : TagLedger kind).Sound) {tag : Tag kind}
    (hlive : (ledger host : TagLedger kind).isLive tag = true) :
    ∃ released : TagLedger kind, release tag host = .ok () (setLedger host released) ∧
      released.Sound ∧ released.last = (ledger host : TagLedger kind).last ∧
      ∀ tag', released.isLive tag' = true ↔
        tag' ≠ tag ∧ (ledger host : TagLedger kind).isLive tag' = true := by
  obtain ⟨released, hrun, hsound', hlast, hlive'⟩ := hsound.release_run hlive
  exact ⟨released, by simp [release_eq, hrun], hsound', hlast, hlive'⟩

/-- A release of a tag that is not in use. -/
theorem release_refused {host : H} {tag : Tag kind}
    (hlive : (ledger host : TagLedger kind).isLive tag = false) :
    release tag host = .error (.tagNotHeld tag.index tag.value) host := by
  simp [release_eq, TagLedger.release, hlive]

/-- What changes of the ledger and sweeps leave alone, granting leaves alone. -/
theorem grant_preserves {R : H → H → Prop} (hrefl : ∀ host, R host host)
    (htrans : ∀ {a b c}, R a b → R b c → R a c)
    (hset : ∀ host (l : TagLedger kind), R host (setLedger host l))
    (hsweep : ∀ host, R host (sweep kind host)) (host : H) :
    R host ((grant kind).after host) := by
  have hroom : ∀ i, R host (makeRoom kind i host) := by
    intro i
    unfold makeRoom
    split
    · exact htrans (hsweep host) (hset _ _)
    · exact hrefl host
  unfold Action.after Action.outcome
  rw [grant_eq]
  cases (ledger host : TagLedger kind).freeIndex with
  | none => exact hrefl host
  | some i =>
      simp only
      cases (ledger (makeRoom kind i host) : TagLedger kind).grant i with
      | ok answer => exact htrans (hroom i) (hset _ _)
      | error e => exact hroom i

/-- What changes of the ledger leave alone, releasing leaves alone. -/
theorem release_preserves {R : H → H → Prop} (hrefl : ∀ host, R host host)
    (hset : ∀ host (l : TagLedger kind), R host (setLedger host l)) (host : H) (tag : Tag kind) :
    R host ((release tag).after host) := by
  unfold Action.after Action.outcome
  rw [release_eq]
  cases (ledger host : TagLedger kind).release tag with
  | ok released => exact hset host released
  | error e => exact hrefl host

/-! ### Related hosts -/

/-- A relation between hosts that the operations of a host keep. -/
structure Simulates (kind : TagKind) [TagHost H kind] [TagHost K kind] (R : H → K → Prop) :
    Prop where
  ledger : ∀ {host host'}, R host host' →
    (TagHost.ledger host' : TagLedger kind) = TagHost.ledger host
  setLedger : ∀ {host host'}, R host host' → ∀ l : TagLedger kind,
    R (TagHost.setLedger host l) (TagHost.setLedger host' l)
  sweep : ∀ {host host'}, R host host' →
    R (TagHost.sweep kind host) (TagHost.sweep kind host')

/-- Two runs answer the same and leave related hosts. -/
def Related {α : Type} (R : H → K → Prop) (x : EStateM.Result Fault H α)
    (y : EStateM.Result Fault K α) : Prop :=
  (∃ a host host', x = .ok a host ∧ y = .ok a host' ∧ R host host') ∨
  (∃ e host host', x = .error e host ∧ y = .error e host' ∧ R host host')

namespace Simulates

variable {R : H → K → Prop} {host : H} {host' : K}

/-- Hosts that simulate each other still do after both have made room. -/
theorem makeRoom (h : Simulates kind R) (hR : R host host') (i : Fin kind.capacity) :
    R (TagHost.makeRoom kind i host) (TagHost.makeRoom kind i host') := by
  unfold TagHost.makeRoom
  rw [h.ledger hR]
  split
  · have hset := h.setLedger (h.sweep hR)
      (TagHost.ledger (TagHost.sweep kind host) : TagLedger kind).restart
    rw [← h.ledger (h.sweep hR)] at hset
    simp only [restart]
    rwa [← h.ledger (h.sweep hR)]
  · exact hR

/-- Grants on hosts that simulate each other have the same outcome, and the hosts still do. -/
theorem grant_run (h : Simulates kind R) (hR : R host host') :
    Related R (grant kind host) (grant kind host') := by
  rw [grant_eq, grant_eq, h.ledger hR]
  cases (TagHost.ledger host : TagLedger kind).freeIndex with
  | none => exact .inr ⟨_, host, host', rfl, rfl, hR⟩
  | some i =>
      have hroom := h.makeRoom hR i
      simp only
      rw [h.ledger hroom]
      cases (TagHost.ledger (TagHost.makeRoom kind i host) : TagLedger kind).grant i with
      | ok answer => exact .inl ⟨_, _, _, rfl, rfl, h.setLedger hroom _⟩
      | error e => exact .inr ⟨e, _, _, rfl, rfl, hroom⟩

/-- Releases on hosts that simulate each other have the same outcome, and the hosts still do. -/
theorem release_run (h : Simulates kind R) (hR : R host host') (tag : Tag kind) :
    Related R (release tag host) (release tag host') := by
  rw [release_eq, release_eq, h.ledger hR]
  cases (TagHost.ledger host : TagLedger kind).release tag with
  | ok released => exact .inl ⟨(), _, _, rfl, rfl, h.setLedger hR released⟩
  | error e => exact .inr ⟨e, host, host', rfl, rfl, hR⟩

end Simulates

end TagHost

/-! ### Lawful hosts -/

/-- The ledger of a host is the one that was put there last, and a sweep leaves it alone. -/
class LawfulTagHost (H : Type) (kind : TagKind) [TagHost H kind] : Prop where
  ledger_setLedger : ∀ (host : H) (l : TagLedger kind),
    (TagHost.ledger (TagHost.setLedger host l) : TagLedger kind) = l
  ledger_sweep : ∀ host : H,
    (TagHost.ledger (TagHost.sweep kind host) : TagLedger kind) = TagHost.ledger host

namespace TagHost

variable {H : Type} {kind : TagKind} [TagHost H kind] [LawfulTagHost H kind]

/-- Making room restarts the ledger if the values of the index are used up, and else leaves it
alone. -/
theorem ledger_makeRoom (i : Fin kind.capacity) (host : H) :
    (ledger (makeRoom kind i host) : TagLedger kind) =
      if (ledger host : TagLedger kind).exhausted i then (ledger host : TagLedger kind).restart
      else ledger host := by
  unfold makeRoom
  split
  · rw [restart, LawfulTagHost.ledger_setLedger, LawfulTagHost.ledger_sweep]
  · rfl

/-- Making room leaves the tags in use alone. -/
theorem isLive_makeRoom (i : Fin kind.capacity) (host : H) (tag : Tag kind) :
    (ledger (makeRoom kind i host) : TagLedger kind).isLive tag =
      (ledger host : TagLedger kind).isLive tag := by
  rw [ledger_makeRoom]
  split
  · rw [TagLedger.isLive_restart]
  · rfl

/-- A grant at a free index. -/
theorem grant_run (host : H) (hsound : (ledger host : TagLedger kind).Sound) {i : Fin kind.capacity}
    (hfree : (ledger host : TagLedger kind).freeIndex = some i) :
    ∃ (tag : Tag kind) (granted : TagLedger kind),
      grant kind host = .ok tag (setLedger (makeRoom kind i host) granted) ∧
      granted.Sound ∧ tag.index = i ∧
      tag.value = getElem (ledger (makeRoom kind i host) : TagLedger kind).last i i.isLt + 1 ∧
      (∀ j : Fin kind.capacity, getElem granted.last j j.isLt =
        if j = i then tag.value
        else getElem (ledger (makeRoom kind i host) : TagLedger kind).last j j.isLt) ∧
      ∀ tag', granted.isLive tag' = true ↔
        tag' = tag ∨ (ledger host : TagLedger kind).isLive tag' = true := by
  have hused := TagLedger.used_of_freeIndex hfree
  have hroom : (ledger (makeRoom kind i host) : TagLedger kind).Sound ∧
      (ledger (makeRoom kind i host) : TagLedger kind).used[i] = false ∧
      (ledger (makeRoom kind i host) : TagLedger kind).exhausted i = false := by
    rw [ledger_makeRoom]
    split
    · exact ⟨hsound.restart, hused, TagLedger.exhausted_restart hused⟩
    · rename_i hleft
      exact ⟨hsound, hused, by simpa using hleft⟩
  obtain ⟨value, granted, hvalue, hrun, hgranted, hlast, hlive⟩ :=
    hroom.1.grant_run hroom.2.1 hroom.2.2
  refine ⟨⟨(ledger (makeRoom kind i host) : TagLedger kind).owner, i, value⟩, granted, ?_, hgranted,
    rfl, hvalue, hlast, fun tag' => ?_⟩
  · rw [grant_eq, hfree]
    simp only [hrun]
  · rw [hlive, isLive_makeRoom]

/-- All that a grant can do. -/
theorem of_grant {host host' : H} {tag : Tag kind} (hsound : (ledger host : TagLedger kind).Sound)
    (hrun : grant kind host = .ok tag host') :
    (ledger host : TagLedger kind).freeIndex = some tag.index ∧
    ∃ granted : TagLedger kind, host' = setLedger (makeRoom kind tag.index host) granted ∧
      granted.Sound ∧
      tag.value = getElem (ledger (makeRoom kind tag.index host) : TagLedger kind).last tag.index
        tag.index.isLt + 1 ∧
      (∀ j : Fin kind.capacity, getElem granted.last j j.isLt =
        if j = tag.index then tag.value
        else getElem (ledger (makeRoom kind tag.index host) : TagLedger kind).last j j.isLt) ∧
      ∀ tag', granted.isLive tag' = true ↔
        tag' = tag ∨ (ledger host : TagLedger kind).isLive tag' = true := by
  cases hfree : (ledger host : TagLedger kind).freeIndex with
  | none =>
      rw [grant_exhausted hfree] at hrun
      cases hrun
  | some i =>
      obtain ⟨tag', granted, hrun', hgranted, rfl, hvalue, hlast, hlive⟩ :=
        grant_run host hsound hfree
      rw [hrun'] at hrun
      cases hrun
      exact ⟨rfl, granted, rfl, hgranted, hvalue, hlast, hlive⟩

/-- A grant is refused only if all indices are in use. -/
theorem of_grant_error {host host' : H} {e : Fault}
    (hsound : (ledger host : TagLedger kind).Sound) (hrun : grant kind host = .error e host') :
    host' = host ∧ e = .tagsExhausted kind ∧
      (ledger host : TagLedger kind).freeIndex = none := by
  cases hfree : (ledger host : TagLedger kind).freeIndex with
  | none =>
      rw [grant_exhausted hfree] at hrun
      cases hrun
      exact ⟨rfl, rfl, rfl⟩
  | some i =>
      obtain ⟨tag, granted, hrun', -⟩ := grant_run host hsound hfree
      rw [hrun'] at hrun
      cases hrun

omit [LawfulTagHost H kind] in
/-- All that a release can do. -/
theorem of_release {host host' : H} {tag : Tag kind}
    (hsound : (ledger host : TagLedger kind).Sound) (hrun : release tag host = .ok () host') :
    (ledger host : TagLedger kind).isLive tag = true ∧
    ∃ released : TagLedger kind, host' = setLedger host released ∧ released.Sound ∧
      released.last = (ledger host : TagLedger kind).last ∧
      ∀ tag', released.isLive tag' = true ↔
        tag' ≠ tag ∧ (ledger host : TagLedger kind).isLive tag' = true := by
  cases hlive : (ledger host : TagLedger kind).isLive tag with
  | false =>
      rw [release_refused hlive] at hrun
      cases hrun
  | true =>
      obtain ⟨released, hrun', hreleased⟩ := release_run host hsound hlive
      rw [hrun'] at hrun
      cases hrun
      exact ⟨rfl, released, rfl, hreleased⟩

omit [LawfulTagHost H kind] in
/-- A release that is refused changes nothing. -/
theorem of_release_error {host host' : H} {tag : Tag kind} {e : Fault}
    (hrun : release tag host = .error e host') :
    host' = host ∧ (ledger host : TagLedger kind).isLive tag = false := by
  rw [release_eq] at hrun
  cases hlive : (ledger host : TagLedger kind).isLive tag with
  | false =>
      rw [TagLedger.release, if_neg (by simp [hlive])] at hrun
      cases hrun
      exact ⟨rfl, rfl⟩
  | true =>
      rw [TagLedger.release, if_pos hlive] at hrun
      cases hrun

/-- Granting keeps the values of the ledger within their bounds. -/
theorem sound_grant {host : H} (h : (ledger host : TagLedger kind).Sound) :
    (ledger ((grant kind).after host) : TagLedger kind).Sound := by
  cases hfree : (ledger host : TagLedger kind).freeIndex with
  | none => rwa [Action.after_of_error (grant_exhausted hfree)]
  | some i =>
      obtain ⟨tag, granted, hrun, hgranted, -⟩ := grant_run host h hfree
      rwa [Action.after_of_ok hrun, LawfulTagHost.ledger_setLedger]

/-- Releasing keeps the values of the ledger within their bounds. -/
theorem sound_release {host : H} (h : (ledger host : TagLedger kind).Sound) (tag : Tag kind) :
    (ledger ((release tag).after host) : TagLedger kind).Sound := by
  cases hlive : (ledger host : TagLedger kind).isLive tag with
  | false => rwa [Action.after_of_error (release_refused hlive)]
  | true =>
      obtain ⟨released, hrun, hreleased, -⟩ := release_run host h hlive
      rwa [Action.after_of_ok hrun, LawfulTagHost.ledger_setLedger]

end TagHost

end SlabGraph
