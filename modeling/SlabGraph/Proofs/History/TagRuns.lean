import SlabGraph.Proofs.History.Tags
import SlabGraph.Proofs.History.Writes

/-!
# Tags after Calls

After any run of calls on a new graph, the graph agrees with its history about the tags of each
kind (`Call.tagsAgree_runAll`). So what a live entity carries under a tag in use can be read off the
history. Seen from one call, an entity that it creates carries nothing, and what an entity carries
under a tag changes only by a call that puts something there.

## Main definitions

* `MovesTags`: all moves are steps for the tags of a kind.

## Main results

* `Call.tagsAgree_run`, `Call.tagsAgree_runAll`;
* `Recorded.grant_cases`: a grant is refused exactly if all indices are in use;
* `Recorded.exists_carried`, `Recorded.carried?_of_created`, `Recorded.carried?_after`.
-/

namespace SlabGraph

variable {N E : Type}

/-- Every move is a step for the tags of a kind, and graphs simulate their views. -/
class MovesTags (N E : Type) (kind : TagKind) [TagHost (Graph N E) kind]
    [TagHost (View N E) kind] : Prop extends BearsTags N E kind where
  simulates : TagHost.Simulates kind (Graph.Holds (N := N) (E := E))
  step : ∀ {V V' : View N E} {deeds : History N E}, Move V deeds V' →
    View.TagStep kind V deeds V'

instance : MovesTags N E .marker where
  simulates := Graph.Holds.simulates_marker
  step := Move.markerStep

instance : MovesTags N E .numeration where
  simulates := Graph.Holds.simulates_numeration
  step := Move.numStep

variable {kind : TagKind} [TagHost (Graph N E) kind] [TagHost (View N E) kind]
  [MovesTags N E kind] {r : Recorded N E} {V V' : View N E}

/-! ### Agreement -/

/-- Every move keeps a view in agreement with its history. -/
theorem View.TagsAgree.move {deeds past : History N E} (ha : V.TagsAgree kind past)
    (hmove : Move V deeds V') : V'.TagsAgree kind (deeds ++ past) :=
  ha.step (MovesTags.step hmove)

/-- A call takes a graph that agrees with its history to one that does. -/
theorem Call.tagsAgree_run (call : Call N E) (h : Graph.Holds r.graph V)
    (ha : V.TagsAgree kind r.history) :
    ∃ V' deeds, Graph.Holds (call.run.after r).graph V' ∧
      V'.TagsAgree kind (call.run.after r).history ∧
      (call.run.after r).history = deeds ++ r.history ∧ Moves V deeds V' ∧
      ∀ deed ∈ deeds, call.MayWrite deed := by
  obtain ⟨V', deeds, h', hhistory, hmoves⟩ := call.legal_run r V h
  obtain ⟨deeds', hhistory', hmay⟩ := call.writes_run r
  obtain rfl : deeds' = deeds := List.append_cancel_right (hhistory'.symm.trans hhistory)
  refine ⟨V', deeds', h', ?_, hhistory, hmoves, hmay⟩
  rw [hhistory]
  exact (hmoves.preserves h.consistent (fun _ hI hmove => hI.move hmove) ha).2

/-- Calls, one after another, keep a graph in agreement with its history. -/
theorem Call.tagsAgree_runAll (calls : List (Call N E)) (h : Graph.Holds r.graph V)
    (ha : V.TagsAgree kind r.history) : ∃ V', Graph.Holds (runAll calls r).graph V' ∧
      V'.TagsAgree kind (runAll calls r).history := by
  induction calls generalizing r V with
  | nil => exact ⟨V, h, ha⟩
  | cons call calls ih =>
      obtain ⟨V', -, h', ha', -⟩ := call.tagsAgree_run h ha
      exact ih h' ha'

/-- A new graph with the smallest chunks. -/
def Call.smallest : Graph Nat Nat where
  id := ⟨0⟩
  nodes := .new ⟨1, by decide, by decide⟩
  edges := .new ⟨1, by decide, by decide⟩
  markers := .ofOwner 0
  nums := .ofOwner 1

namespace Recorded

variable {entity : EntityKind} {x : Handle entity} {tag : Tag kind}

/-! ### Grants -/

omit [TagHost (Graph N E) kind] [MovesTags N E kind] in
/-- Tags in use have different indices. -/
theorem nodup_indices (ha : V.TagsAgree kind r.history) :
    ((History.tags kind r.history).map Tag.index).Nodup := by
  refine ha.nodup.map_on fun tag hm tag' hm' hindex => ?_
  exact TagLedger.eq_of_isLive ((ha.inUse tag).1 hm) ((ha.inUse tag').1 hm') hindex

/-- A grant is refused exactly if all indices are in use, and then changes nothing. -/
theorem grant_cases (h : Graph.Holds r.graph V) (ha : V.TagsAgree kind r.history)
    {deeds : Tag kind → History N E}
    (hdeeds : ∀ tag, ∃ deed : Deed N E, deeds tag = [deed] ∧ deed.grants? kind = some tag) :
    ((History.tags kind r.history).length = kind.capacity ∧
      act (TagHost.grant kind) deeds r = .error (.tagsExhausted kind) r) ∨
    ((History.tags kind r.history).length ≠ kind.capacity ∧ ∃ tag r' V',
      act (TagHost.grant kind) deeds r = .ok tag r' ∧
      r'.history = deeds tag ++ r.history ∧
      History.tags kind r'.history = tag :: History.tags kind r.history ∧
      Graph.Holds r'.graph V' ∧ V'.TagsAgree kind r'.history) := by
  have hfull := TagLedger.length_eq_capacity_iff ha.nodup ha.inUse
  rw [← TagLedger.freeIndex_eq_none_iff] at hfull
  have hsim : TagHost.Simulates kind (Graph.Holds (N := N) (E := E)) := MovesTags.simulates
  rcases hsim.grant_run h with ⟨tag, g', V', hg, hV, h'⟩ | ⟨e, g', V', hg, hV, -⟩
  · obtain ⟨deed, hdeed, hgrants⟩ := hdeeds tag
    refine .inr ⟨fun hlen => ?_, tag, ⟨g', deeds tag ++ r.history⟩, V', by simp [act, hg], rfl, ?_,
      h', ?_⟩
    · rw [TagHost.grant_exhausted (hfull.1 hlen)] at hV
      cases hV
    · rw [hdeed]
      exact History.tags_cons_of_grants? hgrants _
    · rw [hdeed]
      exact ha.grant hV hgrants
  · obtain ⟨-, -, hfree⟩ := TagHost.of_grant_error ha.sound hV
    rw [hsim.ledger h] at hfree
    refine .inl ⟨hfull.2 (by rw [hsim.ledger h, hfree]), ?_⟩
    simp [act, TagHost.grant_exhausted hfree]

/-! ### What is carried -/

/-- A live entity carries under a tag in use what the history says. -/
theorem exists_carried (h : Graph.Holds r.graph V) (ha : V.TagsAgree kind r.history)
    (hx : r.graph.contains x = true) (htag : tag ∈ History.tags kind r.history) :
    ∃ area, V.area? x = some area ∧
      (TagHost.ledger r.graph : TagLedger kind).isLive tag = true ∧
      area.carried? tag = History.carried? tag ⟨entity, x⟩ r.history := by
  have hsim : TagHost.Simulates kind (Graph.Holds (N := N) (E := E)) := MovesTags.simulates
  obtain ⟨area, harea⟩ := h.exists_area hx
  have huse := (ha.inUse tag).1 htag
  refine ⟨area, harea, ?_, ha.carried x area tag harea huse⟩
  rwa [hsim.ledger h] at huse

/-- An entity that a call has created carries nothing. -/
theorem carried?_of_created (h : Graph.Holds r.graph V) (ha : V.TagsAgree kind r.history)
    (call : Call N E) (hold : r.graph.contains x = false)
    (hnew : (call.run.after r).graph.contains x = true) (tag : Tag kind) :
    History.carried? tag ⟨entity, x⟩ (call.run.after r).history = none := by
  obtain ⟨V', deeds, h', -, hhistory, hmoves, hmay⟩ := call.tagsAgree_run h ha
  obtain ⟨area, hx⟩ := h'.exists_area hnew
  rw [h.contains_eq] at hold
  obtain ⟨deed, hdeed, hadds⟩ := hmoves.adds_of_area? hold hx
  rw [hhistory]
  refine History.carried?_append_of_adds (fun deed' hdeed' => ?_) ⟨deed, hdeed, hadds⟩ _
  exact (hmay deed hdeed).puts_of_adds (hmay deed' hdeed') hadds

/-- A call that puts nothing under a tag on an entity leaves alone what the entity carries. -/
theorem carried?_after (h : Graph.Holds r.graph V) (ha : V.TagsAgree kind r.history)
    {call : Call N E}
    (hother : ∀ deed what, call.MayWrite deed → deed.puts? kind ≠ some (⟨entity, x⟩, tag, what))
    (hx : r.graph.contains x = true) (htag : tag ∈ History.tags kind r.history) :
    History.carried? tag ⟨entity, x⟩ (call.run.after r).history =
      History.carried? tag ⟨entity, x⟩ r.history := by
  obtain ⟨V', deeds, h', ha', hhistory, hmoves, hmay⟩ := call.tagsAgree_run h ha
  have hnodup := ha'.nodup
  rw [hhistory] at hnodup ⊢
  rw [h.contains_eq] at hx
  refine History.carried?_append (fun deed hdeed hgrants => ?_)
    (hmoves.not_adds_of_lt (h.consistent.uid_lt_next hx)).2
    (fun deed hdeed what => hother deed what (hmay deed hdeed)) _
  -- a call that grants takes nothing back, so the tag would be in use twice
  have hfrees : ∀ deed' ∈ deeds, deed'.frees? kind = none := by
    intro deed' hdeed'
    cases hfrees : deed'.frees? kind with
    | none => rfl
    | some freed =>
        have hnone := (hmay deed' hdeed').grants_of_frees (hmay deed hdeed) hfrees
        rw [hgrants] at hnone
        cases hnone
  rw [History.tags_append hfrees] at hnodup
  have hgranted : tag ∈ deeds.filterMap (Deed.grants? kind) :=
    List.mem_filterMap.2 ⟨deed, hdeed, hgrants⟩
  exact (List.nodup_append'.1 hnodup).2.2 hgranted htag

end Recorded

end SlabGraph
