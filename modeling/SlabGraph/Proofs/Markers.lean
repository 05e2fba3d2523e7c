import SlabGraph.Proofs.History.TagRuns

/-!
# Markers

A marker splits the nodes and edges of a graph into those that carry it and those that do not,
and nothing but marking and unmarking moves an entity from one side to the other. This is said
here of all runs of calls on a new graph, in terms of the history: an entity carries a
marker in use exactly if it was marked with it after both the grant of the marker and the
creation of the entity, and not unmarked since (`Recorded.MarkersFaithful`). How often the values
of an index have started over, and how often a slot was given out again, does not matter.

The raw calls are left out, since they may put any stamps into an entity.

## Main definitions

* `Recorded.MarkersFaithful`.

## Main results

* `Call.markersFaithful_runAll`.
-/

namespace SlabGraph

variable {N E : Type}

/-! ### Answers -/

namespace Graph

variable {g : Graph N E} {V : View N E}

/-- A marker in use passes the check. -/
theorem Holds.checkMarker_run (h : Holds g V) {marker : Marker}
    (huse : V.markers.isLive marker = true) : g.checkTag marker = .ok () := by
  rw [h.shown.markers] at huse
  exact checkTag_run huse

/-- Whether an entity is marked can be read off its tags. -/
theorem Holds.isMarked_run {kind : EntityKind} (h : Holds g V) {x : Handle kind}
    {area : TagArea} {marker : Marker} (hx : V.area? x = some area)
    (huse : V.markers.isLive marker = true) :
    isMarked x marker g = .ok (area.marks.isMarked marker) := by
  simp [isMarked, h.checkMarker_run huse, rawIsMarked, h.area_run hx, pure, Except.pure]

/-- Marking an entity answers whether it was unmarked, and sets the marker in its tags. -/
theorem Holds.mark_run {kind : EntityKind} (h : Holds g V) {x : Handle kind} {area : TagArea}
    {marker : Marker} (hx : V.area? x = some area) (huse : V.markers.isLive marker = true) :
    ∃ g', mark x marker g = .ok (!area.marks.isMarked marker) g' ∧
      Holds g' (V.setArea { area with marks := (area.marks.mark marker).2 } x) := by
  have hchange : TagArea.mark marker area = .ok (!area.marks.isMarked marker,
      { area with marks := (area.marks.mark marker).2 }) := rfl
  obtain ⟨g', hrun, h'⟩ := h.onArea_run hx hchange
  exact ⟨g', by simp [mark, h.checkMarker_run huse, rawMark, hrun], h'⟩

/-- Unmarking an entity answers whether it was marked, and clears the marker in its tags. -/
theorem Holds.unmark_run {kind : EntityKind} (h : Holds g V) {x : Handle kind} {area : TagArea}
    {marker : Marker} (hx : V.area? x = some area) (huse : V.markers.isLive marker = true) :
    ∃ g', unmark x marker g = .ok (area.marks.isMarked marker) g' ∧
      Holds g' (V.setArea { area with marks := (area.marks.unmark marker).2 } x) := by
  have hchange : TagArea.unmark marker area = .ok (area.marks.isMarked marker,
      { area with marks := (area.marks.unmark marker).2 }) := by
    rw [← Marks.fst_unmark]
    rfl
  obtain ⟨g', hrun, h'⟩ := h.onArea_run hx hchange
  exact ⟨g', by simp [unmark, h.checkMarker_run huse, rawUnmark, hrun], h'⟩

end Graph

/-! ### Markers and the set of what is marked -/

/-- Whether a call is to change the mark of a marker on an entity. -/
def Call.Marks (x : AnyHandle) (marker : Marker) : Call N E → Prop
  | @mark _ _ kind y marker' | @unmark _ _ kind y marker' => x = ⟨kind, y⟩ ∧ marker = marker'
  | _ => False

/-- Only such a call puts something under a marker. -/
theorem Call.puts_of_not_marks {call : Call N E} {x : AnyHandle} {marker : Marker}
    (h : ¬ call.Marks x marker) (deed : Deed N E) (what : Option Nat) (hmay : call.MayWrite deed) :
    deed.puts? .marker ≠ some (x, marker, what) := by
  intro hputs
  cases deed with
  | mark y marker' | unmark y marker' =>
      cases hputs
      cases call <;> simp_all [MayWrite, Marks]
  | _ => cases hputs

namespace Recorded

/-- The markers of a graph are what its history says, and every call keeps them so. -/
structure MarkersFaithful (r : Recorded N E) : Prop where
  /-- A live entity carries a marker in use exactly if it was marked since the grant of the
  marker and the creation of the entity, and not unmarked since. -/
  isMarked : ∀ {kind : EntityKind} (x : Handle kind) (marker : Marker),
    r.graph.contains x = true → marker ∈ History.markers r.history →
    ∃ answer, Graph.isMarked x marker r.graph = .ok answer ∧
      (answer = true ↔ History.Marked marker ⟨kind, x⟩ r.history)
  /-- Marking answers whether the entity was not marked before. -/
  mark : ∀ {kind : EntityKind} (x : Handle kind) (marker : Marker),
    r.graph.contains x = true → marker ∈ History.markers r.history →
    ∃ answer r', Recorded.mark x marker r = .ok answer r' ∧
      (answer = true ↔ ¬ History.Marked marker ⟨kind, x⟩ r.history) ∧
      Graph.isMarked x marker r'.graph = .ok true
  /-- Unmarking answers whether the entity was marked before. -/
  unmark : ∀ {kind : EntityKind} (x : Handle kind) (marker : Marker),
    r.graph.contains x = true → marker ∈ History.markers r.history →
    ∃ answer r', Recorded.unmark x marker r = .ok answer r' ∧
      (answer = true ↔ History.Marked marker ⟨kind, x⟩ r.history) ∧
      Graph.isMarked x marker r'.graph = .ok false
  /-- Markers in use have different indices. -/
  indices : ((History.markers r.history).map Tag.index).Nodup
  /-- A grant is refused exactly if 15 markers are in use, and then changes nothing. -/
  refused : ∀ e r', Recorded.newMarker r = .error e r' ↔
    (History.markers r.history).length = 15 ∧ e = .tagsExhausted .marker ∧ r' = r
  /-- A marker that was granted is in use, was not before, and marks no entity. -/
  granted : ∀ marker r', Recorded.newMarker r = .ok marker r' →
    History.markers r'.history = marker :: History.markers r.history ∧
    marker ∉ History.markers r.history ∧
    ∀ {kind : EntityKind} (x : Handle kind), r'.graph.contains x = true →
      Graph.isMarked x marker r'.graph = .ok false
  /-- An entity that a call has created carries no marker. -/
  created : ∀ (call : Call N E) {kind : EntityKind} (x : Handle kind) (marker : Marker),
    r.graph.contains x = false → (call.run.after r).graph.contains x = true →
    marker ∈ History.markers (call.run.after r).history →
    Graph.isMarked x marker (call.run.after r).graph = .ok false
  /-- A call that does not name both the entity and the marker does not change the mark. -/
  kept : ∀ (call : Call N E) {kind : EntityKind} (x : Handle kind) (marker : Marker),
    ¬ call.Marks ⟨kind, x⟩ marker →
    r.graph.contains x = true → (call.run.after r).graph.contains x = true →
    marker ∈ History.markers r.history → marker ∈ History.markers (call.run.after r).history →
    Graph.isMarked x marker (call.run.after r).graph = Graph.isMarked x marker r.graph

variable {r : Recorded N E} {V : View N E} {kind : EntityKind} {x : Handle kind}
  {marker : Marker}

/-- What a graph answers that agrees with its history. -/
theorem isMarked_run (h : Graph.Holds r.graph V) (ha : V.TagsAgree .marker r.history)
    (hx : r.graph.contains x = true) (hm : marker ∈ History.tags .marker r.history) :
    Graph.isMarked x marker r.graph =
      .ok (History.carried? marker ⟨kind, x⟩ r.history).isSome := by
  obtain ⟨area, harea, -, hcarried⟩ := exists_carried h ha hx hm
  rw [h.isMarked_run harea ((ha.inUse marker).1 hm), TagArea.isMarked_eq, hcarried]

/-- Marking answers whether the entity was not marked, and leaves it marked. -/
theorem mark_run (h : Graph.Holds r.graph V) (ha : V.TagsAgree .marker r.history)
    (hx : r.graph.contains x = true) (hm : marker ∈ History.tags .marker r.history) :
    ∃ r', Recorded.mark x marker r =
        .ok (!(History.carried? marker ⟨kind, x⟩ r.history).isSome) r' ∧
      Graph.isMarked x marker r'.graph = .ok true := by
  obtain ⟨area, harea, -, hcarried⟩ := exists_carried h ha hx hm
  have huse := (ha.inUse marker).1 hm
  obtain ⟨g', hrun, h'⟩ := h.mark_run harea huse
  let deed : Deed N E := .mark ⟨kind, x⟩ marker
  have hputs : deed.puts? .marker = some (⟨kind, x⟩, marker, some 0) := rfl
  have ha' := ha.put huse harea (area.puts_mark marker) hputs
  rw [← hcarried, ← TagArea.isMarked_eq]
  refine ⟨⟨g', deed :: r.history⟩, by simp [Recorded.mark, act, hrun, deed], ?_⟩
  rw [isMarked_run (r := ⟨g', deed :: r.history⟩) h' ha' (h'.contains_of_setArea harea) hm,
    History.carried?_cons_of_puts? hputs, if_pos ⟨rfl, rfl⟩]
  rfl

/-- Unmarking answers whether the entity was marked, and leaves it unmarked. -/
theorem unmark_run (h : Graph.Holds r.graph V) (ha : V.TagsAgree .marker r.history)
    (hx : r.graph.contains x = true) (hm : marker ∈ History.tags .marker r.history) :
    ∃ r', Recorded.unmark x marker r =
        .ok (History.carried? marker ⟨kind, x⟩ r.history).isSome r' ∧
      Graph.isMarked x marker r'.graph = .ok false := by
  obtain ⟨area, harea, -, hcarried⟩ := exists_carried h ha hx hm
  have huse := (ha.inUse marker).1 hm
  obtain ⟨g', hrun, h'⟩ := h.unmark_run harea huse
  let deed : Deed N E := .unmark ⟨kind, x⟩ marker
  have hputs : deed.puts? .marker = some (⟨kind, x⟩, marker, none) := rfl
  have ha' := ha.put huse harea (area.puts_unmark marker (ha.sound.value_pos huse)) hputs
  rw [← hcarried, ← TagArea.isMarked_eq]
  refine ⟨⟨g', deed :: r.history⟩, by simp [Recorded.unmark, act, hrun, deed], ?_⟩
  rw [isMarked_run (r := ⟨g', deed :: r.history⟩) h' ha' (h'.contains_of_setArea harea) hm,
    History.carried?_cons_of_puts? hputs, if_pos ⟨rfl, rfl⟩]
  rfl

/-- What granting a marker does: with 15 markers in use it is refused, and else it is not. -/
theorem newMarker_cases (h : Graph.Holds r.graph V) (ha : V.TagsAgree .marker r.history) :
    ((History.markers r.history).length = 15 ∧
      Recorded.newMarker r = .error (.tagsExhausted .marker) r) ∨
    ((History.markers r.history).length ≠ 15 ∧ ∃ marker r' V',
      Recorded.newMarker r = .ok marker r' ∧ r'.history = .grantMarker marker :: r.history ∧
      Graph.Holds r'.graph V' ∧ V'.TagsAgree .marker r'.history) := by
  have hdeeds : ∀ marker : Marker, ∃ deed : Deed N E,
      [.grantMarker marker] = [deed] ∧ deed.grants? .marker = some marker :=
    fun marker => ⟨.grantMarker marker, rfl, rfl⟩
  rw [History.markers_eq_tags]
  rcases grant_cases h ha hdeeds with
    ⟨hlen, hrun⟩ | ⟨hlen, marker, r', V', hrun, hhistory, -, h', ha'⟩
  · exact .inl ⟨hlen, hrun⟩
  · exact .inr ⟨hlen, marker, r', V', hrun, hhistory, h', ha'⟩

/-- A graph that agrees with its history about markers is faithful about them. -/
theorem markersFaithful (h : Graph.Holds r.graph V) (ha : V.TagsAgree .marker r.history) :
    r.MarkersFaithful where
  isMarked {kind} x marker hx hm := by
    rw [History.markers_eq_tags] at hm
    exact ⟨_, isMarked_run h ha hx hm, (History.marked_iff marker ⟨kind, x⟩ r.history).symm⟩
  mark {kind} x marker hx hm := by
    rw [History.markers_eq_tags] at hm
    obtain ⟨r', hrun, hmarked⟩ := mark_run h ha hx hm
    exact ⟨_, r', hrun, by simp [History.marked_iff], hmarked⟩
  unmark {kind} x marker hx hm := by
    rw [History.markers_eq_tags] at hm
    obtain ⟨r', hrun, hmarked⟩ := unmark_run h ha hx hm
    exact ⟨_, r', hrun, (History.marked_iff marker ⟨kind, x⟩ r.history).symm, hmarked⟩
  indices := by
    rw [History.markers_eq_tags]
    exact nodup_indices ha
  refused e r' := by
    rcases newMarker_cases h ha with ⟨hlen, hrun⟩ | ⟨hlen, marker, s, V', hrun, -⟩
    · rw [hrun]
      simp [hlen, eq_comm]
    · rw [hrun]
      simp [hlen]
  granted marker r' hgranted := by
    rcases newMarker_cases h ha with ⟨-, hrun⟩ | ⟨-, marker', s, V', hrun, hhistory, h', ha'⟩
    · rw [hgranted] at hrun
      cases hrun
    · rw [hgranted] at hrun
      cases hrun
      -- the marker is new to the tags in use, or it would stand among them twice
      have hnodup := ha'.nodup
      rw [← History.markers_eq_tags, hhistory, History.markers] at hnodup
      refine ⟨by rw [hhistory, History.markers], (List.nodup_cons.1 hnodup).1, fun x hx => ?_⟩
      have hm : marker ∈ History.tags .marker r'.history := by
        rw [← History.markers_eq_tags, hhistory]
        exact List.mem_cons_self
      rw [isMarked_run h' ha' hx hm, hhistory, History.carried?_cons_of_new (.inl rfl)]
      rfl
  created call {kind} x marker hold hnew hm := by
    rw [History.markers_eq_tags] at hm
    obtain ⟨V', -, h', ha', -⟩ := call.tagsAgree_run h ha
    rw [isMarked_run h' ha' hnew hm, carried?_of_created h ha call hold hnew]
    rfl
  kept call {kind} x marker hother hx hx' hm hm' := by
    rw [History.markers_eq_tags] at hm hm'
    obtain ⟨V', -, h', ha', -⟩ := call.tagsAgree_run h ha
    rw [isMarked_run h ha hx hm, isMarked_run h' ha' hx' hm',
      carried?_after h ha (Call.puts_of_not_marks hother) hx hm]

end Recorded

namespace Call

/-- After any run of calls on a new graph, the markers are what the history says. -/
theorem markersFaithful_runAll {config : GraphConfig} {supply supply' : IdSupply}
    {g : Graph N E} (hg : Graph.ofConfig config supply = .ok g supply')
    (calls : List (Call N E)) : (runAll calls ⟨g, []⟩).MarkersFaithful := by
  obtain ⟨V, h, ha⟩ := tagsAgree_runAll calls (r := ⟨g, []⟩) (Graph.ofConfig_holds hg)
    (View.tagsAgree_blank_markers _ _ _ _ _)
  exact Recorded.markersFaithful h ha

/-- A marked node is deleted, and its slot is given to another one. -/
def remark : List (Call Nat Nat) :=
  let node : NodeHandle := ⟨⟨0⟩, 0, ⟨0, 0⟩⟩
  [.newMarker, .newNode 5, .mark node ⟨0, ⟨0, by decide⟩, 1⟩, .deleteNode node, .newNode 6]

/-- A node is marked and deleted, and another one in its slot is not marked. -/
theorem markersFaithful_runAll_remark :
    (Graph.ofConfig ⟨1, 1⟩ {} : EStateM.Result Fault IdSupply _) = .ok smallest ⟨1, 2⟩ ∧
    (Graph.isMarked (⟨⟨0⟩, 1, ⟨0, 0⟩⟩ : NodeHandle) ⟨0, ⟨0, by decide⟩, 1⟩
      (runAll remark ⟨smallest, []⟩).graph).toOption = some false ∧
    (runAll remark ⟨smallest, []⟩).MarkersFaithful := by
  have hnew : (Graph.ofConfig ⟨1, 1⟩ {} : EStateM.Result Fault IdSupply _) =
      .ok smallest ⟨1, 2⟩ := rfl
  exact ⟨hnew, by decide +kernel, markersFaithful_runAll hnew remark⟩

end Call

end SlabGraph
