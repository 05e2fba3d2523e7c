import SlabGraph.Proofs.History.Calls
import SlabGraph.Proofs.History.Moves

/-!
# Calls are Moves

Every call, with any handles, tags and values, takes a graph that holds a consistent view to
one that holds a consistent view, by a sequence of moves whose deeds are those that were
written down (`Call.legal_run`). A call that fails does so by moves without deeds, which is
where the ids that a failed creation uses up are accounted for.

This is the one place where the calls are gone through. What holds of all moves holds after
every run of calls.

## Main results

* `Recorded.Legal`, with `Recorded.Legal.bind` and `Recorded.legal_act`;
* `Call.legal_run`;
* `RawCall.retags`.
-/

namespace SlabGraph

namespace Recorded

variable {N E α β : Type}

/-- An action takes a consistent view to a consistent view, by moves with the deeds that it
writes down. -/
def Legal (x : Action (Recorded N E) α) : Prop :=
  ∀ r V, Graph.Holds r.graph V → ∃ V' deeds, Graph.Holds (x.after r).graph V' ∧
    (x.after r).history = deeds ++ r.history ∧ Moves V deeds V'

/-- An answer without an action is legal. -/
theorem Legal.pure (a : α) : Legal (pure a : Action (Recorded N E) α) :=
  fun _ V h => ⟨V, [], h, rfl, .none⟩

/-- Reading is legal. -/
theorem Legal.read (f : Recorded N E → Except Fault α) : Legal (Action.read f) := by
  intro r V h
  refine ⟨V, [], ?_, ?_, .none⟩ <;> cases hf : f r <;>
    simp [Action.after, Action.outcome, hf, h]

/-- Legal actions in a row are legal. -/
theorem Legal.bind {x : Action (Recorded N E) α} {f : α → Action (Recorded N E) β}
    (hx : Legal x) (hf : ∀ a, Legal (f a)) : Legal (x >>= f) := by
  intro r V h
  obtain ⟨V₁, deeds₁, h₁, hhistory₁, hmoves₁⟩ := hx r V h
  cases hrun : x r with
  | error e s =>
      rw [Action.after_of_error hrun] at h₁ hhistory₁
      have hafter : (x >>= f).after r = s := Action.after_of_error (e := e) (by simp [hrun])
      rw [hafter]
      exact ⟨V₁, deeds₁, h₁, hhistory₁, hmoves₁⟩
  | ok a s =>
      rw [Action.after_of_ok hrun] at h₁ hhistory₁
      have hafter : (x >>= f).after r = (f a).after s := by
        simp [Action.after, Action.outcome, hrun]
      obtain ⟨V₂, deeds₂, h₂, hhistory₂, hmoves₂⟩ := hf a s V₁ h₁
      rw [hafter]
      refine ⟨V₂, deeds₂ ++ deeds₁, h₂, ?_, hmoves₁.trans hmoves₂⟩
      rw [hhistory₂, hhistory₁, List.append_assoc]

/-- What an action on the graph has to do for its recorded form to be legal. -/
def Moving (x : Action (Graph N E) α) (deeds : α → History N E) : Prop :=
  ∀ g V, Graph.Holds g V →
    (∃ a g' V', x g = .ok a g' ∧ Graph.Holds g' V' ∧ Moves V (deeds a) V') ∨
    (∃ e g' V', x g = .error e g' ∧ Graph.Holds g' V' ∧ Moves V [] V')

/-- An action on the graph that moves its view is legal in its recorded form. -/
theorem legal_act {x : Action (Graph N E) α} {deeds : α → History N E} (h : Moving x deeds) :
    Legal (act x deeds) := by
  intro r V hr
  rcases h r.graph V hr with ⟨a, g', V', hrun, h', hmoves⟩ | ⟨e, g', V', hrun, h', hmoves⟩
  · have hafter : (act x deeds).after r = ⟨g', deeds a ++ r.history⟩ :=
      Action.after_of_ok (a := a) (by simp [act, hrun])
    exact ⟨V', deeds a, by rw [hafter]; exact h', by rw [hafter], hmoves⟩
  · have hafter : (act x deeds).after r = ⟨g', r.history⟩ :=
      Action.after_of_error (e := e) (by simp [act, hrun])
    exact ⟨V', [], by rw [hafter]; exact h', by rw [hafter]; rfl, hmoves⟩

/-- A refusal that leaves the graph as it was. -/
theorem refused {x : Action (Graph N E) α} {deeds : α → History N E} {g : Graph N E}
    {V : View N E} (h : Graph.Holds g V) (hx : ∃ e, x g = .error e g) :
    (∃ a g' V', x g = .ok a g' ∧ Graph.Holds g' V' ∧ Moves V (deeds a) V') ∨
    (∃ e g' V', x g = .error e g' ∧ Graph.Holds g' V' ∧ Moves V [] V') := by
  obtain ⟨e, he⟩ := hx
  exact .inr ⟨e, g, V, he, h, .none⟩

/-! ### Structure -/

/-- Adding a node is legal. If the pool is full, an id is used up without a deed. -/
theorem legal_newNode (data : N) : Legal (newNode data : Action (Recorded N E) NodeHandle) := by
  refine legal_act fun g V h => ?_
  rcases h.newNode_run data with ⟨p, g', hrun, hfree, h'⟩ | ⟨hrun, -⟩ | ⟨g', hrun, -, h'⟩
  · exact .inl ⟨_, g', _, hrun, h', .single (.addNode p data hfree)⟩
  · exact .inr ⟨_, g, V, hrun, h, .none⟩
  · exact .inr ⟨_, g', _, hrun, h', .single .skipNode⟩

/-- Adding an edge is legal, also between handles that are not live. -/
theorem legal_newEdge (pred succ : NodeHandle) (data : E) :
    Legal (newEdge pred succ data : Action (Recorded N E) EdgeHandle) := by
  refine legal_act fun g V h => ?_
  cases hup : V.nodes.find? V.id pred with
  | none => exact refused h (h.newEdge_refused data (.inl hup))
  | some a =>
      cases hdown : V.nodes.find? V.id succ with
      | none => exact refused h (h.newEdge_refused data (.inr hdown))
      | some b =>
          rcases h.newEdge_run hup hdown data with
            ⟨p, g', hrun, hfree, h'⟩ | ⟨hrun, -⟩ | ⟨g', hrun, -, h'⟩
          · exact .inl ⟨_, g', _, hrun, h', .single (.addEdge p pred succ data hup hdown hfree)⟩
          · exact .inr ⟨_, g, V, hrun, h, .none⟩
          · exact .inr ⟨_, g', _, hrun, h', .single .skipEdge⟩

/-- Removing a node is legal. -/
theorem legal_deleteNode (node : NodeHandle) :
    Legal (deleteNode node : Action (Recorded N E) N) := by
  refine legal_act fun g V h => ?_
  cases hlive : V.nodes.find? V.id node with
  | none => exact refused h (h.deleteNode_refused hlive)
  | some b =>
      obtain ⟨g', hrun, h'⟩ := h.deleteNode_run hlive
      exact .inl ⟨_, g', _, hrun, h', .single (.removeNode node hlive)⟩

/-- Removing an edge is legal. -/
theorem legal_deleteEdge (edge : EdgeHandle) :
    Legal (deleteEdge edge : Action (Recorded N E) E) := by
  refine legal_act fun g V h => ?_
  cases hlive : V.edges.find? V.id edge with
  | none => exact refused h (h.deleteEdge_refused hlive)
  | some b =>
      obtain ⟨g', hrun, h'⟩ := h.deleteEdge_run hlive
      exact .inl ⟨_, g', _, hrun, h', .single (.removeEdge edge hlive)⟩

/-- Clearing a graph is legal. -/
theorem legal_clear : Legal (clear : Action (Recorded N E) Unit) := by
  refine legal_act fun g V h => ?_
  obtain ⟨g', hrun, h'⟩ := h.clear_run
  exact .inl ⟨_, g', _, hrun, h', .single .clear⟩

/-- Retargeting an edge is legal. -/
theorem legal_setEnd (edge : EdgeHandle) (dir : Direction) (node : NodeHandle) :
    Legal (setEnd edge dir node : Action (Recorded N E) Unit) := by
  refine legal_act fun g V h => ?_
  cases hlive : V.edges.find? V.id edge with
  | none => exact refused h (h.setEnd_refused dir (.inl hlive))
  | some b =>
      cases htarget : V.nodes.find? V.id node with
      | none => exact refused h (h.setEnd_refused dir (.inr htarget))
      | some c =>
          obtain ⟨g', hrun, h'⟩ := h.setEnd_run hlive htarget dir
          exact .inl ⟨_, g', _, hrun, h', .single (.moveEnd edge dir node hlive htarget)⟩

/-- Splitting an edge is legal, since each of its three steps is, whichever of them fails. -/
theorem legal_insertNode (edge : EdgeHandle) (nodeData : N) (edgeData : E) :
    Legal (insertNode edge nodeData edgeData : Action (Recorded N E) NodeHandle) := by
  refine (Legal.read _).bind fun succ => (legal_newNode nodeData).bind fun node => ?_
  refine (legal_setEnd edge .down node).bind fun _ => ?_
  exact (legal_newEdge node succ edgeData).bind fun _ => Legal.pure node

/-! ### Payloads -/

/-- Writing the payload of a node is legal. -/
theorem legal_updateNode (node : NodeHandle) (f : N → N) :
    Legal (updateNode node f : Action (Recorded N E) N) := by
  refine legal_act fun g V h => ?_
  cases hlive : V.nodes.find? V.id node with
  | none => exact refused h (h.updateNode_refused f hlive)
  | some b =>
      obtain ⟨g', hrun, h'⟩ := h.updateNode_run hlive f
      exact .inl ⟨_, g', _, hrun, h', .single (.writeNode node f hlive)⟩

/-- Writing the payload of a node that need not be live is legal. -/
theorem legal_updateNode? (node : NodeHandle) (f : N → N) :
    Legal (updateNode? node f : Action (Recorded N E) (Option N)) := by
  refine legal_act fun g V h => ?_
  have hcontains := h.containsNode_eq node
  cases hlive : V.nodes.find? V.id node with
  | none => exact .inl ⟨none, g, V, by simp [Graph.updateNode?, hcontains, hlive], h, .none⟩
  | some b =>
      obtain ⟨g', hrun, h'⟩ := h.updateNode_run hlive f
      exact .inl ⟨some b.data, g', _, by simp [Graph.updateNode?, hcontains, hlive, hrun], h',
        .single (.writeNode node f hlive)⟩

/-- Writing the payload of an edge is legal. -/
theorem legal_updateEdge (edge : EdgeHandle) (f : E → E) :
    Legal (updateEdge edge f : Action (Recorded N E) E) := by
  refine legal_act fun g V h => ?_
  cases hlive : V.edges.find? V.id edge with
  | none => exact refused h (h.updateEdge_refused f hlive)
  | some b =>
      obtain ⟨g', hrun, h'⟩ := h.updateEdge_run hlive f
      exact .inl ⟨_, g', _, hrun, h', .single (.writeEdge edge f hlive)⟩

/-- Writing the payload of an edge that need not be live is legal. -/
theorem legal_updateEdge? (edge : EdgeHandle) (f : E → E) :
    Legal (updateEdge? edge f : Action (Recorded N E) (Option E)) := by
  refine legal_act fun g V h => ?_
  have hcontains := h.containsEdge_eq edge
  cases hlive : V.edges.find? V.id edge with
  | none => exact .inl ⟨none, g, V, by simp [Graph.updateEdge?, hcontains, hlive], h, .none⟩
  | some b =>
      obtain ⟨g', hrun, h'⟩ := h.updateEdge_run hlive f
      exact .inl ⟨some b.data, g', _, by simp [Graph.updateEdge?, hcontains, hlive, hrun], h',
        .single (.writeEdge edge f hlive)⟩

/-! ### Tags -/

/-- Granting on a graph is granting on its view. -/
theorem legal_grant {kind : TagKind} [TagHost (Graph N E) kind] [TagHost (View N E) kind]
    {deeds : Tag kind → History N E}
    (hsim : TagHost.Simulates kind (Graph.Holds (N := N) (E := E)))
    (hok : ∀ {V V' : View N E} {tag : Tag kind}, TagHost.grant kind V = .ok tag V' →
      Move V (deeds tag) V')
    (herror : ∀ {V V' : View N E} {e : Fault}, TagHost.grant kind V = .error e V' →
      Move V [] V') : Legal (act (TagHost.grant kind) deeds) := by
  refine legal_act fun g V h => ?_
  rcases hsim.grant_run h with ⟨tag, g', V', hg, hV, h'⟩ | ⟨e, g', V', hg, hV, h'⟩
  · exact .inl ⟨tag, g', V', hg, h', .single (hok hV)⟩
  · exact .inr ⟨e, g', V', hg, h', .single (herror hV)⟩

/-- Releasing on a graph is releasing on its view. -/
theorem legal_release {kind : TagKind} [TagHost (Graph N E) kind] [TagHost (View N E) kind]
    {deeds : Unit → History N E} (tag : Tag kind)
    (hsim : TagHost.Simulates kind (Graph.Holds (N := N) (E := E)))
    (hok : ∀ {V V' : View N E}, TagHost.release tag V = .ok () V' → Move V (deeds ()) V') :
    Legal (act (TagHost.release tag) deeds) := by
  refine legal_act fun g V h => ?_
  rcases hsim.release_run h tag with ⟨_, g', V', hg, hV, h'⟩ | ⟨e, g', V', hg, hV, h'⟩
  · exact .inl ⟨(), g', V', hg, h', .single (hok hV)⟩
  · -- a refused release leaves the view as it was
    have hsame : V' = V := by
      rw [TagHost.release_eq] at hV
      split at hV
      · cases hV
      · cases hV
        rfl
    exact .inr ⟨e, g', V, hg, hsame ▸ h', .none⟩

/-- A checked change of the stamps of an entity. -/
theorem legal_checked {tagKind : TagKind} [TagHost (Graph N E) tagKind] {kind : EntityKind}
    {x : Handle kind} {tag : Tag tagKind} {change : TagArea → Except Fault (α × TagArea)}
    {deeds : α → History N E}
    (hmove : ∀ {g : Graph N E} {V : View N E}, Graph.Holds g V →
      (TagHost.ledger g : TagLedger tagKind).isLive tag = true →
      ∀ area, V.area? x = some area → ∀ answer area', change area = .ok (answer, area') →
        Move V (deeds answer) (V.setArea area' x)) :
    Legal (act (do
      Action.read (·.checkTag tag)
      Graph.onArea x change) deeds) := by
  refine legal_act fun g V h => ?_
  by_cases huse : (TagHost.ledger g : TagLedger tagKind).isLive tag = true
  swap
  · exact refused h ⟨.tagNotInUse tag g.id, by simp [Graph.checkTag, huse]⟩
  rcases h.onArea_cases x change with
    ⟨area, answer, g', hx, hchange, hrun, h'⟩ | ⟨e, he⟩
  · exact .inl ⟨answer.1, g', _, by simp [Graph.checkTag, huse, hrun], h',
      .single (hmove h huse area hx answer.1 answer.2 hchange)⟩
  · exact refused h ⟨e, by simp [Graph.checkTag, huse, he]⟩

/-- Granting a marker is legal. -/
theorem legal_newMarker : Legal (newMarker : Action (Recorded N E) Marker) :=
  legal_grant Graph.Holds.simulates_marker (fun h => .tags (.grantMarker h))
    fun h => .tags (.refuseMarker h)

/-- Taking a marker back is legal. -/
theorem legal_freeMarker (marker : Marker) :
    Legal (freeMarker marker : Action (Recorded N E) Unit) :=
  legal_release marker Graph.Holds.simulates_marker fun h => .tags (.freeMarker h)

/-- Granting a numeration is legal. -/
theorem legal_newNum : Legal (newNum : Action (Recorded N E) Numeration) :=
  legal_grant Graph.Holds.simulates_numeration (fun h => .tags (.grantNum h))
    fun h => .tags (.refuseNum h)

/-- Taking a numeration back is legal. -/
theorem legal_freeNum (num : Numeration) : Legal (freeNum num : Action (Recorded N E) Unit) :=
  legal_release num Graph.Holds.simulates_numeration fun h => .tags (.freeNum h)

/-- Scrubbing markers is legal. -/
theorem legal_sweepMarkers : Legal (sweepMarkers : Action (Recorded N E) Unit) :=
  legal_act fun _ _ h =>
    .inl ⟨(), _, _, rfl, Graph.Holds.simulates_marker.sweep h, .single (.tags .sweepMarkers)⟩

/-- Scrubbing numerations is legal. -/
theorem legal_sweepNums : Legal (sweepNums : Action (Recorded N E) Unit) :=
  legal_act fun _ _ h =>
    .inl ⟨(), _, _, rfl, Graph.Holds.simulates_numeration.sweep h, .single (.tags .sweepNums)⟩

section

variable {kind : EntityKind} (x : Handle kind)

/-- Marking an entity is legal. -/
theorem legal_mark (marker : Marker) : Legal (mark x marker : Action (Recorded N E) Bool) := by
  refine legal_checked fun h huse area hx answer area' hchange => ?_
  cases hchange
  exact .tags (.mark x marker (by rw [h.shown.markers]; exact huse) hx)

/-- Unmarking an entity is legal. -/
theorem legal_unmark (marker : Marker) :
    Legal (unmark x marker : Action (Recorded N E) Bool) := by
  refine legal_checked fun h huse area hx answer area' hchange => ?_
  cases hchange
  exact .tags (.unmark x marker (by rw [h.shown.markers]; exact huse) hx)

/-- Numbering an entity is legal, also with a number out of the bounds. -/
theorem legal_setNumber (num : Numeration) (value : Int) :
    Legal (setNumber x num value : Action (Recorded N E) Unit) := by
  refine legal_checked fun h huse area hx answer area' hchange => ?_
  unfold TagArea.setNumber at hchange
  cases hset : area.numbers.setNumber num value with
  | error e => rw [hset] at hchange; cases hchange
  | ok numbers =>
      rw [hset] at hchange
      cases hchange
      exact .tags (.setNumber x num value (by rw [h.shown.nums]; exact huse) hx hset)

/-- Taking the number of an entity away is legal. -/
theorem legal_unnumber (num : Numeration) :
    Legal (unnumber x num : Action (Recorded N E) Bool) := by
  refine legal_checked fun h huse area hx answer area' hchange => ?_
  cases hchange
  exact .tags (.unnumber x num (by rw [h.shown.nums]; exact huse) hx)

end

end Recorded

/-! ### All calls -/

/-- Every call is legal. -/
theorem Call.legal_run {N E : Type} (call : Call N E) : Recorded.Legal call.run := by
  have hanswer : ∀ {α : Type} {x : Action (Recorded N E) α}, Recorded.Legal x →
      Recorded.Legal (do let _ ← x) := fun hx => hx.bind fun _ => .pure _
  cases call with
  | newNode data => exact hanswer (Recorded.legal_newNode data)
  | newEdge pred succ data => exact hanswer (Recorded.legal_newEdge pred succ data)
  | deleteNode node => exact hanswer (Recorded.legal_deleteNode node)
  | deleteEdge edge => exact hanswer (Recorded.legal_deleteEdge edge)
  | clear => exact Recorded.legal_clear
  | setEnd edge dir node => exact Recorded.legal_setEnd edge dir node
  | insertNode edge nodeData edgeData =>
      exact hanswer (Recorded.legal_insertNode edge nodeData edgeData)
  | updateNode node f => exact hanswer (Recorded.legal_updateNode node f)
  | updateNode? node f => exact hanswer (Recorded.legal_updateNode? node f)
  | updateEdge edge f => exact hanswer (Recorded.legal_updateEdge edge f)
  | updateEdge? edge f => exact hanswer (Recorded.legal_updateEdge? edge f)
  | newMarker => exact hanswer Recorded.legal_newMarker
  | freeMarker marker => exact Recorded.legal_freeMarker marker
  | sweepMarkers => exact Recorded.legal_sweepMarkers
  | mark x marker => exact hanswer (Recorded.legal_mark x marker)
  | unmark x marker => exact hanswer (Recorded.legal_unmark x marker)
  | newNum => exact hanswer Recorded.legal_newNum
  | freeNum num => exact Recorded.legal_freeNum num
  | sweepNums => exact Recorded.legal_sweepNums
  | setNumber x num value => exact Recorded.legal_setNumber x num value
  | unnumber x num => exact hanswer (Recorded.legal_unnumber x num)

/-- A raw call changes tags only, and leaves no deed. -/
theorem RawCall.retags {N E : Type} (raw : RawCall N E) {r : Recorded N E} {V : View N E}
    (h : Graph.Holds r.graph V) :
    ∃ V', Graph.Holds (raw.run.after r).graph V' ∧ (raw.run.after r).history = r.history ∧
      Retagged V V' := by
  cases raw with
  | setLedgers markers nums =>
      exact ⟨_, h.setLedgers markers nums, rfl, .setLedgers V markers nums⟩
  | @changeArea kind x change =>
      rcases h.onArea_cases x change with ⟨area, answer, g', hx, -, hrun, h'⟩ | ⟨e, he⟩
      · have hafter : (RawCall.changeArea x change).run.after r = ⟨g', r.history⟩ :=
          Action.after_of_ok (a := answer.1) (by simp [RawCall.run, Recorded.act, hrun])
        rw [hafter]
        exact ⟨_, h', rfl, .setArea V answer.2 x⟩
      · have hafter : (RawCall.changeArea x change).run.after r = ⟨r.graph, r.history⟩ :=
          Action.after_of_error (e := e) (by simp [RawCall.run, Recorded.act, he])
        rw [hafter]
        exact ⟨V, h, rfl, .refl V⟩

end SlabGraph
