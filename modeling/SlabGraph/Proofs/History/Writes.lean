import SlabGraph.Proofs.History.Calls
import SlabGraph.Proofs.History.Carried

/-!
# What Calls Write Down

Which deeds a call may write down is known before it is carried out, up to the handles and tags
that are answered and the payloads that are replaced (`Call.MayWrite`). A call that fails writes
some of them down, or none.

## Main definitions

* `Recorded.Writes`, `Call.MayWrite`.

## Main results

* `Call.writes_run`;
* `Call.MayWrite.puts_of_adds`, `Call.MayWrite.grants_of_frees`: what a call does not do together.
-/

namespace SlabGraph

variable {N E α β : Type}

namespace Recorded

/-- All deeds that an action writes down are of some sort. -/
def Writes (x : Action (Recorded N E) α) (P : Deed N E → Prop) : Prop :=
  ∀ r, ∃ deeds, (x.after r).history = deeds ++ r.history ∧ ∀ deed ∈ deeds, P deed

variable {P : Deed N E → Prop}

/-- An answer without an action writes nothing down. -/
theorem Writes.pure (a : α) : Writes (pure a : Action (Recorded N E) α) P :=
  fun _ => ⟨[], rfl, by simp⟩

/-- Reading writes nothing down. -/
theorem Writes.read (f : Recorded N E → Except Fault α) : Writes (Action.read f) P := by
  refine fun r => ⟨[], ?_, by simp⟩
  cases hf : f r <;> simp [Action.after, Action.outcome, hf]

/-- Actions in a row write down what each of them does. -/
theorem Writes.bind {x : Action (Recorded N E) α} {f : α → Action (Recorded N E) β}
    (hx : Writes x P) (hf : ∀ a, Writes (f a) P) : Writes (x >>= f) P := by
  intro r
  obtain ⟨deeds, hhistory, hdeeds⟩ := hx r
  cases hrun : x r with
  | error e s =>
      rw [Action.after_of_error hrun] at hhistory
      have hafter : (x >>= f).after r = s := Action.after_of_error (e := e) (by simp [hrun])
      exact ⟨deeds, by rw [hafter, hhistory], hdeeds⟩
  | ok a s =>
      rw [Action.after_of_ok hrun] at hhistory
      have hafter : (x >>= f).after r = (f a).after s := by
        simp [Action.after, Action.outcome, hrun]
      obtain ⟨deeds', hhistory', hdeeds'⟩ := hf a s
      refine ⟨deeds' ++ deeds, by rw [hafter, hhistory', hhistory, List.append_assoc], ?_⟩
      intro deed hdeed
      rcases List.mem_append.1 hdeed with hdeed | hdeed
      · exact hdeeds' deed hdeed
      · exact hdeeds deed hdeed

/-- An action whose answer is thrown away writes the same down. -/
theorem Writes.discard {x : Action (Recorded N E) α} (hx : Writes x P) :
    Writes (do let _ ← x) P := hx.bind fun _ => .pure _

/-- The history after an action on the graph. -/
theorem history_after_act (x : Action (Graph N E) α) (deeds : α → History N E)
    (r : Recorded N E) : (∃ a, ((act x deeds).after r).history = deeds a ++ r.history) ∨
      ((act x deeds).after r).history = r.history := by
  unfold Action.after Action.outcome act
  cases x r.graph with
  | ok a g => exact .inl ⟨a, rfl⟩
  | error e g => exact .inr rfl

/-- An action on the graph writes down the deeds it stands for, if it succeeds. -/
theorem writes_act {x : Action (Graph N E) α} {deeds : α → History N E}
    (h : ∀ a, ∀ deed ∈ deeds a, P deed) : Writes (act x deeds) P := by
  intro r
  rcases history_after_act x deeds r with ⟨a, hhistory⟩ | hhistory
  · exact ⟨deeds a, hhistory, h a⟩
  · exact ⟨[], hhistory, by simp⟩

end Recorded

namespace Call

/-- The deeds that a call may write down. -/
def MayWrite : Call N E → Deed N E → Prop
  | newNode data, deed => ∃ node, deed = .addNode node data
  | newEdge pred succ data, deed => ∃ edge, deed = .addEdge edge ⟨pred, succ⟩ data
  | deleteNode node, deed => deed = .removeNode node
  | deleteEdge edge, deed => deed = .removeEdge edge
  | clear, deed => deed = .clear
  | setEnd edge dir node, deed => deed = .moveEnd edge dir node
  | insertNode edge nodeData edgeData, deed =>
    (∃ node, deed = .addNode node nodeData) ∨ (∃ node, deed = .moveEnd edge .down node) ∨
      ∃ new ends, deed = .addEdge new ends edgeData
  | updateNode node f, deed | updateNode? node f, deed => ∃ old, deed = .writeNode node (f old)
  | updateEdge edge f, deed | updateEdge? edge f, deed => ∃ old, deed = .writeEdge edge (f old)
  | newMarker, deed => ∃ marker, deed = .grantMarker marker
  | freeMarker marker, deed => deed = .freeMarker marker
  | @mark _ _ kind x marker, deed => deed = .mark ⟨kind, x⟩ marker
  | @unmark _ _ kind x marker, deed => deed = .unmark ⟨kind, x⟩ marker
  | newNum, deed => ∃ num, deed = .grantNum num
  | freeNum num, deed => deed = .freeNum num
  | @setNumber _ _ kind x num value, deed => deed = .setNumber ⟨kind, x⟩ num value.toNat
  | @unnumber _ _ kind x num, deed => deed = .unnumber ⟨kind, x⟩ num
  | sweepMarkers, _ | sweepNums, _ => False

/-- A call writes down only what it may. -/
theorem writes_run (call : Call N E) : Recorded.Writes call.run call.MayWrite := by
  cases call with
  | insertNode edge nodeData edgeData =>
      refine ((Recorded.Writes.read _).bind fun succ => ?_).discard
      refine (Recorded.writes_act (by simp [MayWrite])).bind fun node => ?_
      refine (Recorded.writes_act (by simp [MayWrite])).bind fun _ => ?_
      exact (Recorded.writes_act (by simp [MayWrite])).bind fun _ => .pure node
  | setEnd | freeMarker | freeNum | setNumber =>
      exact Recorded.writes_act (by simp [MayWrite])
  | clear =>
      unfold run Recorded.clear
      exact Recorded.writes_act (by simp [MayWrite])
  | sweepMarkers =>
      unfold run Recorded.sweepMarkers
      exact Recorded.writes_act (by simp)
  | sweepNums =>
      unfold run Recorded.sweepNums
      exact Recorded.writes_act (by simp)
  | updateNode node f | updateEdge edge f =>
      refine (Recorded.writes_act fun old deed hdeed => ?_).discard
      exact ⟨old, List.mem_singleton.1 hdeed⟩
  | updateNode? node f | updateEdge? edge f =>
      refine (Recorded.writes_act fun old deed hdeed => ?_).discard
      obtain ⟨data, -, rfl⟩ := List.mem_map.1 hdeed
      exact ⟨data, rfl⟩
  | _ => exact (Recorded.writes_act (by simp [MayWrite])).discard

variable {kind : TagKind} {call : Call N E} {deed deed' : Deed N E}

/-- A call that adds an entity puts nothing under tags. -/
theorem MayWrite.puts_of_adds (h : call.MayWrite deed) (h' : call.MayWrite deed') {x : AnyHandle}
    (hadds : deed.adds = some x) : deed'.puts? kind = none := by
  cases call with
  | newNode data | newEdge pred succ data =>
      obtain ⟨_, rfl⟩ := h'
      cases kind <;> rfl
  | insertNode edge nodeData edgeData =>
      rcases h' with ⟨_, rfl⟩ | ⟨_, rfl⟩ | ⟨_, _, rfl⟩ <;> cases kind <;> rfl
  | sweepMarkers | sweepNums => exact h.elim
  | updateNode | updateNode? | updateEdge | updateEdge? | newMarker | newNum =>
      obtain ⟨_, rfl⟩ := h
      cases hadds
  | _ =>
      obtain rfl := h
      cases hadds

/-- A call that takes a tag back grants none. -/
theorem MayWrite.grants_of_frees (h : call.MayWrite deed) (h' : call.MayWrite deed')
    {tag : Tag kind} (hfrees : deed.frees? kind = some tag) : deed'.grants? kind = none := by
  cases call with
  | freeMarker marker | freeNum num =>
      obtain rfl := h'
      cases kind <;> rfl
  | insertNode edge nodeData edgeData =>
      rcases h with ⟨_, rfl⟩ | ⟨_, rfl⟩ | ⟨_, _, rfl⟩ <;> cases kind <;> cases hfrees
  | sweepMarkers | sweepNums => exact h.elim
  | newNode | newEdge | updateNode | updateNode? | updateEdge | updateEdge? | newMarker
  | newNum =>
      obtain ⟨_, rfl⟩ := h
      cases kind <;> cases hfrees
  | _ =>
      obtain rfl := h
      cases kind <;> cases hfrees

end Call

end SlabGraph
