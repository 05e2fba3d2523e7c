import SlabGraph.Proofs.Graph.Room
import SlabGraph.Proofs.History.Ledgers
import SlabGraph.Proofs.Markers

/-!
# Failing Calls

A call either does all it is for, or it fails and leaves the graph exactly as it was. Which of
the two it is can be told beforehand: a call fails exactly if it is *blocked* (`Call.Blocked`), by
a handle that is not live in the graph, a tag that is not in use in the graph, a lack of indices,
or a number out of range. Nothing that the graph finds while it is at work can stop a call.

The graph needs room to grow (`Graph.HasRoom`). Its ledgers must have come about as ledgers do,
also those that a raw call puts in.

## Main definitions

* `Action.Decides`: an action refuses without a trace if it is blocked, and else completes;
* `Call.Blocked`, `Call.Fails`.

## Main results

* `Graph.Holds.decides_newEdge` and its companions, one for each operation;
* `World.fails_iff_blocked`.
-/

namespace SlabGraph

/-! ### Actions that refuse or complete -/

/-- An action that is blocked refuses and leaves the state as it was, and else it completes. -/
structure Action.Decides {σ α : Type} (x : Action σ α) (s : σ) (blocked : Prop) : Prop where
  /-- A blocked action refuses. -/
  refuses : blocked → ∃ e, x s = .error e s
  /-- An action that is not blocked completes. -/
  completes : ¬ blocked → ∃ a t, x s = .ok a t

namespace Action.Decides

variable {σ α β : Type} {x : Action σ α} {s : σ} {blocked : Prop}

/-- Leaving the answer out makes no difference. -/
theorem discard (h : x.Decides s blocked) : (do let _ ← x : Action σ Unit).Decides s blocked where
  refuses hblocked := by
    obtain ⟨e, he⟩ := h.refuses hblocked
    exact ⟨e, by simp [he]⟩
  completes hfree := by
    obtain ⟨a, t, hrun⟩ := h.completes hfree
    exact ⟨(), t, by simp [hrun]⟩

/-- An action that never refuses. -/
theorem of_ok (h : ∃ a t, x s = .ok a t) : x.Decides s False := ⟨False.elim, fun _ => h⟩

/-- An action on what is looked for, which refuses if it is not found. -/
theorem of_isSome {found : Option β} (hnone : found = none → ∃ e, x s = .error e s)
    (hsome : ∀ b, found = some b → ∃ a t, x s = .ok a t) :
    x.Decides s (found.isSome = false) where
  refuses hblocked := hnone (Option.isNone_iff_eq_none.1 (by simpa using hblocked))
  completes hfree := by
    rw [Bool.not_eq_false] at hfree
    obtain ⟨b, hb⟩ := Option.isSome_iff_exists.1 hfree
    exact hsome b hb

/-- An action on two things that are looked for. -/
theorem of_isSome₂ {γ : Type} {found : Option β} {found' : Option γ}
    (hnone : found = none ∨ found' = none → ∃ e, x s = .error e s)
    (hsome : ∀ b c, found = some b → found' = some c → ∃ a t, x s = .ok a t) :
    x.Decides s (found.isSome = false ∨ found'.isSome = false) where
  refuses hblocked := hnone (by simpa using hblocked)
  completes hfree := by
    rw [not_or, Bool.not_eq_false, Bool.not_eq_false] at hfree
    obtain ⟨b, hb⟩ := Option.isSome_iff_exists.1 hfree.1
    obtain ⟨c, hc⟩ := Option.isSome_iff_exists.1 hfree.2
    exact hsome b c hb hc

end Action.Decides

namespace TagHost

variable {H : Type} {kind : TagKind} [TagHost H kind]

/-- A grant is refused exactly if all indices are in use. -/
theorem decides_grant [LawfulTagHost H kind] {host : H}
    (hsound : (ledger host : TagLedger kind).Sound) : (grant kind).Decides host
      (∀ i : Fin kind.capacity, getElem (ledger host : TagLedger kind).used i i.isLt = true) where
  refuses hfull := ⟨_, grant_exhausted (TagLedger.freeIndex_eq_none_iff.2 hfull)⟩
  completes hleft := by
    rw [← TagLedger.freeIndex_eq_none_iff, ← ne_eq, Option.ne_none_iff_exists'] at hleft
    obtain ⟨i, hi⟩ := hleft
    obtain ⟨tag, granted, hrun, -⟩ := grant_run host hsound hi
    exact ⟨tag, _, hrun⟩

/-- A release is refused exactly if the tag is not in use. -/
theorem decides_release {host : H} (hsound : (ledger host : TagLedger kind).Sound)
    (tag : Tag kind) :
    (release tag).Decides host ((ledger host : TagLedger kind).isLive tag = false) where
  refuses hdead := ⟨_, release_refused hdead⟩
  completes hlive := by
    obtain ⟨released, hrun, -⟩ := release_run host hsound (by simpa using hlive)
    exact ⟨(), _, hrun⟩

end TagHost

/-! ### The operations of a graph -/

namespace Graph

variable {N E α : Type} {g : Graph N E} {V : View N E}

section

variable (h : Holds g V)

include h

/-- An edge is added, as long as there is room, unless one of its ends is not in the graph. Then
nothing changes. -/
theorem Holds.decides_newEdge (hroom : V.edges.HasRoom) (pred succ : NodeHandle) (data : E) :
    (newEdge pred succ data).Decides g
      (g.containsNode pred = false ∨ g.containsNode succ = false) := by
  rw [h.containsNode_eq, h.containsNode_eq]
  refine .of_isSome₂ (h.newEdge_refused data) fun a b hpred hsucc => ?_
  obtain ⟨p, g', hrun, -⟩ := h.newEdge_ok hroom hpred hsucc data
  exact ⟨_, g', hrun⟩

/-- A node is removed unless it is not in the graph. -/
theorem Holds.decides_deleteNode (node : NodeHandle) :
    (deleteNode node).Decides g (g.containsNode node = false) := by
  rw [h.containsNode_eq]
  refine .of_isSome h.deleteNode_refused fun b hb => ?_
  obtain ⟨g', hrun, -⟩ := h.deleteNode_run hb
  exact ⟨_, g', hrun⟩

/-- An edge is removed unless it is not in the graph. -/
theorem Holds.decides_deleteEdge (edge : EdgeHandle) :
    (deleteEdge edge).Decides g (g.containsEdge edge = false) := by
  rw [h.containsEdge_eq]
  refine .of_isSome h.deleteEdge_refused fun b hb => ?_
  obtain ⟨g', hrun, -⟩ := h.deleteEdge_run hb
  exact ⟨_, g', hrun⟩

/-- An edge is retargeted unless the edge or the node is not in the graph. -/
theorem Holds.decides_setEnd (edge : EdgeHandle) (dir : Direction) (node : NodeHandle) :
    (setEnd edge dir node).Decides g
      (g.containsEdge edge = false ∨ g.containsNode node = false) := by
  rw [h.containsEdge_eq, h.containsNode_eq]
  refine .of_isSome₂ (h.setEnd_refused dir) fun b c hb hc => ?_
  obtain ⟨g', hrun, -⟩ := h.setEnd_run hb hc dir
  exact ⟨_, g', hrun⟩

/-- The three steps of a split complete once the edge is found. -/
theorem Holds.decides_insertNode (hnodes : V.nodes.HasRoom) (hedges : V.edges.HasRoom)
    (edge : EdgeHandle) (nodeData : N) (edgeData : E) :
    (insertNode edge nodeData edgeData).Decides g (g.containsEdge edge = false) := by
  rw [h.containsEdge_eq]
  refine .of_isSome (fun hnone => ?_) fun b hb => ?_
  · obtain ⟨e, he⟩ := h.edgeEnd_refused .down hnone
    exact ⟨e, by simp [insertNode, he]⟩
  · obtain ⟨p, q, g', hrun, -⟩ := h.insertNode_ok hnodes hedges hb nodeData edgeData
    exact ⟨_, g', hrun⟩

/-- The payload of a node is written unless the node is not in the graph. -/
theorem Holds.decides_updateNode (node : NodeHandle) (f : N → N) :
    (updateNode node f).Decides g (g.containsNode node = false) := by
  rw [h.containsNode_eq]
  refine .of_isSome (h.updateNode_refused f) fun b hb => ?_
  obtain ⟨g', hrun, -⟩ := h.updateNode_run hb f
  exact ⟨_, g', hrun⟩

/-- The payload of an edge is written unless the edge is not in the graph. -/
theorem Holds.decides_updateEdge (edge : EdgeHandle) (f : E → E) :
    (updateEdge edge f).Decides g (g.containsEdge edge = false) := by
  rw [h.containsEdge_eq]
  refine .of_isSome (h.updateEdge_refused f) fun b hb => ?_
  obtain ⟨g', hrun, -⟩ := h.updateEdge_run hb f
  exact ⟨_, g', hrun⟩

/-- A change of the tags of an entity that checks the tag is refused if the tag is not in use, if
the entity is not live, or if the stamps cannot be changed so. -/
theorem Holds.decides_checked {tagKind : TagKind} [TagHost (Graph N E) tagKind]
    {kind : EntityKind} (x : Handle kind) (tag : Tag tagKind)
    {change : TagArea → Except Fault (α × TagArea)} (bad : Prop)
    (hbad : bad → ∀ area, ∃ e, change area = .error e)
    (hgood : ¬ bad → ∀ area, ∃ answer, change area = .ok answer) :
    (do
      Action.read (·.checkTag tag)
      Graph.onArea x change : Action (Graph N E) α).Decides g
        ((TagHost.ledger g : TagLedger tagKind).isLive tag = false ∨ g.contains x = false ∨
          bad) := by
  rw [h.contains_eq]
  cases huse : (TagHost.ledger g : TagLedger tagKind).isLive tag with
  | false =>
      refine ⟨fun _ => ⟨.tagNotInUse tag g.id, ?_⟩, fun hfree => absurd (.inl rfl) hfree⟩
      simp [checkTag, huse]
  | true =>
      cases hx : V.area? x with
      | none =>
          refine ⟨fun _ => ⟨x.refusal g.id, ?_⟩, fun hfree => absurd (.inr (.inl rfl)) hfree⟩
          simp [checkTag, huse, onArea, h.area_refused hx]
      | some area =>
          constructor
          · rintro (hbad' | hbad' | hbad')
            · cases hbad'
            · cases hbad'
            · obtain ⟨e, he⟩ := hbad hbad' area
              exact ⟨e, by simp [checkTag, huse, onArea, h.area_run hx, he]⟩
          · intro hfree
            obtain ⟨answer, hanswer⟩ := hgood (fun hbad' => hfree (.inr (.inr hbad'))) area
            obtain ⟨g', hrun, -⟩ := h.onArea_run hx hanswer
            exact ⟨answer.1, g', by simp [checkTag, huse, hrun]⟩

/-- A change of tags that works for all stamps. -/
theorem Holds.decides_checked_total {tagKind : TagKind} [TagHost (Graph N E) tagKind]
    {kind : EntityKind} (x : Handle kind) (tag : Tag tagKind)
    {change : TagArea → Except Fault (α × TagArea)}
    (hgood : ∀ area, ∃ answer, change area = .ok answer) :
    (do
      Action.read (·.checkTag tag)
      Graph.onArea x change : Action (Graph N E) α).Decides g
        ((TagHost.ledger g : TagLedger tagKind).isLive tag = false ∨ g.contains x = false) := by
  simpa using h.decides_checked x tag False False.elim fun _ => hgood

end

end Graph

/-! ### Calls -/

namespace Call

variable {N E : Type}

/-- What stands in the way of a call: a handle that is not live, a tag that is not in use, no
index that is left, or a number that is out of range. -/
def Blocked (g : Graph N E) : Call N E → Prop
  | newNode _ | clear | sweepMarkers | sweepNums => False
  | newEdge pred succ _ => g.containsNode pred = false ∨ g.containsNode succ = false
  | deleteNode node | updateNode node _ | updateNode? node _ => g.containsNode node = false
  | deleteEdge edge | insertNode edge _ _ | updateEdge edge _ | updateEdge? edge _ =>
    g.containsEdge edge = false
  | setEnd edge _ node => g.containsEdge edge = false ∨ g.containsNode node = false
  | newMarker => ∀ i, g.markers.used.get i = true
  | newNum => ∀ i, g.nums.used.get i = true
  | freeMarker marker => g.markers.isLive marker = false
  | freeNum num => g.nums.isLive num = false
  | mark x marker | unmark x marker => g.markers.isLive marker = false ∨ g.contains x = false
  | unnumber x num => g.nums.isLive num = false ∨ g.contains x = false
  | setNumber x num value =>
    g.nums.isLive num = false ∨ g.contains x = false ∨ ¬ (0 ≤ value ∧ value ≤ 4294967294)

/-- A call answers that it has found nothing to change. -/
def Declines (g : Graph N E) : Call N E → Prop
  | updateNode? node f => ∃ g', Graph.updateNode? node f g = .ok none g'
  | updateEdge? edge f => ∃ g', Graph.updateEdge? edge f g = .ok none g'
  | _ => False

/-- A call ends in a fault, or it answers that it has found nothing to change. -/
def Fails (g : Graph N E) (call : Call N E) : Prop :=
  (∃ e g', call.onGraph g = .error e g') ∨ call.Declines g

variable {g : Graph N E} {V : View N E} {call : Call N E}

/-- A call fails exactly if it is blocked, and then changes nothing. -/
def FailsCleanly (g : Graph N E) (call : Call N E) : Prop :=
  (call.Fails g ↔ call.Blocked g) ∧ (call.Fails g → call.onGraph.after g = g)

/-- A blocked call that fails and changes nothing fails cleanly. -/
theorem failsCleanly_of_refused (hblocked : call.Blocked g) (hfails : call.Fails g)
    (hsame : call.onGraph.after g = g) : call.FailsCleanly g :=
  ⟨⟨fun _ => hblocked, fun _ => hfails⟩, fun _ => hsame⟩

/-- A call that is not blocked and succeeds has no failure that could be unclean. -/
theorem failsCleanly_of_completed (hfree : ¬ call.Blocked g) (hdeclines : ¬ call.Declines g)
    (hrun : ∃ a g', call.onGraph g = .ok a g') : call.FailsCleanly g := by
  have hnot : ¬ call.Fails g := by
    rintro (⟨e, g', he⟩ | hbad)
    · obtain ⟨a, g'', hok⟩ := hrun
      rw [hok] at he
      cases he
    · exact hdeclines hbad
  exact ⟨⟨fun hbad => absurd hbad hnot, fun hbad => absurd hbad hfree⟩,
    fun hbad => absurd hbad hnot⟩

/-- A call whose operation decides as the call says. -/
theorem FailsCleanly.of_decides (h : call.onGraph.Decides g (call.Blocked g))
    (hdeclines : ¬ call.Declines g) : call.FailsCleanly g := by
  by_cases hblocked : call.Blocked g
  · obtain ⟨e, he⟩ := h.refuses hblocked
    exact failsCleanly_of_refused hblocked (.inl ⟨e, g, he⟩) (Action.after_of_error he)
  · exact failsCleanly_of_completed hblocked hdeclines (h.completes hblocked)

/-- A call of an operation that answers nothing if it is blocked. -/
theorem FailsCleanly.of_answers {α : Type} {x : Action (Graph N E) (Option α)}
    (hcall : call.onGraph = do let _ ← x) (hdeclines : call.Declines g ↔ ∃ g', x g = .ok none g')
    (hnone : call.Blocked g → x g = .ok none g)
    (hsome : ¬ call.Blocked g → ∃ a g', x g = .ok (some a) g') : call.FailsCleanly g := by
  by_cases hblocked : call.Blocked g
  · have hrun := hnone hblocked
    have hon : call.onGraph g = .ok () g := by simp [hcall, hrun]
    exact failsCleanly_of_refused hblocked (.inr (hdeclines.2 ⟨g, hrun⟩)) (Action.after_of_ok hon)
  · obtain ⟨a, g', hrun⟩ := hsome hblocked
    refine failsCleanly_of_completed hblocked ?_ ⟨(), g', by simp [hcall, hrun]⟩
    rw [hdeclines]
    rintro ⟨g'', hbad⟩
    rw [hrun] at hbad
    cases hbad

/-- Every call on a graph with room and with ledgers within their bounds fails exactly if it is
blocked, and then changes nothing. -/
theorem failsCleanly (h : Graph.Holds g V) (hV : V.SoundLedgers) (hroom : g.HasRoom)
    (call : Call N E) : call.FailsCleanly g := by
  -- what room and bounds mean for the parts that single operations touch
  have hnodes := h.shown.nodes.hasRoom hroom.nodes
  have hedges := h.shown.edges.hasRoom hroom.edges
  have hmarkers : g.markers.Sound := h.shown.markers ▸ hV.markers
  have hnums : g.nums.Sound := h.shown.nums ▸ hV.nums
  cases call with
  | newNode data =>
      obtain ⟨p, g', hrun, -⟩ := h.newNode_ok hnodes data
      exact .of_decides (Action.Decides.of_ok ⟨_, g', hrun⟩).discard id
  | newEdge pred succ data => exact .of_decides (h.decides_newEdge hedges pred succ data).discard id
  | deleteNode node => exact .of_decides (h.decides_deleteNode node).discard id
  | deleteEdge edge => exact .of_decides (h.decides_deleteEdge edge).discard id
  | clear =>
      obtain ⟨g', hrun, -⟩ := h.clear_run
      exact .of_decides (.of_ok ⟨(), g', hrun⟩) id
  | setEnd edge dir node => exact .of_decides (h.decides_setEnd edge dir node) id
  | insertNode edge nodeData edgeData =>
      exact .of_decides (h.decides_insertNode hnodes hedges edge nodeData edgeData).discard id
  | updateNode node f => exact .of_decides (h.decides_updateNode node f).discard id
  | updateEdge edge f => exact .of_decides (h.decides_updateEdge edge f).discard id
  | updateNode? node f =>
      refine .of_answers rfl Iff.rfl (fun hdead => ?_) fun hlive => ?_
      · change g.containsNode node = false at hdead
        simp [Graph.updateNode?, hdead]
      · obtain ⟨old, g', hrun⟩ := (h.decides_updateNode node f).completes hlive
        rw [Blocked, Bool.not_eq_false] at hlive
        exact ⟨old, g', by simp [Graph.updateNode?, hlive, hrun]⟩
  | updateEdge? edge f =>
      refine .of_answers rfl Iff.rfl (fun hdead => ?_) fun hlive => ?_
      · change g.containsEdge edge = false at hdead
        simp [Graph.updateEdge?, hdead]
      · obtain ⟨old, g', hrun⟩ := (h.decides_updateEdge edge f).completes hlive
        rw [Blocked, Bool.not_eq_false] at hlive
        exact ⟨old, g', by simp [Graph.updateEdge?, hlive, hrun]⟩
  | newMarker => exact .of_decides (TagHost.decides_grant (H := Graph N E) hmarkers).discard id
  | newNum => exact .of_decides (TagHost.decides_grant (H := Graph N E) hnums).discard id
  | freeMarker marker =>
      exact .of_decides (TagHost.decides_release (H := Graph N E) hmarkers marker) id
  | freeNum num => exact .of_decides (TagHost.decides_release (H := Graph N E) hnums num) id
  | sweepMarkers => exact .of_decides (.of_ok ⟨_, _, rfl⟩) id
  | sweepNums => exact .of_decides (.of_ok ⟨_, _, rfl⟩) id
  | mark x marker =>
      exact .of_decides (h.decides_checked_total x marker fun _ => ⟨_, rfl⟩).discard id
  | unmark x marker =>
      exact .of_decides (h.decides_checked_total x marker fun _ => ⟨_, rfl⟩).discard id
  | unnumber x num =>
      exact .of_decides (h.decides_checked_total x num fun _ => ⟨_, rfl⟩).discard id
  | setNumber x num value =>
      refine .of_decides (h.decides_checked x num _ (fun hbad area => ?_) fun hfits area => ?_) id
      · exact ⟨_, area.setNumber_refused num hbad⟩
      · exact ⟨_, area.setNumber_run num (not_not.1 hfits)⟩

end Call

namespace World

variable {N E : Type}

/-- In every graph of every world, a call fails exactly if a handle is not live in the graph, a tag
is not in use in the graph, no index is left, or a number is out of range, and a call that
fails leaves the graph as it was. -/
theorem fails_iff_blocked (supply : IdSupply) {steps : List (Step N E)}
    (hsteps : ∀ s ∈ steps, s.Admissible) {r : Recorded N E}
    (hr : r ∈ ((start supply).run steps).graphs) (hroom : r.graph.HasRoom) (call : Call N E) :
    (call.Fails r.graph ↔ call.Blocked r.graph) ∧
      (call.Fails r.graph → call.onGraph.after r.graph = r.graph) := by
  obtain ⟨V, h, hV⟩ := exists_soundLedgers supply hsteps r hr
  exact call.failsCleanly h hV hroom

/-- A node that was deleted, and whose slot was given to another one. -/
def gone : NodeHandle := ⟨⟨0⟩, 0, ⟨0, 0⟩⟩

/-- A world in which a node was deleted and another one was added. -/
def replaced : World Nat Nat :=
  (start {}).run [.create ⟨1, 1⟩, .call 0 (.newNode 5), .call 0 (.deleteNode gone),
    .call 0 (.newNode 6)]

/-- An edge from a node whose slot was given to another one is refused, and a node can be added. -/
theorem fails_iff_blocked_replaced : ∃ h : 0 < replaced.graphs.length,
    (Call.newEdge gone ⟨⟨0⟩, 1, ⟨0, 0⟩⟩ 7).Fails replaced.graphs[0].graph ∧
      ¬ (Call.newNode 7).Fails replaced.graphs[0].graph := by
  have h : 0 < replaced.graphs.length := by decide +kernel
  have hgone : replaced.graphs[0].graph.containsNode gone = false := by decide +kernel +revert
  have hroom : replaced.graphs[0].graph.HasRoom := by
    constructor <;> constructor <;> decide +kernel +revert
  have hall := fails_iff_blocked {} (by simp [Step.Admissible]) (List.getElem_mem h) hroom
  exact ⟨h, (hall _).1.2 (.inl hgone), fun hbad => (hall _).1.1 hbad⟩

end World

end SlabGraph
