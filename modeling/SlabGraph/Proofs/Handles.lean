import SlabGraph.Graph.Read
import SlabGraph.Proofs.History.Registry

/-!
# Handles

A handle is a plain value that anyone can keep for as long as they like, while the slot that
it names is given out again and again. That handles are safe is said here of whole worlds, with
any calls on any handles: a graph takes a handle as live exactly if it issued the handle and
the entity was not deleted since, and then answers the payload that was stored last
(`Recorded.Faithful`). No two entities of any of the graphs have ever had the same handle, and a
handle that is dead is dead for all graphs and for all times (`World.handles_safe`).

Three numbers in a handle make this so. Ids only grow, so a later entity of the same graph
has another id. The numbers of graphs are drawn in order, so they differ for the first `2 ^ 32`
creations, of which those that fail count too. And a record keeps the id of its entity, so a
slot that was given out again answers to the new id only. The ids of nodes and those of edges
are counted apart.

## Main definitions

* `Recorded.Faithful`, `World.creations`, `World.HandlesSafe`.

## Main results

* `World.faithful`, `World.nodup_ids`;
* `World.handles_safe`.
-/

namespace SlabGraph

variable {N E : Type}

/-! ### One graph -/

namespace Graph

variable {g : Graph N E} {V : View N E}

/-- The payload of a node can be read. -/
theorem Holds.nodeData_run (h : Holds g V) {node : NodeHandle} {b : Body Unit N}
    (hb : V.nodes.find? V.id node = some b) : g.nodeData node = .ok b.data := by
  rw [h.shown.id] at hb
  obtain ⟨r, hrun, -, rfl⟩ := h.shown.nodes.lookup_run hb
  simp [nodeData, Graph.node, hrun, Record.body, pure, Except.pure]

/-- The payload of an edge can be read. -/
theorem Holds.edgeData_run (h : Holds g V) {edge : EdgeHandle} {b : Body (DirPair Ptr) E}
    (hb : V.edges.find? V.id edge = some b) : g.edgeData edge = .ok b.data := by
  rw [h.shown.id] at hb
  obtain ⟨r, hrun, -, rfl⟩ := h.shown.edges.lookup_run hb
  simp [edgeData, Graph.edge, hrun, Record.body, pure, Except.pure]

end Graph

namespace Recorded

variable {r : Recorded N E} {V : View N E}

/-- What a graph says about handles is what its history says. -/
structure Faithful (r : Recorded N E) : Prop where
  /-- The handles of live nodes, and no others, are taken for nodes. -/
  containsNode : ∀ node, r.graph.containsNode node = true ↔ History.NodeLive node r.history
  /-- The handles of live edges, and no others, are taken for edges. -/
  containsEdge : ∀ edge, r.graph.containsEdge edge = true ↔ History.EdgeLive edge r.history
  /-- The payload of a live node is the one that was stored last. -/
  nodeData : ∀ node, History.NodeLive node r.history → ∃ data,
    History.nodeData? node r.history = some data ∧ r.graph.nodeData node = .ok data
  /-- The payload of a live edge is the one that was stored last. -/
  edgeData : ∀ edge, History.EdgeLive edge r.history → ∃ data,
    History.edgeData? edge r.history = some data ∧ r.graph.edgeData edge = .ok data
  /-- No id was given to two nodes. -/
  nodeIds : ((History.nodesIssued r.history).map Handle.uid).Nodup
  /-- No id was given to two edges. -/
  edgeIds : ((History.edgesIssued r.history).map Handle.uid).Nodup

/-- A graph says about handles what its history says, if its view agrees with the history. -/
theorem faithful (h : Graph.Holds r.graph V) (hreg : V.Registered r.history) : r.Faithful where
  containsNode node := by
    rw [h.containsNode_eq]
    exact hreg.nodes.live_iff node
  containsEdge edge := by
    rw [h.containsEdge_eq]
    exact hreg.edges.live_iff edge
  nodeData node hlive := by
    obtain ⟨b, hb⟩ := hreg.nodes.exists_body hlive
    exact ⟨b.data, hreg.nodes.data node b hb, h.nodeData_run hb⟩
  edgeData edge hlive := by
    obtain ⟨b, hb⟩ := hreg.edges.exists_body hlive
    exact ⟨b.data, hreg.edges.data edge b hb, h.edgeData_run hb⟩
  nodeIds := List.pairwise_map.2 (hreg.nodes.newest_first.imp fun hlt => Nat.ne_of_gt hlt)
  edgeIds := List.pairwise_map.2 (hreg.edges.newest_first.imp fun hlt => Nat.ne_of_gt hlt)

/-- A graph later on: it has the same number, and a longer history. -/
def Extends (r r' : Recorded N E) : Prop :=
  r'.graph.id = r.graph.id ∧ ∃ deeds, r'.history = deeds ++ r.history

/-- A graph is a later state of itself. -/
theorem Extends.refl (r : Recorded N E) : r.Extends r := ⟨rfl, [], rfl⟩

/-- What is later than a later state is later. -/
theorem Extends.trans {r' r'' : Recorded N E} (h : r.Extends r') (h' : r'.Extends r'') :
    r.Extends r'' := by
  obtain ⟨hid, deeds, hhistory⟩ := h
  obtain ⟨hid', deeds', hhistory'⟩ := h'
  exact ⟨hid'.trans hid, deeds' ++ deeds, by rw [hhistory', hhistory, List.append_assoc]⟩

end Recorded

/-- A call leaves a later state behind, whether or not it succeeds. -/
theorem Call.extends (call : Call N E) {r : Recorded N E} {V : View N E}
    (h : Graph.Holds r.graph V) : r.Extends (call.run.after r) := by
  obtain ⟨V', deeds, h', hhistory, hmoves⟩ := call.legal_run r V h
  exact ⟨by rw [← h'.shown.id, ← h.shown.id, hmoves.id_eq], deeds, hhistory⟩

/-- A raw call leaves a later state behind. -/
theorem RawCall.extends (raw : RawCall N E) {r : Recorded N E} {V : View N E}
    (h : Graph.Holds r.graph V) : r.Extends (raw.run.after r) := by
  obtain ⟨V', h', hhistory, hretagged⟩ := raw.retags h
  exact ⟨by rw [← h'.shown.id, ← h.shown.id, hretagged.id], [], hhistory⟩

/-! ### Worlds -/

namespace World

variable {w : World N E}

/-- The graphs of a world agree with their histories. -/
def Registered (w : World N E) : Prop :=
  ∀ r ∈ w.graphs, ∃ V, Graph.Holds r.graph V ∧ V.Registered r.history

/-- All graphs of a world agree with their histories after some steps, if they did before. -/
theorem Registered.run (h : w.Registered) (steps : List (Step N E)) : (w.run steps).Registered :=
  exists_view View.Registered.blank (fun hc hI hmove => hI.move hc hmove)
    (fun hI hretagged => hI.retag hretagged) steps h

/-- All graphs of all worlds agree with their histories. -/
theorem registered_run (supply : IdSupply) (steps : List (Step N E)) :
    ((start supply).run steps).Registered :=
  Registered.run (forall_start supply) steps

/-- Whether a step is to create a graph. -/
def Step.creates : Step N E → Bool
  | create _ => true
  | _ => false

/-- How many graphs were to be created. -/
def creations (steps : List (Step N E)) : Nat := steps.countP Step.creates

/-! ### A graph later on -/

/-- After an action on one graph of a world, every graph is there in a later state. -/
theorem Registered.extends_onGraph (h : w.Registered) {x : Action (Recorded N E) Unit}
    (hx : ∀ {r : Recorded N E} {V : View N E}, Graph.Holds r.graph V → r.Extends (x.after r))
    (i : Nat) {j : Nat} {r : Recorded N E} (hr : w.graphs[j]? = some r) :
    ∃ r', (w.onGraph i x).graphs[j]? = some r' ∧ r.Extends r' := by
  obtain ⟨V, hV, -⟩ := h r (List.mem_of_getElem? hr)
  rw [getElem?_onGraph, hr]
  by_cases hi : i = j
  · exact ⟨x.after r, by simp [hi], hx hV⟩
  · exact ⟨r, by simp [hi], .refl r⟩

/-- After a step, every graph is there in a later state. -/
theorem Registered.extends_step (h : w.Registered) (s : Step N E) {i : Nat} {r : Recorded N E}
    (hr : w.graphs[i]? = some r) : ∃ r', (w.step s).graphs[i]? = some r' ∧ r.Extends r' := by
  cases s with
  | create config =>
      refine ⟨r, ?_, .refl r⟩
      cases hrun : (Graph.ofConfig config : Action IdSupply (Graph N E)) w.supply with
      | ok g supply =>
          simp only [step, hrun]
          rw [List.getElem?_append_left (List.getElem?_eq_some_iff.1 hr).1, hr]
      | error e supply => simp only [step, hrun, hr]
  | call i call => exact h.extends_onGraph call.extends i hr
  | raw i raw => exact h.extends_onGraph raw.extends i hr

/-- A graph keeps its place and its number, and its history grows. -/
theorem Registered.extends_run (h : w.Registered) (steps : List (Step N E)) {i : Nat}
    {r : Recorded N E} (hr : w.graphs[i]? = some r) :
    ∃ r', (w.run steps).graphs[i]? = some r' ∧ r.Extends r' := by
  induction steps generalizing w r with
  | nil => exact ⟨r, hr, .refl r⟩
  | cons s steps ih =>
      obtain ⟨r', hr', hext⟩ := h.extends_step s hr
      obtain ⟨r'', hr'', hext'⟩ := ih (h.run [s]) hr'
      exact ⟨r'', hr'', hext.trans hext'⟩

/-! ### The numbers of the graphs -/

/-- The numbers of the graphs are different ones of those that were drawn. -/
def Numbered (w : World N E) (first : UInt32) (drawn : Nat) : Prop :=
  w.supply.graph = first + UInt32.ofNat drawn ∧ ∃ ks : List Nat, ks.Nodup ∧
    (∀ k ∈ ks, k < drawn) ∧
    w.graphs.map (·.graph.id) = ks.map fun k => ⟨first + UInt32.ofNat k⟩

/-- An action on a graph leaves the numbers of all graphs alone. -/
theorem Registered.numbered_onGraph (h : w.Registered) {x : Action (Recorded N E) Unit}
    (hx : ∀ {r : Recorded N E} {V : View N E}, Graph.Holds r.graph V → r.Extends (x.after r))
    (i : Nat) {first : UInt32} {drawn : Nat} (hnum : w.Numbered first drawn) :
    (w.onGraph i x).Numbered first drawn := by
  have hids : (w.onGraph i x).graphs.map (·.graph.id) = w.graphs.map (·.graph.id) := by
    refine List.ext_getElem? fun j => ?_
    rw [List.getElem?_map, List.getElem?_map]
    cases hr : w.graphs[j]? with
    | none => rw [getElem?_onGraph, hr]; rfl
    | some r =>
        obtain ⟨r', hr', hext⟩ := h.extends_onGraph hx i hr
        rw [hr', Option.map_some, Option.map_some, hext.1]
  exact ⟨hnum.1, hids ▸ hnum.2⟩

/-- A step that creates a graph draws a number, and the numbers still differ. -/
theorem Registered.numbered_step (h : w.Registered) (s : Step N E) {first : UInt32}
    {drawn : Nat} (hnum : w.Numbered first drawn) :
    (w.step s).Numbered first (drawn + if s.creates then 1 else 0) := by
  cases s with
  | call i call => exact h.numbered_onGraph call.extends i hnum
  | raw i raw => exact h.numbered_onGraph raw.extends i hnum
  | create config =>
      obtain ⟨hsupply, ks, hnodup, hlt, hids⟩ := hnum
      have hnext := Graph.graph_ofConfig (N := N) (E := E) config w.supply
      have hsucc : w.supply.graph + 1 = first + UInt32.ofNat (drawn + 1) := by
        rw [hsupply, UInt32.ofNat_add, ← UInt32.add_assoc]
        rfl
      have hlt' : ∀ k ∈ ks, k < drawn + 1 := fun k hk => Nat.lt_succ_of_lt (hlt k hk)
      -- the number is drawn before the pools are made, so also when that fails
      cases hrun : (Graph.ofConfig config : Action IdSupply (Graph N E)) w.supply with
      | ok g supply =>
          rw [Action.after_of_ok hrun, hsucc] at hnext
          have hid : g.id = ⟨first + UInt32.ofNat drawn⟩ := by
            rw [← (Graph.ofConfig_holds hrun).shown.id, ← hsupply]
            rfl
          simp only [step, hrun]
          refine ⟨hnext, ks ++ [drawn], ?_, fun k hk => ?_, ?_⟩
          · refine List.nodup_append.2 ⟨hnodup, List.nodup_singleton _, fun k hk k' hk' => ?_⟩
            rw [List.mem_singleton.1 hk']
            exact Nat.ne_of_lt (hlt k hk)
          · rcases List.mem_append.1 hk with hk | hk
            · exact hlt' k hk
            · rw [List.mem_singleton.1 hk]
              exact Nat.lt_succ_self drawn
          · simp [hids, hid]
      | error e supply =>
          rw [Action.after_of_error hrun, hsucc] at hnext
          simp only [step, hrun]
          exact ⟨hnext, ks, hnodup, hlt', hids⟩

/-- A number was drawn for each step that was to create a graph. -/
theorem Registered.numbered_run (h : w.Registered) (steps : List (Step N E)) {first : UInt32}
    {drawn : Nat} (hnum : w.Numbered first drawn) :
    (w.run steps).Numbered first (drawn + creations steps) := by
  induction steps generalizing w drawn with
  | nil => exact hnum
  | cons s steps ih =>
      have hrest := ih (h.run [s]) (h.numbered_step s hnum)
      have hcount : drawn + creations (s :: steps) =
          drawn + (if s.creates then 1 else 0) + creations steps := by
        simp only [creations, List.countP_cons]
        omega
      rw [hcount]
      exact hrest

/-- The graphs of a world have different numbers, unless too many were created. -/
theorem nodup_ids (supply : IdSupply) {steps : List (Step N E)}
    (hfew : creations steps ≤ 2 ^ 32) :
    (((start supply).run steps).graphs.map (·.graph.id)).Nodup := by
  have hstart : (start supply : World N E).Numbered supply.graph 0 :=
    ⟨by simp [start], [], List.nodup_nil, by simp, rfl⟩
  obtain ⟨-, ks, hnodup, hlt, hids⟩ :=
    Registered.numbered_run (forall_start supply) steps hstart
  rw [hids]
  refine hnodup.map_on fun k hk k' hk' heq => ?_
  have hword : UInt32.ofNat k = UInt32.ofNat k' := by
    simpa using congrArg GraphId.word heq
  have hnat := congrArg UInt32.toNat hword
  have hsize : UInt32.size = 2 ^ 32 := rfl
  have hk := hlt k hk
  have hk' := hlt k' hk'
  rwa [UInt32.toNat_ofNat_of_lt' (by omega), UInt32.toNat_ofNat_of_lt' (by omega)] at hnat

/-! ### All graphs -/

/-- Every graph of every world answers what its history says. -/
theorem faithful (supply : IdSupply) (steps : List (Step N E)) :
    ∀ r ∈ ((start supply).run steps).graphs, r.Faithful := by
  intro r hr
  obtain ⟨V, h, hreg⟩ := registered_run supply steps r hr
  exact Recorded.faithful h hreg

/-- The handles that were issued by graphs with different numbers. -/
theorem nodup_issued {kind : EntityKind} {issued : Recorded N E → List (Handle kind)}
    (hown : ∀ r ∈ w.graphs, ∀ x ∈ issued r, x.graph = r.graph.id)
    (hnodup : ∀ r ∈ w.graphs, (issued r).Nodup) (hids : (w.graphs.map (·.graph.id)).Nodup) :
    (w.graphs.flatMap issued).Nodup := by
  refine List.nodup_flatMap.2 ⟨hnodup, ?_⟩
  refine (List.pairwise_map.1 hids).imp_of_mem fun {r r'} hr hr' hne => ?_
  intro x hx hx'
  exact hne ((hown r hr x hx).symm.trans (hown r' hr' x hx'))

/-- A handle that is dead in the graph that issued it stays dead, in all graphs. -/
theorem Registered.stays_dead (h : w.Registered) {later : List (Step N E)}
    (hids : ((w.run later).graphs.map (·.graph.id)).Nodup) {kind : EntityKind}
    (live : Handle kind → History N E → Prop) (issued : History N E → List (Handle kind))
    (hissued : ∀ {x past}, live x past → x ∈ issued past)
    (hgrow : ∀ deeds past, issued (deeds ++ past) = issued deeds ++ issued past)
    (hdead : ∀ {x deeds past}, ¬ live x past → x ∉ issued deeds → ¬ live x (deeds ++ past))
    (hown : ∀ r ∈ (w.run later).graphs, ∀ x ∈ issued r.history, x.graph = r.graph.id)
    (hnodup : ∀ r ∈ (w.run later).graphs, (issued r.history).Nodup)
    {r : Recorded N E} (hr : r ∈ w.graphs) {x : Handle kind} (hx : x ∈ issued r.history)
    (hnot : ¬ live x r.history) : ∀ r' ∈ (w.run later).graphs, ¬ live x r'.history := by
  intro r' hr' hlive
  obtain ⟨i, hi⟩ := List.mem_iff_getElem?.1 hr
  obtain ⟨j, hj⟩ := List.mem_iff_getElem?.1 hr'
  obtain ⟨r'', hi', hid, deeds, hhistory⟩ := h.extends_run later hi
  have hmem : r'' ∈ (w.run later).graphs := List.mem_of_getElem? hi'
  have hx'' : x ∈ issued r''.history := by
    rw [hhistory, hgrow]
    exact List.mem_append_right _ hx
  -- the graph that takes the handle for its own is the one that issued it
  have hsame : r''.graph.id = r'.graph.id :=
    (hown r'' hmem x hx'').symm.trans (hown r' hr' x (hissued hlive))
  obtain rfl : r'' = r' := List.inj_on_of_nodup_map hids hmem hr' hsame
  have hfresh : x ∉ issued deeds := by
    have hall := hnodup r'' hmem
    rw [hhistory, hgrow] at hall
    exact fun hin => (List.disjoint_of_nodup_append hall) hin hx
  rw [hhistory] at hlive
  exact hdead hnot hfresh hlive

/-- Handles are safe in a world, and stay so until a later one. -/
structure HandlesSafe (w w' : World N E) : Prop where
  /-- Every graph answers what its history says. -/
  faithful : ∀ r ∈ w.graphs, r.Faithful
  /-- No handle was issued to two nodes, whatever their graphs. -/
  nodesUnique : (w.graphs.flatMap fun r => History.nodesIssued r.history).Nodup
  /-- No handle was issued to two edges, whatever their graphs. -/
  edgesUnique : (w.graphs.flatMap fun r => History.edgesIssued r.history).Nodup
  /-- The handle of a node that was deleted is never taken for a node again. -/
  nodesDead : ∀ r ∈ w.graphs, ∀ node ∈ History.nodesIssued r.history,
    r.graph.containsNode node = false → ∀ r' ∈ w'.graphs, r'.graph.containsNode node = false
  /-- The handle of an edge that was deleted is never taken for an edge again. -/
  edgesDead : ∀ r ∈ w.graphs, ∀ edge ∈ History.edgesIssued r.history,
    r.graph.containsEdge edge = false → ∀ r' ∈ w'.graphs, r'.graph.containsEdge edge = false

/-- The handles of nodes that a graph has issued bear its number. -/
theorem Registered.nodes_own (h : w.Registered) :
    ∀ r ∈ w.graphs, ∀ node ∈ History.nodesIssued r.history, node.graph = r.graph.id := by
  intro r hr node hnode
  obtain ⟨V, hV, hreg⟩ := h r hr
  rw [← hV.shown.id]
  exact (hreg.nodes.issued_lt node hnode).1

/-- The handles of edges that a graph has issued bear its number. -/
theorem Registered.edges_own (h : w.Registered) :
    ∀ r ∈ w.graphs, ∀ edge ∈ History.edgesIssued r.history, edge.graph = r.graph.id := by
  intro r hr edge hedge
  obtain ⟨V, hV, hreg⟩ := h r hr
  rw [← hV.shown.id]
  exact (hreg.edges.issued_lt edge hedge).1

/-- In all worlds, whatever the calls and the handles, handles are safe, as long as at most
`2 ^ 32` graphs were to be created. -/
theorem handles_safe (supply : IdSupply) (steps later : List (Step N E))
    (hfew : creations (steps ++ later) ≤ 2 ^ 32) :
    HandlesSafe ((start supply).run steps) ((start supply).run (steps ++ later)) := by
  have hfew' : creations steps ≤ 2 ^ 32 := by
    rw [creations, List.countP_append] at hfew
    exact Nat.le_trans (Nat.le_add_right _ _) hfew
  have hreg := registered_run (N := N) (E := E) supply steps
  have hreg' := registered_run (N := N) (E := E) supply (steps ++ later)
  have hfaithful := faithful (N := N) (E := E) supply steps
  have hfaithful' := faithful (N := N) (E := E) supply (steps ++ later)
  have hids := nodup_ids (N := N) (E := E) supply hfew
  rw [run_append] at hreg' hfaithful' hids ⊢
  refine ⟨hfaithful, ?_, ?_, fun r hr node hnode hdead r' hr' => ?_,
    fun r hr edge hedge hdead r' hr' => ?_⟩
  · exact nodup_issued hreg.nodes_own (fun r hr => (hfaithful r hr).nodeIds.of_map _)
      (nodup_ids supply hfew')
  · exact nodup_issued hreg.edges_own (fun r hr => (hfaithful r hr).edgeIds.of_map _)
      (nodup_ids supply hfew')
  · rw [← Bool.not_eq_true, (hfaithful r hr).containsNode] at hdead
    rw [← Bool.not_eq_true, (hfaithful' r' hr').containsNode]
    exact hreg.stays_dead hids History.NodeLive History.nodesIssued
      History.mem_nodesIssued_of_live History.nodesIssued_append History.not_nodeLive_append
      hreg'.nodes_own
      (fun r hr => (hfaithful' r hr).nodeIds.of_map _) hr hnode hdead r' hr'
  · rw [← Bool.not_eq_true, (hfaithful r hr).containsEdge] at hdead
    rw [← Bool.not_eq_true, (hfaithful' r' hr').containsEdge]
    exact hreg.stays_dead hids History.EdgeLive History.edgesIssued
      History.mem_edgesIssued_of_live History.edgesIssued_append History.not_edgeLive_append
      hreg'.edges_own
      (fun r hr => (hfaithful' r hr).edgeIds.of_map _) hr hedge hdead r' hr'

/-- A node is deleted, and its slot is given to another one. -/
def reuse : List (Step Nat Nat) :=
  [.create ⟨1, 1⟩, .call 0 (.newNode 5), .call 0 (.deleteNode ⟨⟨0⟩, 0, ⟨0, 0⟩⟩),
    .call 0 (.newNode 6)]

/-- A node that was deleted stays dead when its slot is given to another one. -/
theorem handles_safe_reuse :
    ((start {}).run reuse).graphs.map (fun r =>
      (r.graph.containsNode ⟨⟨0⟩, 0, ⟨0, 0⟩⟩, r.graph.containsNode ⟨⟨0⟩, 1, ⟨0, 0⟩⟩)) =
      [(false, true)] ∧
    HandlesSafe ((start {}).run reuse) ((start {}).run (reuse ++ [.call 0 .clear])) :=
  ⟨by decide +kernel, handles_safe {} reuse [.call 0 .clear] (by decide)⟩

/-- The ids of all entities of a history, whatever their kind. -/
def uidsIssued (past : History N E) : List Nat :=
  (History.nodesIssued past).map Handle.uid ++ (History.edgesIssued past).map Handle.uid

/-- A node with a loop, each the first of its kind. -/
def firstLoop : List (Step Nat Nat) :=
  let node : NodeHandle := ⟨⟨0⟩, 0, ⟨0, 0⟩⟩
  [.create ⟨1, 1⟩, .call 0 (.newNode 5), .call 0 (.newEdge node node 7)]

/-- Nodes and edges are counted apart, so a node and an edge of one graph may have the same id. -/
theorem not_nodup_uids : ¬ ∀ steps : List (Step Nat Nat), creations steps ≤ 2 ^ 32 →
    ∀ r ∈ ((start {}).run steps).graphs, (uidsIssued r.history).Nodup := by
  intro hall
  have huids : ((start {}).run firstLoop).graphs.map (fun r => uidsIssued r.history) =
      [[0, 0]] := by decide +kernel
  have hmem : [0, 0] ∈ ((start {}).run firstLoop).graphs.map fun r => uidsIssued r.history := by
    rw [huids]
    exact List.mem_cons_self
  obtain ⟨r, hr, hsame⟩ := List.mem_map.1 hmem
  have hnodup := hall firstLoop (by decide) r hr
  rw [hsame] at hnodup
  exact absurd hnodup (by decide)

end World

end SlabGraph
