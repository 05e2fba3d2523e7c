import SlabGraph.Proofs.Handles
import SlabGraph.Proofs.Relocation.Calls
import SlabGraph.Proofs.Relocation.Queries

/-!
# Placement

Where a graph puts its entities cannot be told from outside. Two graphs that are created with
different chunk capacities respond the same to any requests (`Graph.ofConfig_indistinguishable`),
although their pools grow and reuse slots at different moments.

The two graphs stay alike, request by request. What a request has to bring along for this is that
its handles stand for the same entities in both graphs. A handle that was issued for an entity does
not move, and the id of the entity is issued once. So the handle that a history has for an id is at
odds with no view that agrees with the history: if the entity is live, it stands in the slot that
the handle names.

## Main definitions

* `Recorded.Registered`, `Recorded.Alike`.

## Main results

* `Graph.Holds.unique`: a graph holds one view;
* `Recorded.Alike.step`, `Recorded.Alike.indistinguishable`;
* `Graph.ofConfig_indistinguishable`.
-/

namespace SlabGraph

variable {N E : Type}

/-! ### The view of a graph -/

/-- A roster shows one population. -/
theorem Roster.Shows.unique {slots : Nat} [NeZero slots] {ι κ δ : Type} {f : ι → κ}
    {graph : GraphId} {roster : Roster slots ι δ} {P P' : Population κ δ}
    (h : Shows f graph roster P) (h' : Shows f graph roster P') (hc : P.Consistent)
    (hc' : P'.Consistent) : P = P' := by
  have hmembers : P.members = P'.members :=
    Except.ok.inj ((h.members_run hc).symm.trans (h'.members_run hc'))
  have hbody : P.body = P'.body := funext fun p => (h.body p).symm.trans (h'.body p)
  have hnext : P.next = P'.next := h.next.symm.trans h'.next
  have hlimit : P.limit = P'.limit := h.limit.trans h'.limit.symm
  cases P
  cases P'
  simp_all

/-- A graph holds one view. -/
theorem Graph.Holds.unique {g : Graph N E} {V V' : View N E} (h : Holds g V) (h' : Holds g V') :
    V = V' := by
  have hid : V.id = V'.id := h.shown.id.trans h'.shown.id.symm
  have hnodes : V.nodes = V'.nodes :=
    h.shown.nodes.unique h'.shown.nodes h.consistent.nodes h'.consistent.nodes
  have hedges : V.edges = V'.edges :=
    h.shown.edges.unique h'.shown.edges h.consistent.edges h'.consistent.edges
  refine View.ext hid hnodes hedges ?_ (h.shown.markers.trans h'.shown.markers.symm)
    (h.shown.nums.trans h'.shown.nums.symm)
  funext n dir
  cases hn : V.nodes.body n with
  | none => rw [h.consistent.inc_of_free hn, h'.consistent.inc_of_free (hnodes ▸ hn)]
  | some b =>
      have hlive : (V.nodes.body n).isSome = true := by simp [hn]
      have hlive' : (V'.nodes.body n).isSome = true := hnodes ▸ hlive
      exact Except.ok.inj
        ((h.incidentSlots_run hlive dir).symm.trans (h'.incidentSlots_run hlive' dir))

/-! ### The handles of a request -/

/-- The handle that was issued for an entity is not at odds with a population that agrees with what
was issued. -/
theorem Population.Registered.places {kind : EntityKind} {κ δ : Type} {P : Population κ δ}
    {graph : GraphId} {live : Handle kind → Prop} {data? : Handle kind → Option δ}
    {issued : List (Handle kind)} (h : P.Registered graph live data? issued)
    (hissued : ∀ x, live x → x ∈ issued) (x : Handle kind) :
    P.Places graph ((issued.find? fun y => y.unplaced = x.unplaced).getD x) := by
  intro p b hb howner huid
  let y : Handle kind := ⟨graph, b.uid, p⟩
  have hlive : live y :=
    (h.live_iff y).1 (by simp [show P.find? graph y = some b from find?_eq_some_iff.2 ⟨hb, rfl⟩])
  cases hfound : issued.find? fun y => y.unplaced = x.unplaced with
  | none =>
      rw [hfound] at howner huid
      have hne := List.find?_eq_none.1 hfound y (hissued y hlive)
      exact absurd (Handle.unplaced_inj.2 ⟨howner.symm, huid.symm⟩) (by simpa using hne)
  | some z =>
      rw [hfound] at huid
      have hids : (issued.map Handle.uid).Nodup :=
        List.pairwise_map.2 (h.newest_first.imp fun hlt => Nat.ne_of_gt hlt)
      obtain rfl : y = z := List.inj_on_of_nodup_map hids (hissued y hlive)
        (List.mem_of_find?_eq_some hfound) huid.symm
      rfl

/-- Views that agree with histories take the handles of these histories for the same entities. -/
theorem View.Registered.corresponds {V V' : View N E} {past past' : History N E}
    (h : V.Registered past) (h' : V'.Registered past') (kind : EntityKind) (x : Handle kind) :
    V.Corresponds V' (past.placed kind x) (past'.placed kind x) where
  unplaced := (past.unplaced_placed x).trans (past'.unplaced_placed x).symm
  left := by
    cases kind with
    | node => exact h.nodes.places (fun _ => History.mem_nodesIssued_of_live) x
    | edge => exact h.edges.places (fun _ => History.mem_edgesIssued_of_live) x
  right := by
    cases kind with
    | node => exact h'.nodes.places (fun _ => History.mem_nodesIssued_of_live) x
    | edge => exact h'.edges.places (fun _ => History.mem_edgesIssued_of_live) x

/-! ### One graph -/

namespace Recorded

variable {r r' : Recorded N E}

/-- A graph agrees with its history. -/
def Registered (r : Recorded N E) : Prop :=
  ∃ V, Graph.Holds r.graph V ∧ V.Registered r.history

/-- Every request keeps a graph in agreement with its history. -/
theorem Registered.after (h : r.Registered) (q : Request N E) : (q.after r).Registered := by
  obtain ⟨V, hV, hreg⟩ := h
  cases q with
  | call c =>
      obtain ⟨V', deeds, h', hhistory, hmoves⟩ := (c.rename r.history.placed).legal_run r V hV
      refine ⟨V', h', ?_⟩
      rw [Request.after, hhistory]
      exact (hmoves.preserves (I := View.Registered) hV.consistent
        (fun hc hI hmove => hI.move hc hmove) hreg).2
  | raw c =>
      obtain ⟨V', h', hhistory, hretagged⟩ := (c.rename r.history.placed).retags hV
      refine ⟨V', h', ?_⟩
      rw [Request.after, hhistory]
      exact hreg.retag hretagged
  | ask q => exact ⟨V, hV, hreg⟩

/-! ### Two graphs -/

/-- Two graphs are alike, and each agrees with its history. -/
structure Alike (r r' : Recorded N E) : Prop where
  /-- The graphs. -/
  graphs : r.graph.Alike r'.graph
  /-- The first history. -/
  left : r.Registered
  /-- The second history. -/
  right : r'.Registered

/-- A request to graphs that are alike gets the same response from both and leaves them alike. -/
theorem Alike.step (h : r.Alike r') (hbelow : r.graph.BelowLimit) (hbelow' : r'.graph.BelowLimit)
    (q : Request N E) : q.response r = q.response r' ∧ (q.after r).Alike (q.after r') := by
  obtain ⟨ρ, V, V', m⟩ := h.graphs
  obtain ⟨W, hW, hreg⟩ := h.left
  obtain ⟨W', hW', hreg'⟩ := h.right
  obtain rfl := m.left.unique hW
  obtain rfl := m.right.unique hW'
  have hσ := hreg.corresponds hreg'
  suffices hsame : q.response r = q.response r' ∧ (q.after r).graph.Alike (q.after r').graph from
    ⟨hsame.1, hsame.2, h.left.after q, h.right.after q⟩
  cases q with
  | call c =>
      have hrun := m.call hbelow hbelow' hσ c
      refine ⟨hrun.response, ?_⟩
      simpa only [Request.after, Call.graph_after, ← Call.after_reply] using hrun.graphs
  | raw c =>
      have hrun := m.rawCall hσ c
      refine ⟨hrun.response, ?_⟩
      simpa only [Request.after, RawCall.graph_after] using hrun.graphs
  | ask q => exact ⟨m.query hσ q, h.graphs⟩

/-- Graphs that are alike are indistinguishable. -/
theorem Alike.indistinguishable (h : r.Alike r') : r.Indistinguishable r' := by
  intro qs
  induction qs generalizing r r' with
  | nil => exact fun _ _ => rfl
  | cons q qs ih =>
      intro hbelow hbelow'
      obtain ⟨hresponse, hafter⟩ := h.step hbelow.1 hbelow'.1 q
      rw [responses, responses, hresponse, ih hafter hbelow.2 hbelow'.2]

end Recorded

/-! ### New graphs -/

/-- The capacities of a configuration are in range. -/
structure GraphConfig.InRange (config : GraphConfig) : Prop where
  /-- The number of node records per chunk. -/
  nodes : 0 < config.nodeCapacity ∧ config.nodeCapacity ≤ maxChunkEntries
  /-- The number of edge records per chunk. -/
  edges : 0 < config.edgeCapacity ∧ config.edgeCapacity ≤ maxChunkEntries

namespace Graph

/-- The numbers that a creation uses up do not depend on the capacities. -/
theorem ofConfig_inRange {config : GraphConfig} (h : config.InRange) (supply : IdSupply) :
    ∃ g : Graph N E, ofConfig config supply = .ok g ⟨supply.graph + 1, supply.owner + 1 + 1⟩ ∧
      Holds g (.blank ⟨supply.graph⟩ (maxChunks * config.nodeCapacity)
        (maxChunks * config.edgeCapacity) (.ofOwner supply.owner)
        (.ofOwner (supply.owner + 1))) := by
  obtain ⟨g, supply', hrun, hg⟩ := ofConfig_run (N := N) (E := E) h.nodes h.edges supply
  have hafter : (ofConfig config : Action IdSupply (Graph N E)).after supply =
      ⟨supply.graph + 1, supply.owner + 1 + 1⟩ := by
    simp [Action.after, Action.outcome, ofConfig, IdSupply.drawGraph, Capacity.ofNat, h.nodes,
      h.edges, TagLedger.new, IdSupply.drawOwner]
  rw [Action.after_of_ok hrun] at hafter
  exact ⟨g, hafter ▸ hrun, hg⟩

/-- Graphs that are created with any capacities in range are indistinguishable. -/
theorem ofConfig_indistinguishable {config config' : GraphConfig} (h : config.InRange)
    (h' : config'.InRange) (supply : IdSupply) :
    ∃ (g g' : Graph N E) (supply' : IdSupply), ofConfig config supply = .ok g supply' ∧
      ofConfig config' supply = .ok g' supply' ∧
      Recorded.Indistinguishable ⟨g, []⟩ ⟨g', []⟩ := by
  obtain ⟨g, hrun, hg⟩ := ofConfig_inRange (N := N) (E := E) h supply
  obtain ⟨g', hrun', hg'⟩ := ofConfig_inRange (N := N) (E := E) h' supply
  refine ⟨g, g', _, hrun, hrun', Recorded.Alike.indistinguishable
    ⟨⟨⟨fun n => n, fun e => e⟩, _, _, hg, hg', ?_⟩, ⟨_, hg, .blank ..⟩, ⟨_, hg', .blank ..⟩⟩⟩
  exact View.RelocatedBy.of_members_nil hg.consistent rfl rfl rfl rfl rfl rfl rfl rfl rfl

/-- A graph with its history, if it can be created. -/
def created (config : GraphConfig) : Option (Recorded Nat Nat) :=
  match (ofConfig config : Action IdSupply (Graph Nat Nat)) {} with
  | .ok g _ => some ⟨g, []⟩
  | .error _ _ => none

/-- The slot of a node is given out again, if its chunk has no other one that is free. -/
def reused : List (Request Nat Nat) :=
  let node (uid : Nat) : NodeHandle := ⟨⟨0⟩, uid, default⟩
  [.call (.newNode 5), .call (.newNode 6), .call (.deleteNode (node 0)), .call (.newNode 7),
    .call (.newEdge (node 1) (node 2) 8), .call (.newEdge (node 1) (node 0) 9),
    .ask (.containsNode (node 0)), .ask (.walkEdges (node 1) .outgoing), .ask .dump]

/-- Two graphs put a new node in different slots, since their chunks have different sizes, and
respond alike all the same. -/
theorem ofConfig_indistinguishable_reused : ∃ r ∈ created ⟨1, 1⟩, ∃ r' ∈ created ⟨3, 2⟩,
    (r.afterAll reused).graph.nodeList ≠ (r'.afterAll reused).graph.nodeList ∧
      r.responses reused = r'.responses reused := by
  obtain ⟨g, g', supply, hrun, hrun', hsame⟩ :=
    ofConfig_indistinguishable (N := Nat) (E := Nat) (⟨by decide, by decide⟩ :
      GraphConfig.InRange ⟨1, 1⟩) (⟨by decide, by decide⟩ : GraphConfig.InRange ⟨3, 2⟩) {}
  have hmem : ⟨g, []⟩ ∈ created ⟨1, 1⟩ := by simp [created, hrun]
  have hmem' : ⟨g', []⟩ ∈ created ⟨3, 2⟩ := by simp [created, hrun']
  have hdiffer : ∀ r ∈ created ⟨1, 1⟩, ∀ r' ∈ created ⟨3, 2⟩,
      (r.afterAll reused).graph.nodeList ≠ (r'.afterAll reused).graph.nodeList := by
    decide +kernel
  have hbelow : ∀ r ∈ created ⟨1, 1⟩, r.StaysBelow reused := by decide +kernel
  have hbelow' : ∀ r ∈ created ⟨3, 2⟩, r.StaysBelow reused := by decide +kernel
  exact ⟨_, hmem, _, hmem', hdiffer _ hmem _ hmem',
    hsame reused (hbelow _ hmem) (hbelow' _ hmem')⟩

end Graph

end SlabGraph
