import SlabGraph.Proofs.History.Steps

/-!
# Worlds

A world is any number of graphs, each with its history, and the supply of the numbers that
come next. One step of a world creates a graph, or carries out a call on one of the graphs. No
step needs to succeed: a world goes on from the state that a failed call left behind. A graph
that was given up is one that no further step is about, and keeps its history.

What is to be shown of all graphs of all worlds is shown of the view of a new graph, of each
move, and of a change of tags (`World.exists_view`).

## Main definitions

* `World`, `World.Step`, `World.step`, `World.run`;
* `View.blank`, the view of a new graph.

## Main results

* `Graph.ofConfig_run`, `Graph.ofConfig_holds`;
* `World.forall_run`, `World.exists_view`.
-/

namespace SlabGraph

variable {N E : Type}

/-! ### New graphs -/

/-- The view of a graph without nodes, edges and tags. -/
def View.blank (id : GraphId) (nodeRoom edgeRoom : Nat) (markers : TagLedger .marker)
    (nums : TagLedger .numeration) : View N E where
  id
  nodes := .nobody nodeRoom
  edges := .nobody edgeRoom
  inc _ _ := []
  markers
  nums

/-- A blank view is consistent. -/
theorem View.consistent_blank (id : GraphId) (nodeRoom edgeRoom : Nat)
    (markers : TagLedger .marker) (nums : TagLedger .numeration) :
    (View.blank id nodeRoom edgeRoom markers nums : View N E).Consistent where
  nodes := Population.Consistent.nobody nodeRoom
  edges := Population.Consistent.nobody edgeRoom
  ends e b hb := by cases hb
  inc_iff n dir e := by simp [blank, Population.nobody]

namespace Graph

/-- A new graph holds a blank view. -/
theorem Holds.new (id : GraphId) (nodes edges : Capacity) (markers : TagLedger .marker)
    (nums : TagLedger .numeration) :
    Holds ({ id, nodes := .new nodes, edges := .new edges, markers, nums } : Graph N E)
      (.blank id (maxChunks * nodes.entries) (maxChunks * edges.entries) markers nums) where
  shown := by
    refine ⟨rfl, Roster.shows_new _ id nodes, Roster.shows_new _ id edges, fun n r hr => ?_,
      fun n dir => LinkMap.isList_nil _, fun dir n m _ => List.disjoint_nil_left _,
      fun e dir he => ?_, rfl, rfl⟩
    · simp [Roster.new, Pool.get?_new] at hr
    · simp [View.blank, Population.nobody] at he
  consistent := View.consistent_blank ..

/-- With capacities that are in range, a graph is created. -/
theorem ofConfig_run {config : GraphConfig}
    (hnodes : 0 < config.nodeCapacity ∧ config.nodeCapacity ≤ maxChunkEntries)
    (hedges : 0 < config.edgeCapacity ∧ config.edgeCapacity ≤ maxChunkEntries)
    (supply : IdSupply) :
    ∃ (g : Graph N E) (supply' : IdSupply), ofConfig config supply = .ok g supply' ∧
      Holds g (.blank ⟨supply.graph⟩ (maxChunks * config.nodeCapacity)
        (maxChunks * config.edgeCapacity) (.ofOwner supply.owner)
        (.ofOwner (supply.owner + 1))) := by
  refine ⟨_, ⟨supply.graph + 1, supply.owner + 1 + 1⟩, ?_,
    Holds.new ⟨supply.graph⟩ ⟨config.nodeCapacity, hnodes.1, hnodes.2⟩
      ⟨config.edgeCapacity, hedges.1, hedges.2⟩ _ _⟩
  simp [ofConfig, IdSupply.drawGraph, Capacity.ofNat, hnodes, hedges, TagLedger.new,
    IdSupply.drawOwner]

/-- With a capacity out of range no graph is created, and a number is used up nevertheless. -/
theorem ofConfig_refused {config : GraphConfig}
    (hbad : ¬ ((0 < config.nodeCapacity ∧ config.nodeCapacity ≤ maxChunkEntries) ∧
      (0 < config.edgeCapacity ∧ config.edgeCapacity ≤ maxChunkEntries)))
    (supply : IdSupply) :
    (ofConfig config : Action IdSupply (Graph N E)) supply =
      .error .capacityOutOfRange { supply with graph := supply.graph + 1 } := by
  by_cases hnodes : 0 < config.nodeCapacity ∧ config.nodeCapacity ≤ maxChunkEntries
  · have hedges : ¬ (0 < config.edgeCapacity ∧ config.edgeCapacity ≤ maxChunkEntries) :=
      fun h => hbad ⟨hnodes, h⟩
    simp [ofConfig, IdSupply.drawGraph, Capacity.ofNat, hnodes, hedges]
  · simp [ofConfig, IdSupply.drawGraph, Capacity.ofNat, hnodes]

/-- What a created graph holds. -/
theorem ofConfig_holds {config : GraphConfig} {supply supply' : IdSupply} {g : Graph N E}
    (hrun : ofConfig config supply = .ok g supply') :
    Holds g (.blank ⟨supply.graph⟩ (maxChunks * config.nodeCapacity)
      (maxChunks * config.edgeCapacity) (.ofOwner supply.owner)
      (.ofOwner (supply.owner + 1))) := by
  by_cases hgood : (0 < config.nodeCapacity ∧ config.nodeCapacity ≤ maxChunkEntries) ∧
      (0 < config.edgeCapacity ∧ config.edgeCapacity ≤ maxChunkEntries)
  · obtain ⟨g', _, hrun', h⟩ := ofConfig_run (N := N) (E := E) hgood.1 hgood.2 supply
    rw [hrun] at hrun'
    cases hrun'
    exact h
  · rw [ofConfig_refused hgood] at hrun
    cases hrun

/-- A creation uses one number of a graph up, whether or not it succeeds. -/
theorem graph_ofConfig (config : GraphConfig) (supply : IdSupply) :
    ((ofConfig config : Action IdSupply (Graph N E)).after supply).graph = supply.graph + 1 := by
  by_cases hgood : (0 < config.nodeCapacity ∧ config.nodeCapacity ≤ maxChunkEntries) ∧
      (0 < config.edgeCapacity ∧ config.edgeCapacity ≤ maxChunkEntries)
  · simp [Action.after, Action.outcome, ofConfig, IdSupply.drawGraph, Capacity.ofNat, hgood,
      TagLedger.new, IdSupply.drawOwner]
  · rw [Action.after_of_error (ofConfig_refused hgood supply)]

end Graph

/-! ### Worlds -/

/-- Graphs with their histories, in the order of their creation. -/
structure World (N E : Type) where
  /-- The numbers that come next. -/
  supply : IdSupply
  /-- The graphs. -/
  graphs : List (Recorded N E)

namespace World

/-- What can happen in a world. -/
inductive Step (N E : Type) where
  /-- A graph is created, if the configuration allows it. -/
  | create (config : GraphConfig)
  /-- A call is carried out on the graph at a position. -/
  | call (i : Nat) (call : Call N E)
  /-- A raw call is carried out on the graph at a position. -/
  | raw (i : Nat) (raw : RawCall N E)

/-- A world without graphs. -/
def start (supply : IdSupply) : World N E := ⟨supply, []⟩

/-- Runs an action on the graph at a position. -/
def onGraph (w : World N E) (i : Nat) (x : Action (Recorded N E) Unit) : World N E :=
  { w with graphs := w.graphs.modify i x.after }

/-- The world after a step. -/
def step (w : World N E) : Step N E → World N E
  | .create config => match (Graph.ofConfig config : Action IdSupply (Graph N E)) w.supply with
    | .ok graph supply => ⟨supply, w.graphs ++ [⟨graph, []⟩]⟩
    | .error _ supply => { w with supply }
  | .call i call => w.onGraph i call.run
  | .raw i raw => w.onGraph i raw.run

/-- The world after some steps. -/
def run (w : World N E) (steps : List (Step N E)) : World N E := steps.foldl step w

/-- Some steps, and then some more. -/
theorem run_append (w : World N E) (steps steps' : List (Step N E)) :
    w.run (steps ++ steps') = (w.run steps).run steps' := List.foldl_append

/-- An action on one graph of a world leaves the others alone. -/
theorem getElem?_onGraph (w : World N E) (i : Nat) (x : Action (Recorded N E) Unit) (j : Nat) :
    (w.onGraph i x).graphs[j]? =
      (w.graphs[j]?).map fun r => if i = j then x.after r else r := by
  rw [onGraph, List.getElem?_modify]
  cases w.graphs[j]? <;> by_cases h : i = j <;> simp [h]

/-- A graph after an action on one of them was there before, or is what the action left behind. -/
theorem mem_onGraph {w : World N E} {i : Nat} {x : Action (Recorded N E) Unit}
    {r : Recorded N E} (h : r ∈ (w.onGraph i x).graphs) :
    r ∈ w.graphs ∨ ∃ r₀ ∈ w.graphs, r = x.after r₀ := by
  obtain ⟨j, hj⟩ := List.mem_iff_getElem?.1 h
  rw [getElem?_onGraph] at hj
  obtain ⟨r₀, hr₀, rfl⟩ := Option.map_eq_some_iff.1 hj
  have hmem : r₀ ∈ w.graphs := List.mem_of_getElem? hr₀
  by_cases hi : i = j
  · exact .inr ⟨r₀, hmem, by simp [hi]⟩
  · exact .inl (by simpa [hi] using hmem)

/-- What holds of all graphs after a step. -/
theorem forall_step {I : Recorded N E → Prop} {w : World N E} (hw : ∀ r ∈ w.graphs, I r)
    (hnew : ∀ {config : GraphConfig} {supply supply' : IdSupply} {g : Graph N E},
      Graph.ofConfig config supply = .ok g supply' → I ⟨g, []⟩)
    (hcall : ∀ (call : Call N E) {r : Recorded N E}, I r → I (call.run.after r))
    {s : Step N E} (hraw : ∀ i raw, s = .raw i raw → ∀ {r : Recorded N E}, I r →
      I (raw.run.after r)) : ∀ r ∈ (w.step s).graphs, I r := by
  have hon : ∀ i (x : Action (Recorded N E) Unit), (∀ {r}, I r → I (x.after r)) →
      ∀ r ∈ (w.onGraph i x).graphs, I r := by
    intro i x hx r hr
    rcases mem_onGraph hr with hr | ⟨r₀, hr₀, rfl⟩
    · exact hw r hr
    · exact hx (hw r₀ hr₀)
  cases s with
  | create config =>
      intro r hr
      cases hrun : (Graph.ofConfig config : Action IdSupply (Graph N E)) w.supply with
      | ok g supply' =>
          simp only [step, hrun] at hr
          rcases List.mem_append.1 hr with hr | hr
          · exact hw r hr
          · rw [List.mem_singleton.1 hr]
            exact hnew hrun
      | error e supply' =>
          simp only [step, hrun] at hr
          exact hw r hr
  | call i call => exact hon i call.run (hcall call)
  | raw i raw => exact hon i raw.run (hraw i raw rfl)

/-- What holds of all graphs after a run. -/
theorem forall_run {I : Recorded N E → Prop}
    (hnew : ∀ {config : GraphConfig} {supply supply' : IdSupply} {g : Graph N E},
      Graph.ofConfig config supply = .ok g supply' → I ⟨g, []⟩)
    (hcall : ∀ (call : Call N E) {r : Recorded N E}, I r → I (call.run.after r))
    {steps : List (Step N E)} (hraw : ∀ i raw, .raw i raw ∈ steps → ∀ {r : Recorded N E}, I r →
      I (raw.run.after r)) {w : World N E} (hw : ∀ r ∈ w.graphs, I r) :
    ∀ r ∈ (w.run steps).graphs, I r := by
  induction steps generalizing w with
  | nil => exact hw
  | cons s steps ih =>
      refine ih (fun i raw hmem => hraw i raw (List.mem_cons_of_mem s hmem)) ?_
      exact forall_step hw hnew hcall fun i raw heq => hraw i raw (heq ▸ List.mem_cons_self)

/-- What holds of a blank view and is preserved by moves and by changes of tags holds of every
graph after a run, for a consistent view of the graph. -/
theorem exists_view {I : View N E → History N E → Prop}
    (hblank : ∀ id nodeRoom edgeRoom markers nums, I (.blank id nodeRoom edgeRoom markers nums) [])
    (hmove : ∀ {V V' : View N E} {deeds past : History N E}, V.Consistent → I V past →
      Move V deeds V' → I V' (deeds ++ past))
    (htags : ∀ {V V' : View N E} {past : History N E}, I V past → Retagged V V' → I V' past)
    (steps : List (Step N E)) {w : World N E}
    (hw : ∀ r ∈ w.graphs, ∃ V, Graph.Holds r.graph V ∧ I V r.history) :
    ∀ r ∈ (w.run steps).graphs, ∃ V, Graph.Holds r.graph V ∧ I V r.history := by
  refine forall_run (I := fun r => ∃ V, Graph.Holds r.graph V ∧ I V r.history) ?_ ?_ ?_ hw
  · intro config supply supply' g hrun
    exact ⟨_, Graph.ofConfig_holds hrun, hblank _ _ _ _ _⟩
  · rintro call r ⟨V, h, hI⟩
    obtain ⟨V', deeds, h', hhistory, hmoves⟩ := call.legal_run r V h
    rw [hhistory]
    exact ⟨V', h', (hmoves.preserves h.consistent hmove hI).2⟩
  · rintro - raw - r ⟨V, h, hI⟩
    obtain ⟨V', h', hhistory, hretagged⟩ := raw.retags h
    rw [hhistory]
    exact ⟨V', h', htags hI hretagged⟩

/-- A world without graphs says nothing about them. -/
theorem forall_start {I : Recorded N E → Prop} (supply : IdSupply) :
    ∀ r ∈ (start supply : World N E).graphs, I r := by
  intro r hr
  cases hr

end World

end SlabGraph
