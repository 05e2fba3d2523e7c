import SlabGraph.Graph.Edit
import SlabGraph.Graph.Tags
import SlabGraph.Proofs.Action
import SlabGraph.Proofs.History.Deeds

/-!
# Calls

The calls through which a graph is changed, with a history kept beside the graph. A call that
succeeds writes its deed down, and a call that fails writes nothing down. The split of an edge
is the three calls it consists of, each with its deed, since it may fail between them.

Keeping the history does not change what happens to the graph (`Recorded.projects_insertNode`,
`Call.projects_run`): without the history, a call is the operation of the graph that it names.

Calls take any handles, tags and values. The *raw* calls change the stamps of an entity or
replace a ledger without asking whether a tag is in use.

## Main definitions

* `Recorded`, a graph with its history, and its operations;
* `Call`, `Call.run`, `Call.runAll`; `RawCall`, `RawCall.run`.
-/

namespace SlabGraph

/-- A graph with its history. -/
structure Recorded (N E : Type) where
  /-- The graph. -/
  graph : Graph N E
  /-- What has happened to it. -/
  history : History N E

namespace Recorded

variable {N E α : Type}

/-- Runs an action on the graph, and writes the deeds of a success down. -/
def act (x : Action (Graph N E) α) (deeds : α → History N E) : Action (Recorded N E) α :=
  fun r => match x r.graph with
    | .ok a g => .ok a ⟨g, deeds a ++ r.history⟩
    | .error e g => .error e ⟨g, r.history⟩

/-- Adds a node. -/
def newNode (data : N) : Action (Recorded N E) NodeHandle :=
  act (Graph.newNode data) fun node => [.addNode node data]

/-- Adds an edge. -/
def newEdge (pred succ : NodeHandle) (data : E) : Action (Recorded N E) EdgeHandle :=
  act (Graph.newEdge pred succ data) fun edge => [.addEdge edge ⟨pred, succ⟩ data]

/-- Removes a node. -/
def deleteNode (node : NodeHandle) : Action (Recorded N E) N :=
  act (Graph.deleteNode node) fun _ => [.removeNode node]

/-- Removes an edge. -/
def deleteEdge (edge : EdgeHandle) : Action (Recorded N E) E :=
  act (Graph.deleteEdge edge) fun _ => [.removeEdge edge]

/-- Removes all nodes and edges. -/
def clear : Action (Recorded N E) Unit := act Graph.clear fun _ => [.clear]

/-- Retargets an end of an edge. -/
def setEnd (edge : EdgeHandle) (dir : Direction) (node : NodeHandle) :
    Action (Recorded N E) Unit :=
  act (Graph.setEnd edge dir node) fun _ => [.moveEnd edge dir node]

/-- Splits an edge by a new node. -/
def insertNode (edge : EdgeHandle) (nodeData : N) (edgeData : E) :
    Action (Recorded N E) NodeHandle := do
  let succ ← Action.read fun r => r.graph.edgeEnd edge .down
  let node ← newNode nodeData
  setEnd edge .down node
  let _ ← newEdge node succ edgeData
  return node

/-- Changes the payload of a node. -/
def updateNode (node : NodeHandle) (f : N → N) : Action (Recorded N E) N :=
  act (Graph.updateNode node f) fun old => [.writeNode node (f old)]

/-- Changes the payload of a node, if the node is live. -/
def updateNode? (node : NodeHandle) (f : N → N) : Action (Recorded N E) (Option N) :=
  act (Graph.updateNode? node f) fun old => old.toList.map fun data => .writeNode node (f data)

/-- Changes the payload of an edge. -/
def updateEdge (edge : EdgeHandle) (f : E → E) : Action (Recorded N E) E :=
  act (Graph.updateEdge edge f) fun old => [.writeEdge edge (f old)]

/-- Changes the payload of an edge, if the edge is live. -/
def updateEdge? (edge : EdgeHandle) (f : E → E) : Action (Recorded N E) (Option E) :=
  act (Graph.updateEdge? edge f) fun old => old.toList.map fun data => .writeEdge edge (f data)

/-- Grants a marker. -/
def newMarker : Action (Recorded N E) Marker :=
  act (TagHost.grant .marker) fun marker => [.grantMarker marker]

/-- Takes a marker back. -/
def freeMarker (marker : Marker) : Action (Recorded N E) Unit :=
  act (TagHost.release marker) fun _ => [.freeMarker marker]

/-- Grants a numeration. -/
def newNum : Action (Recorded N E) Numeration :=
  act (TagHost.grant .numeration) fun num => [.grantNum num]

/-- Takes a numeration back. -/
def freeNum (num : Numeration) : Action (Recorded N E) Unit :=
  act (TagHost.release num) fun _ => [.freeNum num]

section

variable {kind : EntityKind} (x : Handle kind)

/-- Sets a marker on an entity. -/
def mark (marker : Marker) : Action (Recorded N E) Bool :=
  act (Graph.mark x marker) fun _ => [.mark ⟨kind, x⟩ marker]

/-- Clears a marker on an entity. -/
def unmark (marker : Marker) : Action (Recorded N E) Bool :=
  act (Graph.unmark x marker) fun _ => [.unmark ⟨kind, x⟩ marker]

/-- Sets the number of an entity. -/
def setNumber (num : Numeration) (value : Int) : Action (Recorded N E) Unit :=
  act (Graph.setNumber x num value) fun _ => [.setNumber ⟨kind, x⟩ num value.toNat]

/-- Removes the number of an entity. -/
def unnumber (num : Numeration) : Action (Recorded N E) Bool :=
  act (Graph.unnumber x num) fun _ => [.unnumber ⟨kind, x⟩ num]

end

/-- Scrubs the stamps of the markers not in use in all entities. -/
def sweepMarkers : Action (Recorded N E) Unit :=
  act (modify (TagHost.sweep .marker)) fun _ => []

/-- Scrubs the numbers of the numerations not in use in all entities. -/
def sweepNums : Action (Recorded N E) Unit :=
  act (modify (TagHost.sweep .numeration)) fun _ => []

/-! ### The graph beside the history -/

/-- An action on a graph with its history does to the graph what another action does. -/
def Projects (x : Action (Recorded N E) α) (y : Action (Graph N E) α) : Prop :=
  ∀ r, match x r with
    | .ok a s => y r.graph = .ok a s.graph
    | .error e s => y r.graph = .error e s.graph

/-- An action does the same to the graph when its deeds are written down. -/
theorem projects_act (x : Action (Graph N E) α) (deeds : α → History N E) :
    Projects (act x deeds) x := by
  intro r
  unfold act
  cases x r.graph <;> rfl

/-- Actions in a row do to the graph what the actions they stand for do in a row. -/
theorem Projects.bind {β : Type} {x : Action (Recorded N E) α} {y : Action (Graph N E) α}
    {f : α → Action (Recorded N E) β} {k : α → Action (Graph N E) β} (h : Projects x y)
    (hf : ∀ a, Projects (f a) (k a)) : Projects (x >>= f) (y >>= k) := by
  intro r
  have hx := h r
  simp only [Action.run_bind]
  cases hrun : x r with
  | ok a s =>
      simp only [hrun] at hx
      simp only [hx]
      exact hf a s
  | error e s =>
      simp only [hrun] at hx
      simp only [hx]

/-- An answer without an action does nothing to the graph. -/
theorem projects_pure (a : α) : Projects (pure a : Action (Recorded N E) α) (pure a) :=
  fun _ => rfl

/-- What is read off the graph is the same with its history beside it. -/
theorem projects_read (f : Graph N E → Except Fault α) :
    Projects (Action.read fun r => f r.graph) (Action.read f) := by
  intro r
  simp only [Action.run_read]
  cases f r.graph <;> rfl

/-- Splitting an edge call by call is splitting it. -/
theorem projects_insertNode (edge : EdgeHandle) (nodeData : N) (edgeData : E) :
    Projects (insertNode edge nodeData edgeData) (Graph.insertNode edge nodeData edgeData) := by
  refine (projects_read fun g => g.edgeEnd edge .down).bind fun succ => ?_
  refine (projects_act _ _).bind fun node => ?_
  refine (projects_act _ _).bind fun _ => ?_
  exact (projects_act _ _).bind fun _ => projects_pure node

end Recorded

/-! ### Calls -/

/-- A call that changes a graph. -/
inductive Call (N E : Type) where
  | newNode (data : N)
  | newEdge (pred succ : NodeHandle) (data : E)
  | deleteNode (node : NodeHandle)
  | deleteEdge (edge : EdgeHandle)
  | clear
  | setEnd (edge : EdgeHandle) (dir : Direction) (node : NodeHandle)
  | insertNode (edge : EdgeHandle) (nodeData : N) (edgeData : E)
  | updateNode (node : NodeHandle) (f : N → N)
  | updateNode? (node : NodeHandle) (f : N → N)
  | updateEdge (edge : EdgeHandle) (f : E → E)
  | updateEdge? (edge : EdgeHandle) (f : E → E)
  | newMarker
  | freeMarker (marker : Marker)
  | sweepMarkers
  | mark {kind : EntityKind} (x : Handle kind) (marker : Marker)
  | unmark {kind : EntityKind} (x : Handle kind) (marker : Marker)
  | newNum
  | freeNum (num : Numeration)
  | sweepNums
  | setNumber {kind : EntityKind} (x : Handle kind) (num : Numeration) (value : Int)
  | unnumber {kind : EntityKind} (x : Handle kind) (num : Numeration)

namespace Call

variable {N E : Type}

/-- Carries a call out, and leaves its answer out. -/
def run : Call N E → Action (Recorded N E) Unit
  | newNode data => do let _ ← Recorded.newNode data
  | newEdge pred succ data => do let _ ← Recorded.newEdge pred succ data
  | deleteNode node => do let _ ← Recorded.deleteNode node
  | deleteEdge edge => do let _ ← Recorded.deleteEdge edge
  | clear => Recorded.clear
  | setEnd edge dir node => Recorded.setEnd edge dir node
  | insertNode edge nodeData edgeData => do let _ ← Recorded.insertNode edge nodeData edgeData
  | updateNode node f => do let _ ← Recorded.updateNode node f
  | updateNode? node f => do let _ ← Recorded.updateNode? node f
  | updateEdge edge f => do let _ ← Recorded.updateEdge edge f
  | updateEdge? edge f => do let _ ← Recorded.updateEdge? edge f
  | newMarker => do let _ ← Recorded.newMarker
  | freeMarker marker => Recorded.freeMarker marker
  | sweepMarkers => Recorded.sweepMarkers
  | mark x marker => do let _ ← Recorded.mark x marker
  | unmark x marker => do let _ ← Recorded.unmark x marker
  | newNum => do let _ ← Recorded.newNum
  | freeNum num => Recorded.freeNum num
  | sweepNums => Recorded.sweepNums
  | setNumber x num value => Recorded.setNumber x num value
  | unnumber x num => do let _ ← Recorded.unnumber x num

/-- The operation of a graph that a call names. -/
def onGraph : Call N E → Action (Graph N E) Unit
  | newNode data => do let _ ← Graph.newNode data
  | newEdge pred succ data => do let _ ← Graph.newEdge pred succ data
  | deleteNode node => do let _ ← Graph.deleteNode node
  | deleteEdge edge => do let _ ← Graph.deleteEdge edge
  | clear => Graph.clear
  | setEnd edge dir node => Graph.setEnd edge dir node
  | insertNode edge nodeData edgeData => do let _ ← Graph.insertNode edge nodeData edgeData
  | updateNode node f => do let _ ← Graph.updateNode node f
  | updateNode? node f => do let _ ← Graph.updateNode? node f
  | updateEdge edge f => do let _ ← Graph.updateEdge edge f
  | updateEdge? edge f => do let _ ← Graph.updateEdge? edge f
  | newMarker => do let _ ← TagHost.grant .marker
  | freeMarker marker => TagHost.release marker
  | sweepMarkers => modify (TagHost.sweep .marker)
  | mark x marker => do let _ ← Graph.mark x marker
  | unmark x marker => do let _ ← Graph.unmark x marker
  | newNum => do let _ ← TagHost.grant .numeration
  | freeNum num => TagHost.release num
  | sweepNums => modify (TagHost.sweep .numeration)
  | setNumber x num value => Graph.setNumber x num value
  | unnumber x num => do let _ ← Graph.unnumber x num

/-- Without the history, a call is the operation of the graph that it names. -/
theorem projects_run (call : Call N E) : Recorded.Projects call.run call.onGraph := by
  have hact : ∀ {α : Type} (x : Action (Graph N E) α) (deeds : α → History N E),
      Recorded.Projects (do let _ ← Recorded.act x deeds) (do let _ ← x) := fun x deeds =>
    (Recorded.projects_act x deeds).bind fun _ => Recorded.projects_pure _
  cases call with
  | clear => exact Recorded.projects_act Graph.clear fun _ => [.clear]
  | sweepMarkers => exact Recorded.projects_act (modify (TagHost.sweep .marker)) fun _ => []
  | sweepNums => exact Recorded.projects_act (modify (TagHost.sweep .numeration)) fun _ => []
  | setEnd | freeMarker | freeNum | setNumber => exact Recorded.projects_act _ _
  | insertNode edge nodeData edgeData =>
      exact (Recorded.projects_insertNode edge nodeData edgeData).bind fun _ =>
        Recorded.projects_pure _
  | _ => exact hact _ _

/-- The graph after a call, and the graph after the operation that it names. -/
theorem graph_after (call : Call N E) (r : Recorded N E) :
    (call.run.after r).graph = call.onGraph.after r.graph := by
  have h := call.projects_run r
  unfold Action.after Action.outcome
  cases hrun : call.run r with
  | ok a s => simp only [hrun] at h; simp only [h]
  | error e s => simp only [hrun] at h; simp only [h]

end Call

/-- Carries calls out one after another, whether or not they succeed. -/
def Call.runAll {N E : Type} (calls : List (Call N E)) (r : Recorded N E) : Recorded N E :=
  calls.foldl (fun r call => call.run.after r) r

/-- A call that changes tags without asking whether they are in use. -/
inductive RawCall (N E : Type) where
  /-- Changes the stamps of an entity. -/
  | changeArea {kind : EntityKind} (x : Handle kind)
      (change : TagArea → Except Fault (Unit × TagArea))
  /-- Replaces the ledgers. -/
  | setLedgers (markers : TagLedger .marker) (nums : TagLedger .numeration)

/-- Carries a raw call out. It leaves no deed. -/
def RawCall.run {N E : Type} : RawCall N E → Action (Recorded N E) Unit
  | changeArea x change => Recorded.act (Graph.onArea x change) fun _ => []
  | setLedgers markers nums =>
    Recorded.act (modify fun g => { g with markers, nums }) fun _ => []

end SlabGraph
