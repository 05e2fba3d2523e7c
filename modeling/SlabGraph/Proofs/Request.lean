import SlabGraph.Graph.Cursor
import SlabGraph.Graph.Dump
import SlabGraph.Graph.Verify
import SlabGraph.Proofs.Graph.Tags
import SlabGraph.Proofs.History.Calls
import SlabGraph.Proofs.Relocation.Population

/-!
# Requests

What can be asked of a graph, and what can be told from the answers once the slots of handles are
left out. A request is a call, a raw call, or a query that only reads. Whoever makes requests of
two graphs cannot use the handles of one for the other, so in a request a handle stands for the
entity of its graph with its id, and the graph is given the handle that it issued for that entity
(`History.placed`). A handle that was never issued is given as it is.

The response to a request is the answer or the fault, with the slots of handles left out
(`Request.response`). Two graphs with their histories are indistinguishable if they respond the
same to any requests made one after another, as long as no pool has all its chunks
(`Recorded.Indistinguishable`).

## Main definitions

* `Answer`, `Query`, `Query.reply`, `Call.reply`, `RawCall.reply`;
* `History.issued`, `History.placed`, `Request`, `Request.response`, `Request.after`;
* `Recorded.responses`, `Recorded.StaysBelow`, `Recorded.Indistinguishable`.

## Main results

* `Call.after_reply`, `RawCall.graph_after`: what a reply does to the graph.
-/

namespace SlabGraph

variable {N E : Type}

/-! ### Answers -/

/-- What a graph answers. -/
inductive Answer (N E : Type) where
  /-- Nothing but that it was done. -/
  | done
  /-- Yes or no. -/
  | flag (value : Bool)
  /-- A number. -/
  | amount (value : Nat)
  /-- A text. -/
  | text (value : String)
  /-- Nodes and edges. -/
  | entities (xs : List AnyHandle)
  /-- A position in a walk. -/
  | cursor (cursor : EdgeCursor)
  /-- Payloads of nodes. -/
  | nodeData (data : List N)
  /-- Payloads of edges. -/
  | edgeData (data : List E)
  /-- The stamps of an entity. -/
  | stamps (area : TagArea)
  /-- A marker. -/
  | marker (marker : Marker)
  /-- A numeration. -/
  | num (num : Numeration)

namespace Answer

/-- An answer that names nodes. -/
def nodes (xs : List NodeHandle) : Answer N E := .entities (xs.map (Sigma.mk .node))

/-- An answer that names edges. -/
def edges (xs : List EdgeHandle) : Answer N E := .entities (xs.map (Sigma.mk .edge))

/-- An answer with the slots of handles left out. -/
def unplaced : Answer N E → Answer N E
  | entities xs => .entities (xs.map fun x => ⟨x.1, x.2.unplaced⟩)
  | cursor position => .cursor ⟨position.edge?.map Handle.unplaced, position.walk⟩
  | answer => answer

/-- Some nodes without their slots. -/
@[simp] theorem unplaced_nodes (xs : List NodeHandle) :
    (nodes xs : Answer N E).unplaced = nodes (xs.map Handle.unplaced) := by
  simp [nodes, unplaced]

/-- Some edges without their slots. -/
@[simp] theorem unplaced_edges (xs : List EdgeHandle) :
    (edges xs : Answer N E).unplaced = edges (xs.map Handle.unplaced) := by
  simp [edges, unplaced]

end Answer

/-- A fault with the slots of handles left out. -/
def Fault.unplaced : Fault → Fault
  | @foreign _ handle graph => .foreign handle.unplaced graph
  | @deleted _ handle => .deleted handle.unplaced
  | fault => fault

/-- What comes back from a request. -/
abbrev Response (N E : Type) := Except Fault (Answer N E)

/-- A response with the slots of handles left out. -/
def Response.unplaced : Response N E → Response N E
  | .ok answer => .ok answer.unplaced
  | .error fault => .error fault.unplaced

/-! ### Queries -/

/-- A request that only reads. -/
inductive Query where
  | numNodes
  | numEdges
  | summary
  | dump
  | verify
  | containsNode (node : NodeHandle)
  | containsEdge (edge : EdgeHandle)
  | nodeUid (node : NodeHandle)
  | edgeUid (edge : EdgeHandle)
  | nodeData (node : NodeHandle)
  | edgeData (edge : EdgeHandle)
  | nodeData? (node : NodeHandle)
  | edgeData? (edge : EdgeHandle)
  | nodes
  | edges
  | firstNode
  | firstEdge
  | nextNode (node : NodeHandle)
  | prevNode (node : NodeHandle)
  | nextEdge (edge : EdgeHandle)
  | prevEdge (edge : EdgeHandle)
  | edgeEnd (edge : EdgeHandle) (dir : Direction)
  | firstIncident (node : NodeHandle) (dir : Direction)
  | nextIncident (edge : EdgeHandle) (dir : Direction)
  | walkEdges (node : NodeHandle) (walk : Walk)
  | begin (node : NodeHandle) (walk : Walk)
  | advance (cursor : EdgeCursor)
  | stamps {kind : EntityKind} (x : Handle kind)
  | isMarked {kind : EntityKind} (x : Handle kind) (marker : Marker)
  | isNumbered {kind : EntityKind} (x : Handle kind) (num : Numeration)
  | number {kind : EntityKind} (x : Handle kind) (num : Numeration)
  | markerInUse (marker : Marker)
  | numInUse (num : Numeration)

/-- The answer to a query. -/
def Query.reply (g : Graph N E) : Query → Except Fault (Answer N E)
  | numNodes => .ok (.amount g.nodes.count)
  | numEdges => .ok (.amount g.edges.count)
  | summary => .ok (.text g.summary)
  | dump => .text <$> g.dumpText
  | verify => (fun _ => .done) <$> g.verify
  | containsNode node => .ok (.flag (g.containsNode node))
  | containsEdge edge => .ok (.flag (g.containsEdge edge))
  | nodeUid node => .amount <$> g.nodeUid node
  | edgeUid edge => .amount <$> g.edgeUid edge
  | nodeData node => (fun data => .nodeData [data]) <$> g.nodeData node
  | edgeData edge => (fun data => .edgeData [data]) <$> g.edgeData edge
  | nodeData? node => .ok (.nodeData (g.nodeData? node).toList)
  | edgeData? edge => .ok (.edgeData (g.edgeData? edge).toList)
  | nodes => .nodes <$> g.nodeList
  | edges => .edges <$> g.edgeList
  | firstNode => (fun node? => .nodes node?.toList) <$> g.firstNode
  | firstEdge => (fun edge? => .edges edge?.toList) <$> g.firstEdge
  | nextNode node => (fun node? => .nodes node?.toList) <$> g.nextNode node
  | prevNode node => (fun node? => .nodes node?.toList) <$> g.prevNode node
  | nextEdge edge => (fun edge? => .edges edge?.toList) <$> g.nextEdge edge
  | prevEdge edge => (fun edge? => .edges edge?.toList) <$> g.prevEdge edge
  | edgeEnd edge dir => (fun node => .nodes [node]) <$> g.edgeEnd edge dir
  | firstIncident node dir => (fun edge? => .edges edge?.toList) <$> g.firstIncident node dir
  | nextIncident edge dir => (fun edge? => .edges edge?.toList) <$> g.nextIncident edge dir
  | walkEdges node walk => .edges <$> g.walkEdges node walk
  | begin node walk => .cursor <$> EdgeCursor.begin g node walk
  | advance cursor => .cursor <$> cursor.advance g
  | stamps x => .stamps <$> g.area x
  | isMarked x marker => .flag <$> g.isMarked x marker
  | isNumbered x num => .flag <$> g.isNumbered x num
  | number x num => .amount <$> g.number x num
  | markerInUse marker => .ok (.flag (g.markers.isLive marker))
  | numInUse num => .ok (.flag (g.nums.isLive num))

/-! ### Calls -/

/-- Carries a call out, and answers what the operation answers. -/
def Call.reply : Call N E → Action (Graph N E) (Answer N E)
  | newNode data => (fun node => .nodes [node]) <$> Graph.newNode data
  | newEdge pred succ data => (fun edge => .edges [edge]) <$> Graph.newEdge pred succ data
  | deleteNode node => (fun data => .nodeData [data]) <$> Graph.deleteNode node
  | deleteEdge edge => (fun data => .edgeData [data]) <$> Graph.deleteEdge edge
  | clear => (fun _ => .done) <$> Graph.clear
  | setEnd edge dir node => (fun _ => .done) <$> Graph.setEnd edge dir node
  | insertNode edge nodeData edgeData =>
    (fun node => .nodes [node]) <$> Graph.insertNode edge nodeData edgeData
  | updateNode node f => (fun data => .nodeData [data]) <$> Graph.updateNode node f
  | updateNode? node f => (fun data? => .nodeData data?.toList) <$> Graph.updateNode? node f
  | updateEdge edge f => (fun data => .edgeData [data]) <$> Graph.updateEdge edge f
  | updateEdge? edge f => (fun data? => .edgeData data?.toList) <$> Graph.updateEdge? edge f
  | newMarker => .marker <$> TagHost.grant .marker
  | freeMarker marker => (fun _ => .done) <$> TagHost.release marker
  | sweepMarkers => (fun _ => .done) <$> modify (TagHost.sweep .marker)
  | mark x marker => .flag <$> Graph.mark x marker
  | unmark x marker => .flag <$> Graph.unmark x marker
  | newNum => .num <$> TagHost.grant .numeration
  | freeNum num => (fun _ => .done) <$> TagHost.release num
  | sweepNums => (fun _ => .done) <$> modify (TagHost.sweep .numeration)
  | setNumber x num value => (fun _ => .done) <$> Graph.setNumber x num value
  | unnumber x num => .flag <$> Graph.unnumber x num

/-- Carries a raw call out. -/
def RawCall.reply : RawCall N E → Action (Graph N E) (Answer N E)
  | changeArea x change => (fun _ => .done) <$> Graph.onArea x change
  | setLedgers markers nums => (fun _ => .done) <$> modify fun g => { g with markers, nums }

/-- A call that replies does to the graph what the operation does that it names. -/
theorem Call.after_reply (call : Call N E) (g : Graph N E) :
    call.reply.after g = call.onGraph.after g := by
  cases call <;> simp only [reply, onGraph, Action.after_map, Action.after_discard]

/-- A raw call that replies does to the graph what it does beside the history. -/
theorem RawCall.graph_after (raw : RawCall N E) (r : Recorded N E) :
    (raw.run.after r).graph = raw.reply.after r.graph := by
  cases raw with
  | changeArea x change =>
      rw [reply, Action.after_map]
      simp only [run, Action.after, Action.outcome, Recorded.act]
      cases Graph.onArea x change r.graph <;> rfl
  | setLedgers markers nums => rfl

/-! ### Handles in requests -/

/-- The handles that were issued for entities of a kind, the latest first. -/
def History.issued (past : History N E) : (kind : EntityKind) → List (Handle kind)
  | .node => nodesIssued past
  | .edge => edgesIssued past

/-- The handle that was issued for the entity that a handle stands for. -/
def History.placed (past : History N E) (kind : EntityKind) (x : Handle kind) : Handle kind :=
  ((past.issued kind).find? fun y => y.unplaced = x.unplaced).getD x

/-- The handle that was issued for an entity stands for that entity. -/
theorem History.unplaced_placed (past : History N E) {kind : EntityKind} (x : Handle kind) :
    (past.placed kind x).unplaced = x.unplaced := by
  unfold placed
  cases hfound : (past.issued kind).find? fun y => y.unplaced = x.unplaced with
  | none => rfl
  | some y => simpa using List.find?_some hfound

section

variable (σ : (kind : EntityKind) → Handle kind → Handle kind)

/-- A call with other handles. -/
def Call.rename : Call N E → Call N E
  | newEdge pred succ data => newEdge (σ _ pred) (σ _ succ) data
  | deleteNode node => deleteNode (σ _ node)
  | deleteEdge edge => deleteEdge (σ _ edge)
  | setEnd edge dir node => setEnd (σ _ edge) dir (σ _ node)
  | insertNode edge nodeData edgeData => insertNode (σ _ edge) nodeData edgeData
  | updateNode node f => updateNode (σ _ node) f
  | updateNode? node f => updateNode? (σ _ node) f
  | updateEdge edge f => updateEdge (σ _ edge) f
  | updateEdge? edge f => updateEdge? (σ _ edge) f
  | mark x marker => mark (σ _ x) marker
  | unmark x marker => unmark (σ _ x) marker
  | setNumber x num value => setNumber (σ _ x) num value
  | unnumber x num => unnumber (σ _ x) num
  | call => call

/-- A raw call with other handles. -/
def RawCall.rename : RawCall N E → RawCall N E
  | changeArea x change => changeArea (σ _ x) change
  | setLedgers markers nums => setLedgers markers nums

/-- A query with other handles. -/
def Query.rename : Query → Query
  | containsNode node => containsNode (σ _ node)
  | containsEdge edge => containsEdge (σ _ edge)
  | nodeUid node => nodeUid (σ _ node)
  | edgeUid edge => edgeUid (σ _ edge)
  | nodeData node => nodeData (σ _ node)
  | edgeData edge => edgeData (σ _ edge)
  | nodeData? node => nodeData? (σ _ node)
  | edgeData? edge => edgeData? (σ _ edge)
  | nextNode node => nextNode (σ _ node)
  | prevNode node => prevNode (σ _ node)
  | nextEdge edge => nextEdge (σ _ edge)
  | prevEdge edge => prevEdge (σ _ edge)
  | edgeEnd edge dir => edgeEnd (σ _ edge) dir
  | firstIncident node dir => firstIncident (σ _ node) dir
  | nextIncident edge dir => nextIncident (σ _ edge) dir
  | walkEdges node walk => walkEdges (σ _ node) walk
  | begin node walk => begin (σ _ node) walk
  | advance cursor => advance ⟨cursor.edge?.map (σ _), cursor.walk⟩
  | stamps x => stamps (σ _ x)
  | isMarked x marker => isMarked (σ _ x) marker
  | isNumbered x num => isNumbered (σ _ x) num
  | number x num => number (σ _ x) num
  | query => query

end

/-! ### Requests -/

/-- What can be asked of a graph. -/
inductive Request (N E : Type) where
  /-- A call. -/
  | call (call : Call N E)
  /-- A raw call. -/
  | raw (raw : RawCall N E)
  /-- A query. -/
  | ask (query : Query)

namespace Request

/-- The response to a request, with the slots of handles left out. -/
def response (r : Recorded N E) : Request N E → Response N E
  | call c => Response.unplaced ((c.rename r.history.placed).reply.outcome r.graph).1
  | raw c => Response.unplaced ((c.rename r.history.placed).reply.outcome r.graph).1
  | ask q => Response.unplaced ((q.rename r.history.placed).reply r.graph)

/-- The graph with its history after a request. -/
def after (r : Recorded N E) : Request N E → Recorded N E
  | call c => (c.rename r.history.placed).run.after r
  | raw c => (c.rename r.history.placed).run.after r
  | ask _ => r

end Request

namespace Recorded

/-- The responses to requests that are made one after another. -/
def responses (r : Recorded N E) : List (Request N E) → List (Response N E)
  | [] => []
  | q :: qs => q.response r :: (q.after r).responses qs

/-- The graph with its history after some requests. -/
def afterAll (r : Recorded N E) (qs : List (Request N E)) : Recorded N E :=
  qs.foldl Request.after r

end Recorded

/-- Both pools of a graph have less than all chunks. -/
structure Graph.BelowLimit (g : Graph N E) : Prop where
  /-- The chunks of node records. -/
  nodes : g.nodes.pool.chunks.size < maxChunks
  /-- The chunks of edge records. -/
  edges : g.edges.pool.chunks.size < maxChunks

instance (g : Graph N E) : Decidable g.BelowLimit :=
  decidable_of_iff (g.nodes.pool.chunks.size < maxChunks ∧ g.edges.pool.chunks.size < maxChunks)
    ⟨fun h => ⟨h.1, h.2⟩, fun h => ⟨h.nodes, h.edges⟩⟩

namespace Recorded

/-- Both pools have less than all chunks before and after each request. -/
def StaysBelow (r : Recorded N E) : List (Request N E) → Prop
  | [] => r.graph.BelowLimit
  | q :: qs => r.graph.BelowLimit ∧ (q.after r).StaysBelow qs

instance decidableStaysBelow : (r : Recorded N E) → (qs : List (Request N E)) →
    Decidable (r.StaysBelow qs)
  | r, [] => inferInstanceAs (Decidable r.graph.BelowLimit)
  | r, q :: qs => @instDecidableAnd _ _ inferInstance (decidableStaysBelow (q.after r) qs)

/-- Two graphs respond the same to any requests that are made of both of them one after another, as
long as no pool has all its chunks. -/
def Indistinguishable (r r' : Recorded N E) : Prop :=
  ∀ qs : List (Request N E), r.StaysBelow qs → r'.StaysBelow qs → r.responses qs = r'.responses qs

end Recorded

end SlabGraph
