import SlabGraph.Proofs.Graph.Room
import SlabGraph.Proofs.Relocation.Alike

/-!
# Calls on Graphs That Are Alike

A call on two graphs that are alike, with handles of the same entities, runs side by side: it
succeeds in both or fails in both, it answers the same up to slots, and it leaves graphs that are
alike (`Graph.Mirrors.call`).

An operation looks its handles up first. What follows works on slots that match, so the changes of
the two views are those that keep them relocated. A creation takes whatever slot its pool has free,
which is where the two graphs part, and the map of slots is extended by it. Neither graph may run
out of chunks, or else the other one could go on alone. That ids run out shows in both graphs at
once, since they have given out the same ids.

The split of an edge may fail after its first two steps. In both graphs it then leaves the new node
behind, and the edge that leads to it.

## Main results

* `Graph.Mirrors.call`, `Graph.Mirrors.rawCall`.
-/

namespace SlabGraph

namespace Graph

variable {N E : Type} {g g' : Graph N E} {V V' : View N E} {ρ : Relocation}

/-! ### Room -/

/-- With less than all chunks there is room for a node, if there is an id for it. -/
theorem Holds.nodes_hasRoom (h : Holds g V) (hbelow : g.BelowLimit)
    (huid : V.nodes.next + 1 < uidLimit) : V.nodes.HasRoom :=
  h.shown.nodes.hasRoom ⟨hbelow.nodes, by rwa [h.shown.nodes.next]⟩

/-- With less than all chunks there is room for an edge, if there is an id for it. -/
theorem Holds.edges_hasRoom (h : Holds g V) (hbelow : g.BelowLimit)
    (huid : V.edges.next + 1 < uidLimit) : V.edges.HasRoom :=
  h.shown.edges.hasRoom ⟨hbelow.edges, by rwa [h.shown.edges.next]⟩

/-- Without an id left, no node is added, and nothing changes. -/
theorem Holds.newNode_overflow (h : Holds g V) (hover : ¬ V.nodes.next + 1 < uidLimit) (data : N) :
    newNode data g = .error .overflow g := by
  simp [newNode, onNodes, Roster.create, h.shown.nodes.next, hover]

/-- Without an id left, no edge is added, and nothing changes. -/
theorem Holds.newEdge_overflow (h : Holds g V) (hover : ¬ V.edges.next + 1 < uidLimit)
    {pred succ : NodeHandle} {a b : Body Unit N} (hpred : V.nodes.find? V.id pred = some a)
    (hsucc : V.nodes.find? V.id succ = some b) (data : E) :
    newEdge pred succ data g = .error .overflow g := by
  simp [newEdge, h.resolveNode_run hpred, h.resolveNode_run hsucc, onEdges, Roster.create,
    h.shown.edges.next, hover]

namespace Mirrors

variable (m : Mirrors ρ V V' g g')

include m

/-- Both graphs refuse a handle and change nothing. -/
theorem refused {α : Type} {kind : EntityKind} {x x' : Handle kind} {y y' : Action (Graph N E) α}
    {answer answer' : α → Answer N E} (hx : x.unplaced = x'.unplaced)
    (hy : y g = .error (x.refusal g.id) g) (hy' : y' g' = .error (x'.refusal g'.id) g') :
    SameRun (answer <$> y) (answer' <$> y') g g' :=
  .of_error hy hy' (m.id_eq ▸ Handle.unplaced_refusal hx g.id) m.alike

/-! ### Adding -/

/-- Adding a node runs alike in both graphs, as long as neither pool is full. -/
theorem newNode (hbelow : g.BelowLimit) (hbelow' : g'.BelowLimit) (data : N) :
    SameRun ((Call.newNode data).reply) ((Call.newNode data).reply) g g' := by
  have hnext := m.relocated.nodes.next
  by_cases huid : V.nodes.next + 1 < uidLimit
  swap
  · exact .of_error (m.left.newNode_overflow huid data)
      (m.right.newNode_overflow (hnext ▸ huid) data) rfl m.alike
  obtain ⟨p, g₁, hrun, hp, h⟩ := m.left.newNode_ok (m.left.nodes_hasRoom hbelow huid) data
  obtain ⟨p', g₁', hrun', hp', h'⟩ :=
    m.right.newNode_ok (m.right.nodes_hasRoom hbelow' (hnext ▸ huid)) data
  refine .of_ok hrun hrun' ?_ ⟨_, _, _, h, h',
    m.relocated.newNode m.left.consistent m.right.consistent data hp hp'⟩
  simp [Handle.unplaced, hnext, m.relocated.id]

/-- Adding an edge runs alike in both graphs, as long as there is room in both for every id. -/
theorem newEdge {pred pred' succ succ' : NodeHandle} {answer answer' : EdgeHandle → Answer N E}
    (hroom : V.edges.next + 1 < uidLimit → V.edges.HasRoom)
    (hroom' : V'.edges.next + 1 < uidLimit → V'.edges.HasRoom)
    (hanswer : ∀ x x' : EdgeHandle, x.unplaced = x'.unplaced →
      (answer x).unplaced = (answer' x').unplaced)
    (hpred : V.Corresponds V' pred pred') (hsucc : V.Corresponds V' succ succ') (data : E) :
    SameRun (answer <$> Graph.newEdge pred succ data) (answer' <$> Graph.newEdge pred' succ' data)
      g g' := by
  have hnext := m.relocated.edges.next
  rcases m.node_cases hpred with ⟨hnone, hnone'⟩ | ⟨a, ha, ha', hup⟩
  · exact m.refused hpred.unplaced (by simp [Graph.newEdge, m.left.resolveNode_refused hnone])
      (by simp [Graph.newEdge, m.right.resolveNode_refused hnone'])
  rcases m.node_cases hsucc with ⟨hnone, hnone'⟩ | ⟨b, hb, hb', hdown⟩
  · exact m.refused hsucc.unplaced
      (by simp [Graph.newEdge, m.left.resolveNode_run ha, m.left.resolveNode_refused hnone])
      (by simp [Graph.newEdge, m.right.resolveNode_run ha', m.right.resolveNode_refused hnone'])
  by_cases huid : V.edges.next + 1 < uidLimit
  swap
  · exact .of_error (m.left.newEdge_overflow huid ha hb data)
      (m.right.newEdge_overflow (hnext ▸ huid) ha' hb' data) rfl m.alike
  obtain ⟨p, g₁, hrun, hp, h⟩ := m.left.newEdge_ok (hroom huid) ha hb data
  obtain ⟨p', g₁', hrun', hp', h'⟩ := m.right.newEdge_ok (hroom' (hnext ▸ huid)) ha' hb' data
  have hends : ∀ dir, (V.nodes.body ((⟨pred.slot, succ.slot⟩ : DirPair Ptr).get dir)).isSome =
      true := by
    intro dir
    cases dir
    · exact Option.isSome_iff_exists.2 ⟨a, (Population.find?_eq_some_iff.1 ha).1⟩
    · exact Option.isSome_iff_exists.2 ⟨b, (Population.find?_eq_some_iff.1 hb).1⟩
  have hrelocated := m.relocated.newEdge m.left.consistent m.right.consistent data hp hp' hends
  rw [show DirPair.map ρ.node ⟨pred.slot, succ.slot⟩ = ⟨pred'.slot, succ'.slot⟩ by
    rw [DirPair.map, hup, hdown]] at hrelocated
  refine .of_ok hrun hrun' (hanswer _ _ ?_) ⟨_, _, _, h, h', hrelocated⟩
  simp [Handle.unplaced, hnext, m.relocated.id]

/-! ### Removing -/

/-- Removing a node runs alike in both graphs. -/
theorem deleteNode {x x' : NodeHandle} (hx : V.Corresponds V' x x') :
    SameRun (Call.deleteNode x).reply (Call.deleteNode x').reply g g' := by
  rcases m.node_cases hx with ⟨hnone, hnone'⟩ | ⟨b, hb, hb', hslot⟩
  · exact m.refused hx.unplaced (by simp [Graph.deleteNode, m.left.resolveNode_refused hnone])
      (by simp [Graph.deleteNode, m.right.resolveNode_refused hnone'])
  obtain ⟨g₁, hrun, h⟩ := m.left.deleteNode_run hb
  obtain ⟨g₁', hrun', h'⟩ := m.right.deleteNode_run hb'
  rw [hslot] at h'
  refine .of_ok hrun hrun' rfl ⟨ρ, _, _, h, h', ?_⟩
  exact m.relocated.removeNode m.left.consistent m.right.consistent
    (by simp [(Population.find?_eq_some_iff.1 hb).1])

/-- Removing an edge runs alike in both graphs. -/
theorem deleteEdge {x x' : EdgeHandle} (hx : V.Corresponds V' x x') :
    SameRun (Call.deleteEdge x).reply (Call.deleteEdge x').reply g g' := by
  rcases m.edge_cases hx with ⟨hnone, hnone'⟩ | ⟨b, hb, hb', hslot⟩
  · exact m.refused hx.unplaced (by simp [Graph.deleteEdge, m.left.resolveEdge_refused hnone])
      (by simp [Graph.deleteEdge, m.right.resolveEdge_refused hnone'])
  obtain ⟨g₁, hrun, h⟩ := m.left.deleteEdge_run hb
  obtain ⟨g₁', hrun', h'⟩ := m.right.deleteEdge_run hb'
  rw [hslot] at h'
  refine .of_ok hrun hrun' rfl ⟨ρ, _, _, h, h', ?_⟩
  exact m.relocated.pruneEdge m.left.consistent m.right.consistent
    (by simp [(Population.find?_eq_some_iff.1 hb).1])

/-- Clearing runs alike in both graphs. -/
theorem clear : SameRun Call.clear.reply Call.clear.reply g g' := by
  obtain ⟨g₁, hrun, h⟩ := m.left.clear_run
  obtain ⟨g₁', hrun', h'⟩ := m.right.clear_run
  exact .of_ok hrun hrun' rfl ⟨ρ, _, _, h, h', m.relocated.clear m.left.consistent⟩

/-! ### Retargeting -/

/-- Retargeting an edge runs alike in both graphs. -/
theorem setEnd {x x' : EdgeHandle} {n n' : NodeHandle} (hx : V.Corresponds V' x x')
    (hn : V.Corresponds V' n n') (dir : Direction) :
    SameRun (Call.setEnd x dir n).reply (Call.setEnd x' dir n').reply g g' := by
  rcases m.edge_cases hx with ⟨hnone, hnone'⟩ | ⟨b, hb, hb', hedge⟩
  · exact m.refused hx.unplaced (by simp [Graph.setEnd, m.left.resolveEdge_refused hnone])
      (by simp [Graph.setEnd, m.right.resolveEdge_refused hnone'])
  rcases m.node_cases hn with ⟨hnone, hnone'⟩ | ⟨c, hc, hc', hnode⟩
  · exact m.refused hn.unplaced
      (by simp [Graph.setEnd, m.left.resolveEdge_run hb, m.left.resolveNode_refused hnone])
      (by simp [Graph.setEnd, m.right.resolveEdge_run hb', m.right.resolveNode_refused hnone'])
  obtain ⟨g₁, hrun, h⟩ := m.left.setEnd_run hb hc dir
  obtain ⟨g₁', hrun', h'⟩ := m.right.setEnd_run hb' hc' dir
  rw [hedge, hnode] at h'
  refine .of_ok hrun hrun' rfl ⟨ρ, _, _, h, h', ?_⟩
  exact m.relocated.retarget m.left.consistent m.right.consistent
    (by simp [(Population.find?_eq_some_iff.1 hb).1])
    (by simp [(Population.find?_eq_some_iff.1 hc).1]) dir

/-- Splitting an edge runs alike in both graphs, as long as no pool is full. If the ids of edges run
out, the new node stays in both. -/
theorem insertNode (hbelow : g.BelowLimit) (hbelow' : g'.BelowLimit) {x x' : EdgeHandle}
    (hx : V.Corresponds V' x x') (nodeData : N) (edgeData : E) :
    SameRun (Call.insertNode x nodeData edgeData).reply (Call.insertNode x' nodeData edgeData).reply
      g g' := by
  have hnext := m.relocated.nodes.next
  rcases m.edge_cases hx with ⟨hnone, hnone'⟩ | ⟨b, hb, hb', hedge⟩
  · exact m.refused hx.unplaced
      (by simp [Graph.insertNode, Graph.edgeEnd, m.left.edge_refused hnone])
      (by simp [Graph.insertNode, Graph.edgeEnd, m.right.edge_refused hnone'])
  obtain ⟨c, hc, hc', hend, hend'⟩ := m.edgeEnd_run hb hb' .down
  by_cases huid : V.nodes.next + 1 < uidLimit
  swap
  · have hrun : Graph.insertNode x nodeData edgeData g = .error .overflow g := by
      simp [Graph.insertNode, hend, m.left.newNode_overflow huid nodeData]
    have hrun' : Graph.insertNode x' nodeData edgeData g' = .error .overflow g' := by
      simp [Graph.insertNode, hend', m.right.newNode_overflow (hnext ▸ huid) nodeData]
    exact .of_error hrun hrun' rfl m.alike
  -- the new node takes a free slot in each graph
  obtain ⟨p, g₁, hrun₁, hp, h₁⟩ :=
    m.left.newNode_ok (m.left.nodes_hasRoom hbelow huid) nodeData
  obtain ⟨p', g₁', hrun₁', hp', h₁'⟩ :=
    m.right.newNode_ok (m.right.nodes_hasRoom hbelow' (hnext ▸ huid)) nodeData
  have hrelocated₁ :=
    m.relocated.newNode m.left.consistent m.right.consistent nodeData hp hp'
  let node : NodeHandle := ⟨V.id, V.nodes.next, p⟩
  let node' : NodeHandle := ⟨V'.id, V'.nodes.next, p'⟩
  have hnode : (V.newNode p nodeData).nodes.find? V.id node =
      some ⟨V.nodes.next, (), .clean, nodeData⟩ :=
    Population.find?_add_self _
  have hnode' : (V'.newNode p' nodeData).nodes.find? V'.id node' =
      some ⟨V'.nodes.next, (), .clean, nodeData⟩ :=
    Population.find?_add_self _
  -- the edge is moved to it
  obtain ⟨g₂, hrun₂, h₂⟩ := h₁.setEnd_run hb hnode .down
  obtain ⟨g₂', hrun₂', h₂'⟩ := h₁'.setEnd_run hb' hnode' .down
  have hrelocated₂ := hrelocated₁.retarget h₁.consistent h₁'.consistent (e := x.slot) (m := p)
    (by simp [View.newNode, (Population.find?_eq_some_iff.1 hb).1]) (by simp [View.newNode]) .down
  simp only [Function.update_self, ← hedge] at hrelocated₂
  -- the node where the edge ended is still there
  let succ : NodeHandle := ⟨V.id, c.uid, b.incidence.get .down⟩
  let succ' : NodeHandle := ⟨V'.id, c.uid, ρ.node (b.incidence.get .down)⟩
  have hsucc : (V.newNode p nodeData).nodes.find? V.id succ = some c :=
    Population.find?_add_of_find? _ hp (Population.find?_eq_some_iff.2 ⟨hc, rfl⟩)
  have hsucc' : (V'.newNode p' nodeData).nodes.find? V'.id succ' = some c :=
    Population.find?_add_of_find? _ hp' (Population.find?_eq_some_iff.2 ⟨hc', rfl⟩)
  let m₂ : Mirrors _ _ _ g₂ g₂' := ⟨h₂, h₂', hrelocated₂⟩
  have hnodeSame : node.unplaced = node'.unplaced := by
    simp [node, node', Handle.unplaced, hnext, m.relocated.id]
  have hsuccSame : succ.unplaced = succ'.unplaced := by
    simp [succ, succ', Handle.unplaced, m.relocated.id]
  have hlast : SameRun ((fun _ => .nodes [node]) <$> Graph.newEdge node succ edgeData)
      ((fun _ => .nodes [node']) <$> Graph.newEdge node' succ' edgeData) g₂ g₂' := by
    refine m₂.newEdge (fun huid => ?_) (fun huid => ?_) (fun _ _ _ => by simp [hnodeSame])
      ⟨hnodeSame, h₂.consistent.places_node hnode, h₂'.consistent.places_node hnode'⟩
      ⟨hsuccSame, h₂.consistent.places_node hsucc, h₂'.consistent.places_node hsucc'⟩ edgeData
    · have hroom := m.left.edges_hasRoom hbelow huid
      exact ⟨hroom.slot, hroom.uid⟩
    · have hroom := m.right.edges_hasRoom hbelow' huid
      exact ⟨hroom.slot, hroom.uid⟩
  refine .of_eq ?_ ?_ hlast
  · simp only [Call.reply, Action.run_map, Graph.insertNode, Action.run_bind, Action.run_read, hend,
      hrun₁, hrun₂, Action.run_pure, node, succ]
    cases Graph.newEdge _ _ edgeData g₂ <;> rfl
  · simp only [Call.reply, Action.run_map, Graph.insertNode, Action.run_bind, Action.run_read,
      hend', hrun₁', hrun₂', Action.run_pure, node', succ']
    cases Graph.newEdge _ _ edgeData g₂' <;> rfl

/-! ### Payloads -/

/-- Writing the payload of a node runs alike in both graphs. -/
theorem updateNode {x x' : NodeHandle} (hx : V.Corresponds V' x x') (f : N → N) :
    SameRun (Call.updateNode x f).reply (Call.updateNode x' f).reply g g' := by
  rcases m.node_cases hx with ⟨hnone, hnone'⟩ | ⟨b, hb, hb', hslot⟩
  · exact m.refused hx.unplaced (by simp [Graph.updateNode, m.left.node_refused hnone])
      (by simp [Graph.updateNode, m.right.node_refused hnone'])
  obtain ⟨g₁, hrun, h⟩ := m.left.updateNode_run hb f
  obtain ⟨g₁', hrun', h'⟩ := m.right.updateNode_run hb' f
  rw [hslot] at h'
  refine .of_ok hrun hrun' rfl ⟨ρ, _, _, h, h', ?_⟩
  exact m.relocated.writeNode m.left.consistent m.right.consistent
    (by simp [(Population.find?_eq_some_iff.1 hb).1]) _

/-- Writing the payload of an edge runs alike in both graphs. -/
theorem updateEdge {x x' : EdgeHandle} (hx : V.Corresponds V' x x') (f : E → E) :
    SameRun (Call.updateEdge x f).reply (Call.updateEdge x' f).reply g g' := by
  rcases m.edge_cases hx with ⟨hnone, hnone'⟩ | ⟨b, hb, hb', hslot⟩
  · exact m.refused hx.unplaced (by simp [Graph.updateEdge, m.left.edge_refused hnone])
      (by simp [Graph.updateEdge, m.right.edge_refused hnone'])
  obtain ⟨g₁, hrun, h⟩ := m.left.updateEdge_run hb f
  obtain ⟨g₁', hrun', h'⟩ := m.right.updateEdge_run hb' f
  rw [hslot] at h'
  refine .of_ok hrun hrun' rfl ⟨ρ, _, _, h, h', ?_⟩
  exact m.relocated.writeEdge m.left.consistent m.right.consistent
    (by simp [(Population.find?_eq_some_iff.1 hb).1]) fun _ => rfl

/-- Writing the payload of a node that need not be live runs alike in both graphs. -/
theorem updateNode? {x x' : NodeHandle} (hx : V.Corresponds V' x x') (f : N → N) :
    SameRun (Call.updateNode? x f).reply (Call.updateNode? x' f).reply g g' := by
  have hcontains := m.left.containsNode_eq x
  have hcontains' := m.right.containsNode_eq x'
  rcases m.node_cases hx with ⟨hnone, hnone'⟩ | ⟨b, hb, hb', hslot⟩
  · have hrun : Graph.updateNode? x f g = .ok none g := by
      simp [Graph.updateNode?, hcontains, hnone]
    have hrun' : Graph.updateNode? x' f g' = .ok none g' := by
      simp [Graph.updateNode?, hcontains', hnone']
    exact .of_ok hrun hrun' rfl m.alike
  obtain ⟨g₁, hrun, h⟩ := m.left.updateNode_run hb f
  obtain ⟨g₁', hrun', h'⟩ := m.right.updateNode_run hb' f
  rw [hslot] at h'
  have hsome : Graph.updateNode? x f g = .ok (some b.data) g₁ := by
    simp [Graph.updateNode?, hcontains, hb, hrun]
  have hsome' : Graph.updateNode? x' f g' = .ok (some b.data) g₁' := by
    simp [Graph.updateNode?, hcontains', hb', hrun']
  refine .of_ok hsome hsome' rfl ⟨ρ, _, _, h, h', ?_⟩
  exact m.relocated.writeNode m.left.consistent m.right.consistent
    (by simp [(Population.find?_eq_some_iff.1 hb).1]) _

/-- Writing the payload of an edge that need not be live runs alike in both graphs. -/
theorem updateEdge? {x x' : EdgeHandle} (hx : V.Corresponds V' x x') (f : E → E) :
    SameRun (Call.updateEdge? x f).reply (Call.updateEdge? x' f).reply g g' := by
  have hcontains := m.left.containsEdge_eq x
  have hcontains' := m.right.containsEdge_eq x'
  rcases m.edge_cases hx with ⟨hnone, hnone'⟩ | ⟨b, hb, hb', hslot⟩
  · have hrun : Graph.updateEdge? x f g = .ok none g := by
      simp [Graph.updateEdge?, hcontains, hnone]
    have hrun' : Graph.updateEdge? x' f g' = .ok none g' := by
      simp [Graph.updateEdge?, hcontains', hnone']
    exact .of_ok hrun hrun' rfl m.alike
  obtain ⟨g₁, hrun, h⟩ := m.left.updateEdge_run hb f
  obtain ⟨g₁', hrun', h'⟩ := m.right.updateEdge_run hb' f
  rw [hslot] at h'
  have hsome : Graph.updateEdge? x f g = .ok (some b.data) g₁ := by
    simp [Graph.updateEdge?, hcontains, hb, hrun]
  have hsome' : Graph.updateEdge? x' f g' =
      .ok (some (b.relocate (DirPair.map ρ.node)).data) g₁' := by
    simp [Graph.updateEdge?, hcontains', hb', hrun']
  refine .of_ok hsome hsome' rfl ⟨ρ, _, _, h, h', ?_⟩
  exact m.relocated.writeEdge m.left.consistent m.right.consistent
    (by simp [(Population.find?_eq_some_iff.1 hb).1]) fun _ => rfl

/-! ### Tags -/

/-- A change of the stamps of an entity. -/
theorem onArea {α : Type} {kind : EntityKind} {x x' : Handle kind} (hx : V.Corresponds V' x x')
    (change : TagArea → Except Fault (α × TagArea)) (answer : α → Answer N E) :
    SameRun (answer <$> Graph.onArea x change) (answer <$> Graph.onArea x' change) g g' := by
  rcases m.area_cases hx with ⟨hnone, hnone'⟩ | ⟨area, harea, harea', hset⟩
  · exact m.refused hx.unplaced (by simp [Graph.onArea, m.left.area_refused hnone])
      (by simp [Graph.onArea, m.right.area_refused hnone'])
  cases hchange : change area with
  | error e =>
      have hrun : Graph.onArea x change g = .error e g := by
        simp [Graph.onArea, m.left.area_run harea, hchange]
      have hrun' : Graph.onArea x' change g' = .error e g' := by
        simp [Graph.onArea, m.right.area_run harea', hchange]
      exact .of_error hrun hrun' rfl m.alike
  | ok result =>
      obtain ⟨g₁, hrun, h⟩ := m.left.onArea_run harea hchange
      obtain ⟨g₁', hrun', h'⟩ := m.right.onArea_run harea' hchange
      exact .of_ok hrun hrun' rfl ⟨ρ, _, _, h, h', hset result.2⟩

/-- A change of the stamps of an entity after its tag was checked. -/
theorem checked {tagKind : TagKind} [TagHost (Graph N E) tagKind]
    (hsim : TagHost.Simulates tagKind (Alike (N := N) (E := E))) {α : Type} {kind : EntityKind}
    {x x' : Handle kind} (hx : V.Corresponds V' x x') (tag : Tag tagKind)
    (change : TagArea → Except Fault (α × TagArea)) (answer : α → Answer N E) :
    SameRun (answer <$> do Action.read (·.checkTag tag); Graph.onArea x change)
      (answer <$> do Action.read (·.checkTag tag); Graph.onArea x' change) g g' := by
  have hledger := hsim.ledger m.alike
  by_cases huse : (TagHost.ledger g : TagLedger tagKind).isLive tag = true
  · have huse' : (TagHost.ledger g' : TagLedger tagKind).isLive tag = true := by rwa [hledger]
    refine .of_eq ?_ ?_ (m.onArea hx change answer)
    · simp [checkTag_run huse]
    · simp [checkTag_run huse']
  · have huse' : ¬ (TagHost.ledger g' : TagLedger tagKind).isLive tag = true := by rwa [hledger]
    have hrun : (do Action.read (·.checkTag tag); Graph.onArea x change :
        Action (Graph N E) α) g = .error (.tagNotInUse tag g.id) g := by simp [checkTag, huse]
    have hrun' : (do Action.read (·.checkTag tag); Graph.onArea x' change :
        Action (Graph N E) α) g' = .error (.tagNotInUse tag g.id) g' := by
      simp [checkTag, huse', m.id_eq]
    exact .of_error hrun hrun' rfl m.alike

/-! ### All calls -/

/-- A call with handles of the same entities runs in both graphs alike. -/
theorem call (hbelow : g.BelowLimit) (hbelow' : g'.BelowLimit)
    {σ σ' : (kind : EntityKind) → Handle kind → Handle kind}
    (hσ : ∀ kind x, V.Corresponds V' (σ kind x) (σ' kind x)) (c : Call N E) :
    SameRun (c.rename σ).reply (c.rename σ').reply g g' := by
  cases c with
  | newNode data => exact m.newNode hbelow hbelow' data
  | newEdge pred succ data =>
      exact m.newEdge (m.left.edges_hasRoom hbelow) (m.right.edges_hasRoom hbelow')
        (fun _ _ hsame => by simp [hsame]) (hσ _ pred) (hσ _ succ) data
  | deleteNode node => exact m.deleteNode (hσ _ node)
  | deleteEdge edge => exact m.deleteEdge (hσ _ edge)
  | clear => exact m.clear
  | setEnd edge dir node => exact m.setEnd (hσ _ edge) (hσ _ node) dir
  | insertNode edge nodeData edgeData =>
      exact m.insertNode hbelow hbelow' (hσ _ edge) nodeData edgeData
  | updateNode node f => exact m.updateNode (hσ _ node) f
  | updateNode? node f => exact m.updateNode? (hσ _ node) f
  | updateEdge edge f => exact m.updateEdge (hσ _ edge) f
  | updateEdge? edge f => exact m.updateEdge? (hσ _ edge) f
  | newMarker => exact .of_related (simulates_marker_alike.grant_run m.alike)
  | freeMarker marker => exact .of_related (simulates_marker_alike.release_run m.alike marker)
  | sweepMarkers => exact .of_ok rfl rfl rfl (simulates_marker_alike.sweep m.alike)
  | mark x marker => exact m.checked simulates_marker_alike (hσ _ x) marker _ _
  | unmark x marker => exact m.checked simulates_marker_alike (hσ _ x) marker _ _
  | newNum => exact .of_related (simulates_numeration_alike.grant_run m.alike)
  | freeNum num => exact .of_related (simulates_numeration_alike.release_run m.alike num)
  | sweepNums => exact .of_ok rfl rfl rfl (simulates_numeration_alike.sweep m.alike)
  | setNumber x num value => exact m.checked simulates_numeration_alike (hσ _ x) num _ _
  | unnumber x num => exact m.checked simulates_numeration_alike (hσ _ x) num _ _

/-- A raw call runs alike in both graphs. -/
theorem rawCall {σ σ' : (kind : EntityKind) → Handle kind → Handle kind}
    (hσ : ∀ kind x, V.Corresponds V' (σ kind x) (σ' kind x)) (c : RawCall N E) :
    SameRun (c.rename σ).reply (c.rename σ').reply g g' := by
  cases c with
  | changeArea x change => exact m.onArea (hσ _ x) change _
  | setLedgers markers nums =>
      exact .of_ok rfl rfl rfl ⟨ρ, _, _, m.left.setLedgers markers nums,
        m.right.setLedgers markers nums, m.relocated.setLedgers markers nums⟩

end Mirrors

end Graph

end SlabGraph
