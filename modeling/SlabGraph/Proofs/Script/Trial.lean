import SlabGraph.Proofs.Graph.Room
import SlabGraph.Proofs.History.Registry
import SlabGraph.Proofs.Markers
import SlabGraph.Proofs.Script.Reflects
import SlabGraph.Proofs.Verify
import SlabGraph.Proofs.Walk

/-!
# Scripts Run to their End

Every script that is shorter than a pool is large runs to its end without a fault
(`Script.run_eq_ok`). So after each of its operations the structural check accepts the graph,
and the graph agrees with the model in all that is compared.

The two sides of a trial never meet directly. The view of the graph agrees with a history, and
the model reflects the same history (`Model.Agrees`). An operation moves the view and changes the
model with the same deeds, and both agreements go on by what is known of moves and of models.
What is compared is then read off the history on both sides.

An operation cannot fail for want of room, since an id is given out for every entity, and no
more ids were given out than there were operations.

## Main definitions

* `View.Below`, `Model.Agrees`, `Trial.Advances`.

## Main results

* `Model.Agrees.apply`, `Model.Agrees.compare_run`, `Model.Agrees.step`;
* `Script.run_eq_ok`.
-/

namespace SlabGraph

/-! ### Room -/

/-- A view with room for the greatest number of entities, which has given out at most so many
ids of nodes and of edges. -/
structure View.Below {N E : Type} (V : View N E) (j k : Nat) : Prop where
  /-- The ids of nodes. -/
  nodes : V.nodes.next ≤ j
  /-- The ids of edges. -/
  edges : V.edges.next ≤ k
  /-- The room for nodes. -/
  nodeLimit : V.nodes.limit = maxChunkEntries * maxChunks
  /-- The room for edges. -/
  edgeLimit : V.edges.limit = maxChunkEntries * maxChunks

/-- The room depends on the ids that come next and on the limits. -/
theorem View.Below.congr {N E : Type} {V V' : View N E} {j k : Nat} (h : V.Below j k)
    (hnodes : V'.nodes.next = V.nodes.next ∧ V'.nodes.limit = V.nodes.limit)
    (hedges : V'.edges.next = V.edges.next ∧ V'.edges.limit = V.edges.limit) : V'.Below j k where
  nodes := hnodes.1 ▸ h.nodes
  edges := hedges.1 ▸ h.edges
  nodeLimit := hnodes.2.trans h.nodeLimit
  edgeLimit := hedges.2.trans h.edgeLimit

/-- Changing tags takes no room. -/
theorem Retagged.below {N E : Type} {V V' : View N E} {j k : Nat} (h : Retagged V V')
    (hbelow : V.Below j k) : V'.Below j k := by
  obtain ⟨f, hnodes⟩ := h.nodes
  obtain ⟨f', hedges⟩ := h.edges
  exact hbelow.congr (hnodes ▸ ⟨rfl, rfl⟩) (hedges ▸ ⟨rfl, rfl⟩)

/-- As long as there is room, the ids do not run out and not all slots are taken. -/
theorem Population.Consistent.hasRoom {κ δ : Type} {P : Population κ δ} (hc : P.Consistent)
    (hlimit : P.limit = maxChunkEntries * maxChunks) {n : Nat} (hnext : P.next ≤ n)
    (hroom : n < maxChunkEntries * maxChunks) : P.HasRoom := by
  have hlen := hc.length_le_next
  have hids : maxChunkEntries * maxChunks < uidLimit := by decide
  constructor <;> omega

/-! ### Agreement -/

/-- The markers that a history has granted and not taken back are those in use. -/
theorem View.TagsAgree.mem_markers {N E : Type} {V : View N E} {past : History N E}
    (h : V.TagsAgree .marker past) {marker : Marker} :
    marker ∈ History.markers past ↔ V.markers.isLive marker = true := by
  rw [History.markers_eq_tags]
  exact h.inUse marker

/-- A graph and its model agree, since they agree with the same history. At most `j` ids of nodes
and `k` ids of edges were given out. -/
structure Model.Agrees (model : Model) (g : Graph Nat Nat) (j k : Nat) (V : View Nat Nat)
    (past : History Nat Nat) : Prop where
  /-- The graph holds the view. -/
  holds : Graph.Holds g V
  /-- The view agrees with the history about handles. -/
  registered : V.Registered past
  /-- The view agrees with the history about markers. -/
  tags : V.TagsAgree .marker past
  /-- There is room left. -/
  below : V.Below j k
  /-- The model reflects the history. -/
  model : model.Reflects past

namespace Model.Agrees

variable {g : Graph Nat Nat} {model : Model} {j k : Nat} {V : View Nat Nat}
  {past : History Nat Nat}

/-- A move of the view with a change of the model. -/
theorem move (h : model.Agrees g j k V past) {V' : View Nat Nat} {deeds : History Nat Nat}
    (hmove : Move V deeds V') {g' : Graph Nat Nat} (hg : Graph.Holds g' V') {j' k' : Nat}
    (hbelow : V'.Below j' k') {model' : Model} (hmodel : model'.Reflects (deeds ++ past)) :
    model'.Agrees g' j' k' V' (deeds ++ past) :=
  ⟨hg, h.registered.move h.holds.consistent hmove, h.tags.move hmove, hbelow, hmodel⟩

/-- The bounds on the ids may be raised. -/
theorem mono (h : model.Agrees g j k V past) {j' k' : Nat} (hj : j ≤ j') (hk : k ≤ k') :
    model.Agrees g j' k' V past :=
  ⟨h.holds, h.registered, h.tags, ⟨h.below.nodes.trans hj, h.below.edges.trans hk,
    h.below.nodeLimit, h.below.edgeLimit⟩, h.model⟩

/-- The nodes of the model are in the graph. -/
theorem exists_node (h : model.Agrees g j k V past) {node : NodeHandle}
    (hn : node ∈ model.nodes) : ∃ b, V.nodes.find? V.id node = some b :=
  h.registered.nodes.exists_body ((h.model.mem_nodes node).1 hn)

/-- The edges of the model are in the graph. -/
theorem exists_edge (h : model.Agrees g j k V past) {e : ModelEdge}
    (he : e ∈ model.edges) : ∃ b, V.edges.find? V.id e.edge = some b :=
  h.registered.edges.exists_body ((h.model.edges.mem_iff e).1 he).1

/-- The markers of the model are those in use. -/
theorem inUse (h : model.Agrees g j k V past) {marker : Marker} :
    marker ∈ model.markers ↔ V.markers.isLive marker = true :=
  (h.model.mem_markers marker).trans h.tags.mem_markers

/-- The ends of an edge of the model are its ends in the graph. -/
theorem edgeEnd_run (h : model.Agrees g j k V past) {e : ModelEdge} (he : e ∈ model.edges)
    (dir : Direction) : g.edgeEnd e.edge dir = .ok (e.ends.get dir) := by
  obtain ⟨b, hb⟩ := h.exists_edge he
  obtain ⟨node, c, hrun, hc, hslot⟩ := h.holds.exists_end hb dir
  have hend := (h.registered.edgeEnd?_eq_iff hb hc dir).2 hslot
  rw [((h.model.edges.mem_iff e).1 he).2 dir] at hend
  rw [hrun, ← Option.some.inj hend]

/-- The ends of an edge of the model are nodes of the model. -/
theorem end_mem (h : model.Agrees g j k V past) {e : ModelEdge} (he : e ∈ model.edges)
    (dir : Direction) : e.ends.get dir ∈ model.nodes := by
  obtain ⟨b, hb⟩ := h.exists_edge he
  obtain ⟨node, c, hend, -, hc⟩ := h.registered.ends e.edge b hb dir
  rw [((h.model.edges.mem_iff e).1 he).2 dir] at hend
  rw [Option.some.inj hend, h.model.mem_nodes]
  exact (h.registered.nodes.live_iff node).1 (by simp [hc])

/-! ### Nodes and edges -/

/-- Adding a node succeeds as long as there is room, and both sides agree after it. -/
theorem newNode_run (h : model.Agrees g j k V past) (hroom : j < maxChunkEntries * maxChunks)
    (data : Nat) :
    ∃ node g' V', Graph.newNode data g = .ok node g' ∧
      ({ model with nodes := model.nodes ++ [node] } : Model).Agrees g' (j + 1) k V'
        (.addNode node data :: past) := by
  have hroom := h.holds.consistent.nodes.hasRoom h.below.nodeLimit h.below.nodes hroom
  obtain ⟨p, g', hrun, hfree, hg⟩ := h.holds.newNode_ok hroom data
  have hnew := h.registered.nodes.not_live_of_free (x := ⟨V.id, V.nodes.next, p⟩) hfree
  refine ⟨_, g', _, hrun, h.move (.addNode p data hfree) hg ?_ (h.model.newNode hnew data)⟩
  exact ⟨Nat.succ_le_succ h.below.nodes, h.below.edges, h.below.nodeLimit, h.below.edgeLimit⟩

/-- A new edge is the first of those that leave its predecessor. -/
theorem newEdge_run (h : model.Agrees g j k V past) (hroom : k < maxChunkEntries * maxChunks)
    {pred succ : NodeHandle} (hpred : pred ∈ model.nodes) (hsucc : succ ∈ model.nodes)
    (data : Nat) :
    ∃ edge g' V', Graph.newEdge pred succ data g = .ok edge g' ∧
      g'.firstIncident pred .down = .ok (some edge) ∧
      ({ model with edges := model.edges ++ [⟨edge, pred, succ⟩] } : Model).Agrees g' j (k + 1)
        V' (.addEdge edge ⟨pred, succ⟩ data :: past) := by
  have hroom := h.holds.consistent.edges.hasRoom h.below.edgeLimit h.below.edges hroom
  obtain ⟨a, ha⟩ := h.exists_node hpred
  obtain ⟨b, hb⟩ := h.exists_node hsucc
  obtain ⟨p, g', hrun, hfree, hg⟩ := h.holds.newEdge_ok hroom ha hb data
  have hnew := h.registered.edges.not_live_of_free (x := ⟨V.id, V.edges.next, p⟩) hfree
  refine ⟨_, g', _, hrun, ?_, h.move (.addEdge p pred succ data ha hb hfree) hg ?_
    (h.model.newEdge hnew ⟨pred, succ⟩ data)⟩
  · have hinc : (V.newEdge p ⟨pred.slot, succ.slot⟩ data).inc pred.slot .down =
        p :: V.inc pred.slot .down := if_pos rfl
    have hbody : (V.newEdge p ⟨pred.slot, succ.slot⟩ data).edges.body p =
        some ⟨V.edges.next, ⟨pred.slot, succ.slot⟩, .clean, data⟩ :=
      Population.body_add_self _ _
    rw [hg.firstIncident_run ha, hinc, List.head?_cons, Option.map_some, View.edgeAt_eq hbody]
    rfl
  · exact ⟨h.below.nodes, Nat.succ_le_succ h.below.edges, h.below.nodeLimit, h.below.edgeLimit⟩

/-- Retargeting an end of an edge succeeds, and both sides agree after it. -/
theorem setEnd_run (h : model.Agrees g j k V past) {i : Nat} {e : ModelEdge}
    (he : model.edge? i = some e) (dir : Direction) {node : NodeHandle}
    (hn : node ∈ model.nodes) :
    ∃ g' V', Graph.setEnd e.edge dir node g = .ok () g' ∧
      (model.setEdge i { e with ends := e.ends.set dir node }).Agrees g' j k V'
        (.moveEnd e.edge dir node :: past) := by
  obtain ⟨b, hb⟩ := h.exists_edge (mem_of_pick he)
  obtain ⟨c, hc⟩ := h.exists_node hn
  obtain ⟨g', hrun, hg⟩ := h.holds.setEnd_run hb hc dir
  exact ⟨g', _, hrun, h.move (.moveEnd e.edge dir node hb hc) hg
    (h.below.congr ⟨rfl, rfl⟩ ⟨rfl, rfl⟩) (h.model.setEnd he dir node)⟩

/-! ### Marks -/

/-- The tags of a node of the model, whose marks are those of the model. -/
theorem exists_area (h : model.Agrees g j k V past) {marker : Marker} {node : NodeHandle}
    (hm : marker ∈ model.markers) (hn : node ∈ model.nodes) :
    ∃ area, V.area? node = some area ∧
      area.marks.isMarked marker = model.isMarked marker node := by
  obtain ⟨b, hb⟩ := h.exists_node hn
  have harea : V.area? node = some b.area := congrArg (Option.map Body.area) hb
  refine ⟨b.area, harea, ?_⟩
  rw [Bool.eq_iff_iff, TagArea.isMarked_eq,
    h.tags.carried node b.area marker harea (h.inUse.1 hm), ← History.marked_iff,
    h.model.isMarked_iff hm hn]

/-- What the graph answers about a mark on a node of the model. -/
theorem isMarked_run (h : model.Agrees g j k V past) {marker : Marker} {node : NodeHandle}
    (hm : marker ∈ model.markers) (hn : node ∈ model.nodes) :
    Graph.isMarked node marker g = .ok (model.isMarked marker node) := by
  obtain ⟨area, hx, hmarked⟩ := h.exists_area hm hn
  rw [h.holds.isMarked_run hx (h.inUse.1 hm), hmarked]

/-- A marker in use is taken back. -/
theorem release_run (h : Graph.Holds g V) (ha : V.TagsAgree .marker past) {marker : Marker}
    (huse : V.markers.isLive marker = true) :
    ∃ g' V', TagHost.release marker g = .ok () g' ∧ Graph.Holds g' V' ∧
      TagMove V [.freeMarker marker] V' := by
  obtain ⟨released, hrelease, -⟩ := TagHost.release_run V ha.sound huse
  rcases Graph.Holds.simulates_marker.release_run h marker with
    ⟨_, g', V', hrun, hV, hg⟩ | ⟨e, g', V', -, hV, -⟩
  · exact ⟨g', V', hrun, hg, .freeMarker hV⟩
  · rw [hrelease] at hV
    cases hV

end Model.Agrees

/-! ### Operations -/

/-- An action on a trial is carried out, and leaves an agreement behind. It has given out no more
than one id of a node and one of an edge. -/
def Trial.Advances (x : Action Trial Unit) (trial : Trial) (j k : Nat) : Prop :=
  ∃ trial' V' past', x trial = .ok () trial' ∧
    trial'.model.Agrees trial'.graph (j + 1) (k + 1) V' past'

namespace Model.Agrees

variable {g : Graph Nat Nat} {model : Model} {j k : Nat} {V : View Nat Nat}
  {past : History Nat Nat} {α β : Type}

/-- An action that succeeds and leaves an agreement behind. -/
theorem advances {x : Action Trial Unit} {g' : Graph Nat Nat} {model' : Model} {j' k' : Nat}
    (h : model'.Agrees g' j' k' V past) (hrun : x ⟨g, model⟩ = .ok () ⟨g', model'⟩)
    (hj : j' ≤ j + 1) (hk : k' ≤ k + 1) :
    Trial.Advances x ⟨g, model⟩ j k :=
  ⟨⟨g', model'⟩, V, past, hrun, h.mono hj hk⟩

/-- An action that succeeds, leaves an agreement behind and gives out nothing. -/
theorem keeps {x : Action Trial Unit} {g' : Graph Nat Nat} {model' : Model}
    (h : model'.Agrees g' j k V past) (hrun : x ⟨g, model⟩ = .ok () ⟨g', model'⟩) :
    Trial.Advances x ⟨g, model⟩ j k :=
  h.advances hrun (Nat.le_succ j) (Nat.le_succ k)

/-- An action that begins by reading the trial advances if what it goes on with does. -/
theorem advances_get {trial : Trial} {f : Trial → Action Trial Unit}
    (h : Trial.Advances (f trial) trial j k) : Trial.Advances (get >>= f) trial j k := h

/-- An operation that names something does nothing if there is nothing to name. -/
theorem advances_forM (h : model.Agrees g j k V past) {o : Option α} {f : α → Action Trial Unit}
    (hf : ∀ a, o = some a → Trial.Advances (f a) ⟨g, model⟩ j k) :
    Trial.Advances (o.forM f) ⟨g, model⟩ j k := by
  cases o with
  | none => exact h.keeps rfl
  | some a => exact hf a rfl

/-- A node is added to both sides. -/
theorem newNode (h : model.Agrees g j k V past) (hj : j < maxChunkEntries * maxChunks) :
    Trial.Advances Trial.newNode ⟨g, model⟩ j k := by
  obtain ⟨node, g', V', hrun, h'⟩ := h.newNode_run hj model.nodes.length
  exact h'.advances (by simp [Trial.newNode, Trial.onGraph, Trial.onModel, hrun]) (Nat.le_refl _)
    (Nat.le_succ k)

/-- An edge is added to both sides. -/
theorem newEdge (h : model.Agrees g j k V past) (hk : k < maxChunkEntries * maxChunks)
    {pred succ : NodeHandle} (hpred : pred ∈ model.nodes) (hsucc : succ ∈ model.nodes) :
    Trial.Advances (Trial.newEdge pred succ) ⟨g, model⟩ j k := by
  obtain ⟨edge, g', V', hrun, -, h'⟩ := h.newEdge_run hk hpred hsucc model.edges.length
  exact h'.advances (by simp [Trial.newEdge, Trial.onGraph, Trial.onModel, hrun]) (Nat.le_succ j)
    (Nat.le_refl _)

/-- A node is removed on both sides, with its edges and its marks. -/
theorem deleteNode (h : model.Agrees g j k V past) {node : NodeHandle} (hn : node ∈ model.nodes) :
    Trial.Advances (Trial.deleteNode node) ⟨g, model⟩ j k := by
  obtain ⟨b, hb⟩ := h.exists_node hn
  obtain ⟨g', hrun, hg⟩ := h.holds.deleteNode_run hb
  have h' := h.move (.removeNode node hb) hg
    (h.below.congr ⟨rfl, rfl⟩ ⟨rfl, rfl⟩) (h.model.deleteNode node)
  exact h'.keeps (by simp [Trial.deleteNode, Trial.onGraph, Trial.onModel, hrun])

/-- An edge is removed on both sides. -/
theorem deleteEdge (h : model.Agrees g j k V past) {i : Nat} {e : ModelEdge}
    (he : model.edge? i = some e) : Trial.Advances (Trial.deleteEdge i e) ⟨g, model⟩ j k := by
  obtain ⟨b, hb⟩ := h.exists_edge (mem_of_pick he)
  obtain ⟨g', hrun, hg⟩ := h.holds.deleteEdge_run hb
  have h' := h.move (.removeEdge e.edge hb) hg
    (h.below.congr ⟨rfl, rfl⟩ ⟨rfl, rfl⟩) (h.model.deleteEdge he)
  exact h'.keeps (by simp [Trial.deleteEdge, Trial.onGraph, Trial.onModel, hrun])

/-- Splitting an edge adds a node, retargets the edge and adds another one. -/
theorem insertNode (h : model.Agrees g j k V past) (hj : j < maxChunkEntries * maxChunks)
    (hk : k < maxChunkEntries * maxChunks) {i : Nat} {e : ModelEdge}
    (he : model.edge? i = some e) : Trial.Advances (Trial.insertNode i e) ⟨g, model⟩ j k := by
  have hend := h.edgeEnd_run (mem_of_pick he) .down
  have hsucc := h.end_mem (mem_of_pick he) .down
  obtain ⟨node, g₁, V₁, hrun₁, h₁⟩ := h.newNode_run hj 0
  have hnode : node ∈ model.nodes ++ [node] := by simp
  obtain ⟨g₂, V₂, hrun₂, h₂⟩ := h₁.setEnd_run he .down hnode
  obtain ⟨tail, g₃, V₃, hrun₃, hfirst, h₃⟩ :=
    h₂.newEdge_run hk hnode (List.mem_append_left [node] hsucc) 0
  have hinsert : Graph.insertNode e.edge 0 0 g = .ok node g₃ := by
    simp [Graph.insertNode, hend, hrun₁, hrun₂, hrun₃]
  refine h₃.advances ?_ (Nat.le_refl _) (Nat.le_refl _)
  simp only [Trial.insertNode, Trial.onGraph, Trial.onModel, Action.run_bind, Action.run_within,
    hinsert, Action.run_read, hfirst, Action.run_modify]
  rfl

/-- An end of an edge is retargeted on both sides. -/
theorem setEnd (h : model.Agrees g j k V past) {i : Nat} {e : ModelEdge}
    (he : model.edge? i = some e) (dir : Direction) {node : NodeHandle}
    (hn : node ∈ model.nodes) : Trial.Advances (Trial.setEnd i e dir node) ⟨g, model⟩ j k := by
  obtain ⟨g', V', hrun, h'⟩ := h.setEnd_run he dir hn
  exact h'.keeps (by simp [Trial.setEnd, Trial.onGraph, Trial.onModel, hrun])

/-- A marker is granted, unless the model has all of them. -/
theorem newMarker (h : model.Agrees g j k V past) :
    Trial.Advances Trial.newMarker ⟨g, model⟩ j k := by
  rcases Graph.Holds.simulates_marker.grant_run h.holds with
    ⟨marker, g', V', hrun, hV, hg⟩ | ⟨e, g', V', hrun, hV, hg⟩
  · have hnew : marker ∉ History.markers past := by
      have hgranted : V'.TagsAgree .marker (.grantMarker marker :: past) := h.tags.grant hV rfl
      have hnodup := hgranted.nodup
      rw [← History.markers_eq_tags] at hnodup
      exact (List.nodup_cons.1 hnodup).1
    have hmove : TagMove V [.grantMarker marker] V' := .grantMarker hV
    have h' := h.move (.tags hmove) hg (hmove.retagged.below h.below) (h.model.newMarker hnew)
    exact h'.keeps (by simp [Trial.newMarker, Trial.onModel, Action.outcome, hrun])
  · obtain ⟨rfl, rfl, hfree⟩ := TagHost.of_grant_error h.tags.sound hV
    have hfull : model.markers.length = TagKind.marker.capacity :=
      (TagLedger.length_eq_capacity_iff h.model.nodup_markers fun _ => h.inUse).2
        (TagLedger.freeIndex_eq_none_iff.1 hfree)
    have h' : model.Agrees g' j k V' past := ⟨hg, h.registered, h.tags, h.below, h.model⟩
    exact h'.keeps (by simp [Trial.newMarker, Action.outcome, hrun, agree, hfull])

/-- A marker is taken back on both sides. -/
theorem freeMarker (h : model.Agrees g j k V past) {marker : Marker}
    (hm : marker ∈ model.markers) : Trial.Advances (Trial.freeMarker marker) ⟨g, model⟩ j k := by
  obtain ⟨g', V', hrun, hg, hmove⟩ := release_run h.holds h.tags (h.inUse.1 hm)
  have hnodup : (History.markers past).Nodup := by
    rw [History.markers_eq_tags]
    exact h.tags.nodup
  have h' := h.move (.tags hmove) hg (hmove.retagged.below h.below)
    (h.model.freeMarker hnodup marker)
  exact h'.keeps (by simp [Trial.freeMarker, Trial.onGraph, Trial.onModel, hrun])

/-- A node is marked on both sides, and both see the same change. -/
theorem mark (h : model.Agrees g j k V past) {marker : Marker} {node : NodeHandle}
    (hm : marker ∈ model.markers) (hn : node ∈ model.nodes) :
    Trial.Advances (Trial.mark marker node) ⟨g, model⟩ j k := by
  obtain ⟨area, hx, hmarked⟩ := h.exists_area hm hn
  obtain ⟨g', hrun, hg⟩ := h.holds.mark_run hx (h.inUse.1 hm)
  rw [hmarked] at hrun
  have hmove : TagMove V [.mark ⟨.node, node⟩ marker] _ := .mark node marker (h.inUse.1 hm) hx
  have h' := h.move (.tags hmove) hg (hmove.retagged.below h.below) (h.model.mark hm hn)
  exact h'.keeps (by simp [Trial.mark, Trial.onGraph, Trial.onModel, hrun, agree])

/-- A node is unmarked on both sides, and both see the same change. -/
theorem unmark (h : model.Agrees g j k V past) {marker : Marker} {node : NodeHandle}
    (hm : marker ∈ model.markers) (hn : node ∈ model.nodes) :
    Trial.Advances (Trial.unmark marker node) ⟨g, model⟩ j k := by
  obtain ⟨area, hx, hmarked⟩ := h.exists_area hm hn
  obtain ⟨g', hrun, hg⟩ := h.holds.unmark_run hx (h.inUse.1 hm)
  rw [hmarked] at hrun
  have hmove : TagMove V [.unmark ⟨.node, node⟩ marker] _ :=
    .unmark node marker (h.inUse.1 hm) hx
  have h' := h.move (.tags hmove) hg (hmove.retagged.below h.below) (h.model.unmark marker node)
  exact h'.keeps (by simp [Trial.unmark, Trial.onGraph, Trial.onModel, hrun, agree])

/-- Every operation is carried out, and the graph and its model agree after it. -/
theorem apply (h : model.Agrees g j k V past) (hj : j < maxChunkEntries * maxChunks)
    (hk : k < maxChunkEntries * maxChunks) (op : Op) :
    Trial.Advances (Trial.apply op) ⟨g, model⟩ j k := by
  unfold Trial.apply
  refine advances_get ?_
  cases op with
  | newNode => exact h.newNode hj
  | newMarker => exact h.newMarker
  | deleteNode a => exact h.advances_forM fun _ hnode => h.deleteNode (mem_of_pick hnode)
  | deleteEdge a => exact h.advances_forM fun _ he => h.deleteEdge he
  | insertNode a => exact h.advances_forM fun _ he => h.insertNode hj hk he
  | freeMarker a => exact h.advances_forM fun _ hm => h.freeMarker (mem_of_pick hm)
  | newEdge a b =>
      dsimp only
      split
      · rename_i hpred hsucc
        exact h.newEdge hk (mem_of_pick hpred) (mem_of_pick hsucc)
      · exact h.keeps rfl
  | setPred a b | setSucc a b =>
      dsimp only
      split
      · rename_i he hnode
        exact h.setEnd he _ (mem_of_pick hnode)
      · exact h.keeps rfl
  | mark a b =>
      dsimp only
      split
      · rename_i hm hnode
        exact h.mark (mem_of_pick hm) (mem_of_pick hnode)
      · exact h.keeps rfl
  | unmark a b =>
      dsimp only
      split
      · rename_i hm hnode
        exact h.unmark (mem_of_pick hm) (mem_of_pick hnode)
      · exact h.keeps rfl

/-! ### Comparison -/

/-- The model has as many nodes as the graph. -/
theorem length_nodes (h : model.Agrees g j k V past) : g.nodes.count = model.nodes.length := by
  rw [h.holds.shown.nodes.count]
  exact h.registered.nodes.length_eq h.holds.consistent.nodes h.model.nodup_nodes
    h.model.mem_nodes

/-- The edges of the model are those that are live. -/
theorem mem_edges (h : model.Agrees g j k V past) (edge : EdgeHandle) :
    edge ∈ model.edges.map ModelEdge.edge ↔ History.EdgeLive edge past := by
  rw [List.mem_map]
  constructor
  · rintro ⟨e, he, rfl⟩
    exact ((h.model.edges.mem_iff e).1 he).1
  · intro hlive
    obtain ⟨b, hb⟩ := h.registered.edges.exists_body hlive
    obtain ⟨pred, -, hpred, -⟩ := h.registered.ends edge b hb .up
    obtain ⟨succ, -, hsucc, -⟩ := h.registered.ends edge b hb .down
    refine ⟨⟨edge, pred, succ⟩, (h.model.edges.mem_iff _).2 ⟨hlive, fun dir => ?_⟩, rfl⟩
    cases dir with
    | up => exact hpred
    | down => exact hsucc

/-- The model has as many edges as the graph. -/
theorem length_edges (h : model.Agrees g j k V past) : g.edges.count = model.edges.length := by
  rw [h.holds.shown.edges.count, ← List.length_map (f := ModelEdge.edge)]
  exact h.registered.edges.length_eq h.holds.consistent.edges h.model.edges.nodup h.mem_edges

/-- The `dir` list of a node is as long as the model has edges of which the node is the `dir.rev`
end. -/
theorem length_inc (h : model.Agrees g j k V past) {node : NodeHandle}
    (hn : node ∈ model.nodes) (dir : Direction) :
    (V.inc node.slot dir).length = model.endCount node dir.rev := by
  obtain ⟨c, hc⟩ := h.exists_node hn
  have hincident : ((V.inc node.slot dir).map V.edgeAt).Nodup :=
    (h.holds.shown.inc_nodup node.slot dir).map View.edgeAt_injective
  have hedges : ((model.edges.filter fun e => e.ends.get dir.rev == node).map
      ModelEdge.edge).Nodup := (List.filter_sublist.map _).nodup h.model.edges.nodup
  have hperm : ((V.inc node.slot dir).map V.edgeAt).Perm
      ((model.edges.filter fun e => e.ends.get dir.rev == node).map ModelEdge.edge) := by
    refine (List.perm_ext_iff_of_nodup hincident hedges).2 fun edge => ?_
    rw [List.mem_map, List.mem_map]
    constructor
    · rintro ⟨p, hp, rfl⟩
      obtain ⟨b, hb, hend⟩ := h.holds.consistent.body_of_mem_inc hp
      have hfind := View.find?_edgeAt hb
      have hlive := (h.registered.edges.live_iff (V.edgeAt p)).1 (by simp [hfind])
      obtain ⟨e, he, heq⟩ := List.mem_map.1 ((h.mem_edges _).2 hlive)
      refine ⟨e, List.mem_filter.2 ⟨he, ?_⟩, heq⟩
      have hlast := (h.registered.edgeEnd?_eq_iff hfind hc dir.rev).2 hend
      rw [← heq, ((h.model.edges.mem_iff e).1 he).2] at hlast
      simpa using hlast
    · rintro ⟨e, he, rfl⟩
      obtain ⟨he, hend⟩ := List.mem_filter.1 he
      obtain ⟨b, hb⟩ := h.exists_edge he
      have hlast := ((h.model.edges.mem_iff e).1 he).2 dir.rev
      rw [beq_iff_eq.1 hend, h.registered.edgeEnd?_eq_iff hb hc] at hlast
      obtain ⟨hbody, heq⟩ := Population.find?_eq_some_iff.1 hb
      refine ⟨e.edge.slot, (h.holds.consistent.inc_iff _ _ _).2 ⟨b, hbody, hlast⟩, ?_⟩
      rw [View.edgeAt_eq hbody, ← heq]
  rw [Model.endCount, List.countP_eq_length_filter, ← List.length_map (f := ModelEdge.edge),
    ← hperm.length_eq, List.length_map]

/-- A comparison passes if both values are equal. -/
theorem agree_run {β : Type} [DecidableEq β] {graph model : β} {what : β → β → Disagreement}
    (h : graph = model) : agree graph model what = .ok () := by
  simp [agree, h]

/-- The ends of an edge of the model pass the comparison. -/
theorem compareEdge_run (h : model.Agrees g j k V past) {e : ModelEdge} (he : e ∈ model.edges) :
    Trial.compareEdge ⟨g, model⟩ e = .ok () := by
  refine forM_eq_ok_iff.2 fun dir _ => ?_
  rw [h.edgeEnd_run he, ok_bind, agree_run rfl]

/-- The degrees and the marks of a node of the model pass the comparison. -/
theorem compareNode_run (h : model.Agrees g j k V past) {node : NodeHandle}
    (hn : node ∈ model.nodes) : Trial.compareNode ⟨g, model⟩ node = .ok () := by
  obtain ⟨b, hb⟩ := h.exists_node hn
  have hup := h.length_inc hn .up
  have hdown := h.length_inc hn .down
  have hmarks : (model.markers.forM fun marker => do
      agree (← Graph.isMarked node marker g) (model.isMarked marker node)
        (.mark marker node)) = .ok () := by
    refine forM_eq_ok_iff.2 fun marker hm => ?_
    rw [h.isMarked_run hm hn, ok_bind, agree_run rfl]
  simp only [Direction.rev] at hup hdown
  simp only [Trial.compareNode, h.holds.walkEdges_run hb, ok_bind, View.walkEdges,
    List.length_append, List.length_map, hup, hdown, hmarks, agree_run (Eq.refl (_ : Nat)),
    agree_run (Nat.add_comm _ _)]

/-- The graph agrees with its model in all that is compared. -/
theorem compare_run (h : model.Agrees g j k V past) : Trial.compare ⟨g, model⟩ = .ok () := by
  simp only [Trial.compare, agree_run h.length_nodes, agree_run h.length_edges, ok_bind]
  rw [forM_eq_ok_iff.2 fun e he => h.compareEdge_run he, ok_bind,
    forM_eq_ok_iff.2 fun node hn => h.compareNode_run hn]

/-! ### Runs -/

/-- Every operation is carried out, and what is checked after it holds. -/
theorem step (h : model.Agrees g j k V past) (hj : j < maxChunkEntries * maxChunks)
    (hk : k < maxChunkEntries * maxChunks) (op : Op) :
    Trial.Advances (Trial.step op) ⟨g, model⟩ j k := by
  obtain ⟨trial', V', past', hrun, h'⟩ := h.apply hj hk op
  refine ⟨trial', V', past', ?_, h'⟩
  simp [Trial.step, hrun, h'.holds.verify_run, h'.compare_run]

/-- Operations, one after another, as long as there is room for all they may add. -/
theorem steps (h : model.Agrees g k k V past) (ops : List Op)
    (hroom : k + ops.length ≤ maxChunkEntries * maxChunks) :
    ∃ g' model' V' past', (ops.forM Trial.step : Action Trial Unit) ⟨g, model⟩ =
      .ok () ⟨g', model'⟩ ∧ model'.Agrees g' (k + ops.length) (k + ops.length) V' past' := by
  induction ops generalizing g model k V past with
  | nil => exact ⟨g, model, V, past, rfl, h⟩
  | cons op ops ih =>
      rw [List.length_cons] at hroom ⊢
      obtain ⟨⟨g₁, model₁⟩, V₁, past₁, hrun₁, h₁⟩ := h.step (by omega) (by omega) op
      obtain ⟨g₂, model₂, V₂, past₂, hrun₂, h₂⟩ := ih h₁ (by omega)
      rw [List.forM_eq_forM] at hrun₂
      refine ⟨g₂, model₂, V₂, past₂, ?_, by rwa [Nat.add_right_comm, Nat.add_assoc] at h₂⟩
      simp [List.forM_eq_forM, hrun₁, hrun₂]

/-- Markers in use are taken back one after another. -/
theorem releaseAll (model : Model) (h : Graph.Holds g V) (ha : V.TagsAgree .marker past)
    {markers : List Marker} (hnodup : markers.Nodup)
    (huse : ∀ marker ∈ markers, marker ∈ History.markers past) :
    ∃ g' V', (markers.forM fun marker => Trial.onGraph (TagHost.release marker) :
      Action Trial Unit) ⟨g, model⟩ = .ok () ⟨g', model⟩ ∧ Graph.Holds g' V' := by
  induction markers generalizing g V past with
  | nil => exact ⟨g, V, rfl, h⟩
  | cons marker markers ih =>
      obtain ⟨hnot, hrest⟩ := List.nodup_cons.1 hnodup
      have hlive := ha.mem_markers.1 (huse marker List.mem_cons_self)
      obtain ⟨g₁, V₁, hrun₁, h₁, hmove⟩ := release_run h ha hlive
      obtain ⟨g₂, V₂, hrun₂, h₂⟩ := ih h₁ (ha.move (.tags hmove)) hrest fun marker' hmem => by
        have hne : marker' ≠ marker := fun heq => hnot (heq ▸ hmem)
        exact (List.mem_erase_of_ne hne).2 (huse marker' (List.mem_cons_of_mem marker hmem))
      rw [List.forM_eq_forM] at hrun₂
      exact ⟨g₂, V₂, by simpa [List.forM_eq_forM, Trial.onGraph, hrun₁] using hrun₂, h₂⟩

/-- All markers are taken back. -/
theorem freeMarkers (h : model.Agrees g j k V past) :
    ∃ g' model' V', Trial.freeMarkers ⟨g, model⟩ = .ok () ⟨g', model'⟩ ∧ Graph.Holds g' V' := by
  obtain ⟨g', V', hrun, hg⟩ := releaseAll model h.holds h.tags h.model.nodup_markers
    fun marker hm => (h.model.mem_markers marker).1 hm
  rw [List.forM_eq_forM] at hrun
  refine ⟨g', { model with markers := [] }, V', ?_, hg⟩
  simp [Trial.freeMarkers, List.forM_eq_forM, hrun, Trial.onModel]

end Model.Agrees

/-- Every script runs to its end, as long as a pool has room for all that it may add. The graph
then passes the structural check and agrees with the model after each operation, all markers are
taken back, and the graph is given up. -/
theorem Script.run_eq_ok (ops : List Op) (hshort : ops.length ≤ maxChunkEntries * maxChunks) :
    Script.run ops = .ok () := by
  obtain ⟨g, supply, hnew, h⟩ := Graph.ofConfig_run (N := Nat) (E := Nat)
    (show 0 < ({} : GraphConfig).nodeCapacity ∧ ({} : GraphConfig).nodeCapacity ≤ maxChunkEntries
      by decide)
    (show 0 < ({} : GraphConfig).edgeCapacity ∧ ({} : GraphConfig).edgeCapacity ≤ maxChunkEntries
      by decide) {}
  have hstart : ({} : Model).Agrees g 0 0 _ [] :=
    ⟨h, View.Registered.blank .., View.tagsAgree_blank_markers ..,
      ⟨Nat.le_refl _, Nat.le_refl _, Nat.mul_comm _ _, Nat.mul_comm _ _⟩, .empty⟩
  obtain ⟨g', model', V', past', hrun, h'⟩ := hstart.steps ops (by omega)
  obtain ⟨g'', model'', V'', hfree, hg⟩ := h'.freeMarkers
  obtain ⟨_, hclose, -⟩ := hg.close_run false
  rw [List.forM_eq_forM] at hrun
  simp [Script.run, Action.outcome, hnew, List.forM_eq_forM, hrun, hfree, Trial.onGraph, hclose]

/-- A script runs to its end that splits a loop, deletes a marked node and frees a marker. -/
theorem Script.run_eq_ok_loop :
    [Op.newNode, .newEdge 0 0, .newMarker, .mark 0 0, .insertNode 0, .deleteNode 0,
      .freeMarker 0].length ≤ maxChunkEntries * maxChunks ∧
    Script.run [.newNode, .newEdge 0 0, .newMarker, .mark 0 0, .insertNode 0, .deleteNode 0,
      .freeMarker 0] = .ok () :=
  ⟨by decide, Script.run_eq_ok _ (by decide)⟩

end SlabGraph
