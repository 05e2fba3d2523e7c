import SlabGraph.Proofs.Relocation.Readers

/-!
# Queries of Graphs That Are Alike

A query of two graphs that are alike, with handles of the same entities, is answered the same up to
slots, or refused with the same fault (`Graph.Mirrors.query`).

A query is put together from a few readers: the record of an entity, the neighbours of an entity in
the list of all, the node at an end of an edge, and the edges of a node one after another. Each of
these readers agrees in both graphs. The walk over both halves of the edges of a node goes from one
of them to the next, and finds its node again through an edge. That the node found in one graph
matches the node found in the other is what lets it go on alike.

## Main definitions

* `View.dump`, the ids that a dump lists.

## Main results

* `Graph.Holds.dump_run`;
* `Graph.Mirrors.query`.
-/

namespace SlabGraph

/-! ### Dumps -/

/-- The ids that the dump of a graph lists. -/
def View.dump {N E : Type} (V : View N E) : Dump where
  nodes := V.nodes.members.map fun n => (V.nodes.body n).elim 0 Body.uid
  edges := V.edges.members.map fun e => (V.edges.body e).elim (0, 0) fun b =>
    ((V.nodes.body b.incidence.up).elim 0 Body.uid, (V.nodes.body b.incidence.down).elim 0 Body.uid)

namespace Graph

variable {N E : Type} {g g' : Graph N E} {V V' : View N E} {ρ : Relocation}

/-- The id that stands in the slot of a node. -/
theorem Holds.nodeUid_run (h : Holds g V) {n : Ptr} (hn : (V.nodes.body n).isSome = true) :
    (do return (← g.nodes.record n).uid : Except Fault Nat) =
      .ok ((V.nodes.body n).elim 0 Body.uid) := by
  obtain ⟨b, hb⟩ := Option.isSome_iff_exists.1 hn
  obtain ⟨r, hr, rfl⟩ := h.shown.nodes.exists_record hb
  rw [hb, Roster.record, Pool.read_of_get? hr]
  rfl

/-- The dump of a graph lists the ids of its view. -/
theorem Holds.dump_run (h : Holds g V) : g.dump = .ok V.dump := by
  have hnodes : V.nodes.members.mapM (fun n => do return (← g.nodes.record n).uid) =
      .ok V.dump.nodes :=
    mapM_eq_ok fun n hn => h.nodeUid_run ((h.consistent.nodes.mem_iff n).1 hn)
  have hedges : V.edges.members.mapM (fun e => do
      let ends := (← g.edges.record e).incidence
      return ((← g.nodes.record ends.up).uid, (← g.nodes.record ends.down).uid)) =
      .ok V.dump.edges := by
    refine mapM_eq_ok fun e he => ?_
    obtain ⟨b, hb⟩ := Option.isSome_iff_exists.1 ((h.consistent.edges.mem_iff e).1 he)
    obtain ⟨r, hr, hends⟩ := h.shown.exists_edge hb
    obtain ⟨c, hc⟩ := Option.isSome_iff_exists.1 (h.consistent.ends e b hb .up)
    obtain ⟨d, hd⟩ := Option.isSome_iff_exists.1 (h.consistent.ends e b hb .down)
    obtain ⟨s, hs, rfl⟩ := h.shown.nodes.exists_record hc
    obtain ⟨t, ht, rfl⟩ := h.shown.nodes.exists_record hd
    change V.nodes.body b.incidence.up = _ at hc
    change V.nodes.body b.incidence.down = _ at hd
    change g.nodes.pool.get? b.incidence.up = _ at hs
    change g.nodes.pool.get? b.incidence.down = _ at ht
    simp [Roster.record, Pool.read_of_get? hr, hends, Pool.read_of_get? hs, Pool.read_of_get? ht,
      hb, hc, hd, Record.body, pure, Except.pure]
  simp only [dump, h.shown.nodes.members_run h.consistent.nodes,
    h.shown.edges.members_run h.consistent.edges, ok_bind, hnodes, hedges]
  rfl

namespace Mirrors

variable (m : Mirrors ρ V V' g g')

include m

/-! ### Counts and dumps -/

/-- The nodes. -/
theorem nodes : Roster.Mirrors ρ.node (fun _ => ()) (fun _ => ()) g.id V.nodes V'.nodes g.nodes
    g'.nodes :=
  ⟨m.left.shown.nodes, m.id_eq ▸ m.right.shown.nodes, m.relocated.nodes, m.left.consistent.nodes,
    m.right.consistent.nodes⟩

/-- The edges. -/
theorem edges : Roster.Mirrors ρ.edge (DirPair.map ρ.node) (fun ends => ends) g.id V.edges V'.edges
    g.edges g'.edges :=
  ⟨m.left.shown.edges, m.id_eq ▸ m.right.shown.edges, m.relocated.edges, m.left.consistent.edges,
    m.right.consistent.edges⟩

/-- Both graphs have the same summary. -/
theorem summary : g'.summary = g.summary := by
  unfold Graph.summary
  rw [m.id_eq, m.nodes.count_eq, m.edges.count_eq]

/-- Both graphs list the same ids. -/
theorem dump : V'.dump = V.dump := by
  rw [View.dump, View.dump, Dump.mk.injEq, m.relocated.nodes.members, m.relocated.edges.members,
    List.map_map, List.map_map]
  refine ⟨List.map_congr_left fun n hn => ?_, List.map_congr_left fun e he => ?_⟩
  · obtain ⟨b, hb⟩ := Option.isSome_iff_exists.1 ((m.left.consistent.nodes.mem_iff n).1 hn)
    simp [hb, m.relocated.nodes.body n b hb, Body.relocate]
  · obtain ⟨b, hb⟩ := Option.isSome_iff_exists.1 ((m.left.consistent.edges.mem_iff e).1 he)
    obtain ⟨c, hc⟩ := Option.isSome_iff_exists.1 (m.left.consistent.ends e b hb .up)
    obtain ⟨d, hd⟩ := Option.isSome_iff_exists.1 (m.left.consistent.ends e b hb .down)
    change V.nodes.body b.incidence.up = _ at hc
    change V.nodes.body b.incidence.down = _ at hd
    simp [hb, m.relocated.edges.body e b hb, Body.relocate, DirPair.map, hc, hd,
      m.relocated.nodes.body _ c hc, m.relocated.nodes.body _ d hd]

/-! ### The lists of all entities -/

/-- Both graphs list the same nodes, in the same order. -/
theorem nodeList : Agree Handle.SameAll g.nodeList g'.nodeList := by
  rw [m.left.nodeList_run, m.right.nodeList_run, m.relocated.id, m.left.shown.id]
  exact .ok (m.nodes.sameAll_handles .node)

/-- Both graphs list the same edges, in the same order. -/
theorem edgeList : Agree Handle.SameAll g.edgeList g'.edgeList := by
  rw [m.left.edgeList_run, m.right.edgeList_run, m.relocated.id, m.left.shown.id]
  exact .ok (m.edges.sameAll_handles .edge)

/-- Both graphs have the same first node. -/
theorem firstNode : Agree Handle.SameOption g.firstNode g'.firstNode := by
  rw [Graph.firstNode, Graph.firstNode, m.id_eq]
  exact m.nodes.first .node

/-- Both graphs have the same first edge. -/
theorem firstEdge : Agree Handle.SameOption g.firstEdge g'.firstEdge := by
  rw [Graph.firstEdge, Graph.firstEdge, m.id_eq]
  exact m.edges.first .edge

/-! ### Nodes -/

section

variable {x x' : NodeHandle} (hx : V.Corresponds V' x x')

include hx

/-- Handles of nodes that correspond in the views correspond in the populations of nodes. -/
theorem node_corresponds : V.nodes.Corresponds V'.nodes g.id x x' :=
  ⟨hx.unplaced, m.left.shown.id ▸ hx.left, (m.right.shown.id.trans m.id_eq) ▸ hx.right⟩

/-- The records of a node say the same. -/
theorem node : Agree (fun r r' => r'.body (fun _ => ()) = r.body fun _ => ()) (g.node x)
    (g'.node x') := by
  rw [Graph.node, Graph.node, m.id_eq]
  exact m.nodes.lookup (m.node_corresponds hx)

/-- A node is in both graphs or in none. -/
theorem containsNode : g'.containsNode x' = g.containsNode x := by
  have hfind := congrArg Option.isSome (m.nodes.find?_eq (m.node_corresponds hx))
  simpa only [Graph.containsNode, m.id_eq, Option.isSome_map] using hfind

/-- Both graphs answer the same payload of a node, or none. -/
theorem nodeData? : g'.nodeData? x' = g.nodeData? x := by
  have hfind := congrArg (Option.map Body.data) (m.nodes.find?_eq (m.node_corresponds hx))
  rw [Graph.nodeData?, Graph.nodeData?, m.id_eq]
  rw [Option.map_map, Option.map_map, Option.map_map] at hfind
  exact hfind

/-- Both graphs answer the same id of a node. -/
theorem nodeUid : Agree Eq (g.nodeUid x) (g'.nodeUid x') :=
  (m.node hx).bind fun _ _ hbody => .ok (congrArg Body.uid hbody).symm

/-- Both graphs answer the same payload of a node. -/
theorem nodeData : Agree Eq (g.nodeData x) (g'.nodeData x') :=
  (m.node hx).bind fun _ _ hbody => .ok (congrArg Body.data hbody).symm

/-- Both graphs answer the same node after another one. -/
theorem nextNode : Agree Handle.SameOption (g.nextNode x) (g'.nextNode x') := by
  simp only [Graph.nextNode, Graph.node, m.id_eq]
  exact m.nodes.next (m.node_corresponds hx)

/-- Both graphs answer the same node before another one. -/
theorem prevNode : Agree Handle.SameOption (g.prevNode x) (g'.prevNode x') := by
  simp only [Graph.prevNode, Graph.node, m.id_eq]
  exact m.nodes.prev (m.node_corresponds hx)

end

/-! ### Edges -/

section

variable {x x' : EdgeHandle} (hx : V.Corresponds V' x x')

include hx

/-- Handles of edges that correspond in the views correspond in the populations of edges. -/
theorem edge_corresponds : V.edges.Corresponds V'.edges g.id x x' :=
  ⟨hx.unplaced, m.left.shown.id ▸ hx.left, (m.right.shown.id.trans m.id_eq) ▸ hx.right⟩

/-- The records of an edge say the same, apart from the slots of its ends. -/
theorem edge : Agree (fun r r' => r'.body (fun ends => ends) =
      (r.body fun ends => ends).relocate (DirPair.map ρ.node)) (g.edge x) (g'.edge x') := by
  rw [Graph.edge, Graph.edge, m.id_eq]
  exact m.edges.lookup (m.edge_corresponds hx)

/-- An edge is in both graphs or in none. -/
theorem containsEdge : g'.containsEdge x' = g.containsEdge x := by
  have hfind := congrArg Option.isSome (m.edges.find?_eq (m.edge_corresponds hx))
  simpa only [Graph.containsEdge, m.id_eq, Option.isSome_map] using hfind

/-- Both graphs answer the same payload of an edge, or none. -/
theorem edgeData? : g'.edgeData? x' = g.edgeData? x := by
  have hfind := congrArg (Option.map Body.data) (m.edges.find?_eq (m.edge_corresponds hx))
  rw [Graph.edgeData?, Graph.edgeData?, m.id_eq]
  rw [Option.map_map, Option.map_map, Option.map_map] at hfind
  exact hfind

/-- Both graphs answer the same id of an edge. -/
theorem edgeUid : Agree Eq (g.edgeUid x) (g'.edgeUid x') :=
  (m.edge hx).bind fun _ _ hbody => .ok (congrArg Body.uid hbody).symm

/-- Both graphs answer the same payload of an edge. -/
theorem edgeData : Agree Eq (g.edgeData x) (g'.edgeData x') :=
  (m.edge hx).bind fun _ _ hbody => .ok (congrArg Body.data hbody).symm

/-- Both graphs answer the same edge after another one. -/
theorem nextEdge : Agree Handle.SameOption (g.nextEdge x) (g'.nextEdge x') := by
  simp only [Graph.nextEdge, Graph.nextInList, Graph.edge, m.id_eq]
  exact m.edges.next (m.edge_corresponds hx)

/-- Both graphs answer the same edge before another one. -/
theorem prevEdge : Agree Handle.SameOption (g.prevEdge x) (g'.prevEdge x') := by
  simp only [Graph.prevEdge, Graph.edge, m.id_eq]
  exact m.edges.prev (m.edge_corresponds hx)

end

/-! ### Incidence -/

/-- The node at an end of an edge is the same entity. -/
theorem edgeEnd {x x' : EdgeHandle} (hx : V.Corresponds V' x x') (dir : Direction) :
    Agree (V.Corresponds V') (g.edgeEnd x dir) (g'.edgeEnd x' dir) := by
  rcases m.edge_cases hx with ⟨hnone, hnone'⟩ | ⟨b, hb, hb', -⟩
  · rw [Graph.edgeEnd, Graph.edgeEnd, m.left.edge_refused hnone, m.right.edge_refused hnone',
      m.id_eq]
    exact .error (Handle.unplaced_refusal hx.unplaced g.id)
  · obtain ⟨c, hc, hc', hrun, hrun'⟩ := m.edgeEnd_run hb hb' dir
    rw [hrun, hrun']
    refine .ok ⟨?_, m.left.consistent.places_node (Population.find?_eq_some_iff.2 ⟨hc, rfl⟩),
      m.right.consistent.places_node (Population.find?_eq_some_iff.2 ⟨hc', rfl⟩)⟩
    simp [Handle.unplaced, m.relocated.id]

/-- Edges that match have handles of the same entities. -/
theorem sameAll_edgeAt {es : List Ptr} (hes : ∀ e ∈ es, (V.edges.body e).isSome = true) :
    Handle.SameAll (es.map V.edgeAt) ((es.map ρ.edge).map V'.edgeAt) := by
  change Handle.SameAll (es.map (V.edges.handleAt .edge V.id))
    ((es.map ρ.edge).map (V'.edges.handleAt .edge V'.id))
  rw [m.relocated.id]
  exact m.relocated.edges.sameAll_handleAt hes .edge V.id

/-- Both graphs answer the same first edge of a list of a node. -/
theorem firstIncident {x x' : NodeHandle} (hx : V.Corresponds V' x x') (dir : Direction) :
    Agree Handle.SameOption (g.firstIncident x dir) (g'.firstIncident x' dir) := by
  rcases m.node_cases hx with ⟨hnone, hnone'⟩ | ⟨b, hb, hb', hslot⟩
  · rw [Graph.firstIncident, Graph.firstIncident, m.left.node_refused hnone,
      m.right.node_refused hnone', m.id_eq]
    exact .error (Handle.unplaced_refusal hx.unplaced g.id)
  · have hlive : (V.nodes.body x.slot).isSome = true := by
      simp [(Population.find?_eq_some_iff.1 hb).1]
    rw [m.left.firstIncident_run hb, m.right.firstIncident_run hb', hslot,
      m.relocated.inc x.slot hlive, ← List.head?_map, ← List.head?_map]
    exact .ok (m.sameAll_edgeAt fun e he =>
      m.left.consistent.isSome_of_mem_inc he).head?

/-- Both graphs answer the same edge after another one on a list of a node. -/
theorem nextIncident {x x' : EdgeHandle} (hx : V.Corresponds V' x x') (dir : Direction) :
    Agree Handle.SameOption (g.nextIncident x dir) (g'.nextIncident x' dir) := by
  rcases m.edge_cases hx with ⟨hnone, hnone'⟩ | ⟨b, hb, hb', hslot⟩
  · rw [Graph.nextIncident, Graph.nextIncident, Graph.nextInList, Graph.nextInList,
      m.left.edge_refused hnone, m.right.edge_refused hnone', m.id_eq]
    exact .error (Handle.unplaced_refusal hx.unplaced g.id)
  · obtain ⟨hbody, heq⟩ := Population.find?_eq_some_iff.1 hb
    obtain ⟨hbody', heq'⟩ := Population.find?_eq_some_iff.1 hb'
    rw [hslot] at hbody' heq'
    -- both edges stand in the list of their node at places that match
    obtain ⟨as, es, hinc⟩ :=
      List.append_of_mem ((m.left.consistent.inc_iff _ dir x.slot).2 ⟨b, hbody, rfl⟩)
    have hinc' : V'.inc (ρ.node (b.incidence.get dir.rev)) dir =
        as.map ρ.edge ++ ρ.edge x.slot :: es.map ρ.edge := by
      rw [m.relocated.inc _ (m.left.consistent.ends _ b hbody dir.rev), hinc]
      simp
    have hx := m.left.nextIncident_run hinc
    have hx' := m.right.nextIncident_run hinc'
    rw [View.edgeAt_eq hbody, ← heq] at hx
    rw [View.edgeAt_eq hbody', ← heq'] at hx'
    rw [hx, hx', ← List.head?_map, ← List.head?_map]
    refine .ok (m.sameAll_edgeAt fun e he => ?_).head?
    exact m.left.consistent.isSome_of_mem_inc (n := b.incidence.get dir.rev)
      (by rw [hinc]; simp [he])

/-! ### Walks -/

/-- Positions of one walk at one entity. -/
def SamePosition (position position' : Option EdgeHandle × Walk) : Prop :=
  Handle.SameOption position.1 position'.1 ∧ position.2 = position'.2

omit m in
/-- A walk that stays in one list. -/
theorem samePosition {x x' : Except Fault (Option EdgeHandle)}
    (h : Agree Handle.SameOption x x') (walk : Walk) :
    Agree SamePosition (do return (← x, walk)) (do return (← x', walk)) :=
  h.bind fun _ _ hsame => .ok ⟨hsame, rfl⟩

/-- The first position of a walk. -/
theorem start {x x' : NodeHandle} (hx : V.Corresponds V' x x') (walk : Walk) :
    Agree SamePosition (walk.start g x) (walk.start g' x') := by
  cases walk with
  | incoming => exact samePosition (m.firstIncident hx .up) .incoming
  | outgoing => exact samePosition (m.firstIncident hx .down) .outgoing
  | both inPreds =>
      refine (m.firstIncident hx .up).bind fun first? first?' hfirst => ?_
      cases first? with
      | some first =>
          obtain ⟨first', rfl, -⟩ := Option.map_eq_some_iff.1 hfirst.symm
          exact .ok ⟨hfirst, rfl⟩
      | none =>
          obtain rfl := Option.map_eq_none_iff.1 hfirst.symm
          exact samePosition (m.firstIncident hx .down) (.both false)

/-- The next position of a walk. -/
theorem step {x x' : EdgeHandle} (hx : V.Corresponds V' x x') (walk : Walk) :
    Agree SamePosition (walk.step g x) (walk.step g' x') := by
  cases walk with
  | incoming => exact samePosition (m.nextIncident hx .up) .incoming
  | outgoing => exact samePosition (m.nextIncident hx .down) .outgoing
  | both inPreds =>
      cases inPreds with
      | false => exact samePosition (m.nextIncident hx .down) (.both false)
      | true =>
          refine (m.nextIncident hx .up).bind fun next? next?' hnext => ?_
          cases next? with
          | some next =>
              obtain ⟨next', rfl, -⟩ := Option.map_eq_some_iff.1 hnext.symm
              exact .ok ⟨hnext, rfl⟩
          | none =>
              obtain rfl := Option.map_eq_none_iff.1 hnext.symm
              exact (m.edgeEnd hx .down).bind fun _ _ hnode =>
                samePosition (m.firstIncident hnode .down) (.both false)

omit m in
/-- The cursors at positions of one walk. -/
theorem sameCursor {x : Except Fault (Option EdgeHandle × Walk)}
    {x' : Except Fault (Option EdgeHandle × Walk)} (h : Agree SamePosition x x') :
    Agree (fun c c' => (Answer.cursor c : Answer N E).unplaced = (Answer.cursor c').unplaced)
      (EdgeCursor.ofPosition <$> x) (EdgeCursor.ofPosition <$> x') := by
  refine h.map fun position position' hsame => ?_
  obtain ⟨x?, walk⟩ := position
  obtain ⟨x?', walk'⟩ := position'
  obtain ⟨hedge, rfl⟩ : Handle.SameOption x? x?' ∧ walk = walk' := hsame
  cases x? with
  | some x =>
      obtain ⟨x', rfl, hx⟩ := Option.map_eq_some_iff.1 hedge.symm
      simp [EdgeCursor.ofPosition, Answer.unplaced, hx]
  | none =>
      obtain rfl := Option.map_eq_none_iff.1 hedge.symm
      rfl

/-- A walk over the edges of a node begins at the same edge in both graphs. -/
theorem begin {x x' : NodeHandle} (hx : V.Corresponds V' x x') (walk : Walk) :
    Agree (fun c c' => (Answer.cursor c : Answer N E).unplaced = (Answer.cursor c').unplaced)
      (EdgeCursor.begin g x walk) (EdgeCursor.begin g' x' walk) :=
  sameCursor (m.start hx walk)

/-- A cursor moves on to the same edge in both graphs, or fails in both. -/
theorem advance {σ σ' : (kind : EntityKind) → Handle kind → Handle kind}
    (hσ : ∀ kind x, V.Corresponds V' (σ kind x) (σ' kind x)) (cursor : EdgeCursor) :
    Agree (fun c c' => (Answer.cursor c : Answer N E).unplaced = (Answer.cursor c').unplaced)
      (EdgeCursor.advance g ⟨cursor.edge?.map (σ _), cursor.walk⟩)
      (EdgeCursor.advance g' ⟨cursor.edge?.map (σ' _), cursor.walk⟩) := by
  obtain ⟨x?, walk⟩ := cursor
  cases x? with
  | none => exact .error rfl
  | some x => exact sameCursor (m.step (hσ _ x) walk)

/-- The edges of a node in the order of a walk. -/
theorem walkEdges {x x' : NodeHandle} (hx : V.Corresponds V' x x') (walk : Walk) :
    Agree Handle.SameAll (g.walkEdges x walk) (g'.walkEdges x' walk) := by
  rcases m.node_cases hx with ⟨hnone, hnone'⟩ | ⟨b, hb, hb', hslot⟩
  · have hrefused : ∀ {g : Graph N E} {x : NodeHandle},
        g.node x = .error (x.refusal g.id) → g.walkEdges x walk = .error (x.refusal g.id) := by
      intro g x hnode
      cases walk <;>
        simp [Graph.walkEdges, EdgeCursor.begin, Walk.start, Graph.firstIncident, hnode]
    rw [hrefused (m.left.node_refused hnone), hrefused (m.right.node_refused hnone'), m.id_eq]
    exact .error (Handle.unplaced_refusal hx.unplaced g.id)
  · have hlive : (V.nodes.body x.slot).isSome = true := by
      simp [(Population.find?_eq_some_iff.1 hb).1]
    have hinc : ∀ dir, ((V.inc x.slot dir).map V.edgeAt).map Handle.unplaced =
        (((V.inc x.slot dir).map ρ.edge).map V'.edgeAt).map Handle.unplaced := fun dir =>
      m.sameAll_edgeAt fun e he => m.left.consistent.isSome_of_mem_inc he
    rw [m.left.walkEdges_run hb, m.right.walkEdges_run hb', hslot]
    refine .ok ?_
    cases walk <;>
      simp only [Handle.SameAll, View.walkEdges, m.relocated.inc x.slot hlive, List.map_append,
        hinc]

/-! ### Tags -/

/-- Both graphs have the same markers in use. -/
theorem markers_eq : g'.markers = g.markers := simulates_marker_alike.ledger m.alike

/-- Both graphs have the same numerations in use. -/
theorem nums_eq : g'.nums = g.nums := simulates_numeration_alike.ledger m.alike

/-- Both graphs answer the same tags of an entity. -/
theorem area {kind : EntityKind} {x x' : Handle kind} (hx : V.Corresponds V' x x') :
    Agree Eq (g.area x) (g'.area x') := by
  rcases m.area_cases hx with ⟨hnone, hnone'⟩ | ⟨area, harea, harea', -⟩
  · rw [m.left.area_refused hnone, m.right.area_refused hnone', m.id_eq]
    exact .error (Handle.unplaced_refusal hx.unplaced g.id)
  · rw [m.left.area_run harea, m.right.area_run harea']
    exact .ok rfl

/-- What is read off the stamps of an entity after the tag was checked. -/
theorem checkedArea {tagKind : TagKind} [TagHost (Graph N E) tagKind]
    (hsim : TagHost.Simulates tagKind (Alike (N := N) (E := E))) {α : Type} {kind : EntityKind}
    {x x' : Handle kind} (hx : V.Corresponds V' x x') (tag : Tag tagKind) (read : TagArea → α) :
    Agree Eq (do g.checkTag tag; return read (← g.area x))
      (do g'.checkTag tag; return read (← g'.area x')) := by
  have hcheck : g.checkTag tag = g'.checkTag tag := by
    rw [checkTag, checkTag, hsim.ledger m.alike, m.id_eq]
  refine (Agree.of_eq hcheck).bind fun _ _ _ => (m.area hx).bind fun area area' harea => ?_
  rw [harea]
  exact .ok rfl

/-! ### All queries -/

/-- A query with handles of the same entities is answered alike. -/
theorem query {σ σ' : (kind : EntityKind) → Handle kind → Handle kind}
    (hσ : ∀ kind x, V.Corresponds V' (σ kind x) (σ' kind x)) (q : Query) :
    Response.unplaced ((q.rename σ).reply g) = Response.unplaced ((q.rename σ').reply g') := by
  -- each kind of answer forgets the slots; the cases below only name the reader and the kind
  have hnodeList : ∀ {xs xs' : List NodeHandle}, Handle.SameAll xs xs' →
      (Answer.nodes xs : Answer N E).unplaced = (Answer.nodes xs').unplaced := by
    intro xs xs' hsame
    rw [Answer.unplaced_nodes, Answer.unplaced_nodes, hsame]
  have hedgeList : ∀ {xs xs' : List EdgeHandle}, Handle.SameAll xs xs' →
      (Answer.edges xs : Answer N E).unplaced = (Answer.edges xs').unplaced := by
    intro xs xs' hsame
    rw [Answer.unplaced_edges, Answer.unplaced_edges, hsame]
  have hnodes : ∀ {x? x?' : Option NodeHandle}, Handle.SameOption x? x?' →
      (Answer.nodes x?.toList : Answer N E).unplaced = (Answer.nodes x?'.toList).unplaced := by
    intro x? x?' hsame
    refine hnodeList ?_
    rw [Handle.SameAll, ← Option.toList_map, hsame, Option.toList_map]
  have hedges : ∀ {x? x?' : Option EdgeHandle}, Handle.SameOption x? x?' →
      (Answer.edges x?.toList : Answer N E).unplaced = (Answer.edges x?'.toList).unplaced := by
    intro x? x?' hsame
    refine hedgeList ?_
    rw [Handle.SameAll, ← Option.toList_map, hsame, Option.toList_map]
  have heq : ∀ {α : Type} {answer : α → Answer N E} (a b : α), a = b →
      (answer a).unplaced = (answer b).unplaced := fun a b hab => by rw [hab]
  cases q with
  | numNodes => simp only [Query.rename, Query.reply, m.nodes.count_eq]
  | numEdges => simp only [Query.rename, Query.reply, m.edges.count_eq]
  | summary => simp only [Query.rename, Query.reply, m.summary]
  | dump =>
      simp only [Query.rename, Query.reply, dumpText, m.left.dump_run, m.right.dump_run, m.dump]
  | verify => simp only [Query.rename, Query.reply, m.left.verify_run, m.right.verify_run]
  | containsNode x => simp only [Query.rename, Query.reply, m.containsNode (hσ _ x)]
  | containsEdge x => simp only [Query.rename, Query.reply, m.containsEdge (hσ _ x)]
  | nodeUid x => exact (m.nodeUid (hσ _ x)).response heq
  | edgeUid x => exact (m.edgeUid (hσ _ x)).response heq
  | nodeData x => exact (m.nodeData (hσ _ x)).response heq
  | edgeData x => exact (m.edgeData (hσ _ x)).response heq
  | nodeData? x => simp only [Query.rename, Query.reply, m.nodeData? (hσ _ x)]
  | edgeData? x => simp only [Query.rename, Query.reply, m.edgeData? (hσ _ x)]
  | nodes => exact m.nodeList.response fun _ _ => hnodeList
  | edges => exact m.edgeList.response fun _ _ => hedgeList
  | firstNode => exact m.firstNode.response fun _ _ => hnodes
  | firstEdge => exact m.firstEdge.response fun _ _ => hedges
  | nextNode x => exact (m.nextNode (hσ _ x)).response fun _ _ => hnodes
  | prevNode x => exact (m.prevNode (hσ _ x)).response fun _ _ => hnodes
  | nextEdge x => exact (m.nextEdge (hσ _ x)).response fun _ _ => hedges
  | prevEdge x => exact (m.prevEdge (hσ _ x)).response fun _ _ => hedges
  | edgeEnd x dir => exact (m.edgeEnd (hσ _ x) dir).response fun _ _ h => by simp [h.unplaced]
  | firstIncident x dir => exact (m.firstIncident (hσ _ x) dir).response fun _ _ => hedges
  | nextIncident x dir => exact (m.nextIncident (hσ _ x) dir).response fun _ _ => hedges
  | walkEdges x walk =>
      exact (m.walkEdges (hσ _ x) walk).response fun _ _ => hedgeList
  | begin x walk => exact (m.begin (hσ _ x) walk).response fun _ _ hsame => hsame
  | advance cursor => exact (m.advance hσ cursor).response fun _ _ hsame => hsame
  | stamps x => exact (m.area (hσ _ x)).response heq
  | isMarked x marker =>
      exact (m.checkedArea simulates_marker_alike (hσ _ x) marker _).response heq
  | isNumbered x num =>
      exact (m.checkedArea simulates_numeration_alike (hσ _ x) num _).response heq
  | number x num => exact (m.checkedArea simulates_numeration_alike (hσ _ x) num _).response heq
  | markerInUse marker => simp only [Query.rename, Query.reply, m.markers_eq]
  | numInUse num => simp only [Query.rename, Query.reply, m.nums_eq]

end Mirrors

end Graph

end SlabGraph
