import SlabGraph.Proofs.Graph.Edit

/-!
# Room for Nodes and Edges

An operation on live entities cannot fail in the middle, unless a pool has no chunk left to grow
by or the ids have run out. With room for one more node and one more edge, creations complete,
and so does the split of an edge, which consists of two creations with a retargeting in between.

## Main definitions

* `Graph.HasRoom`, room for one more node and one more edge; `Population.HasRoom`.

## Main results

* `Graph.Holds.newNode_cases`, `Graph.Holds.newEdge_cases`, `Graph.Holds.insertNode_cases`.
-/

namespace SlabGraph

variable {N E : Type}

/-! ### Room -/

/-- There are a slot and an id for one more member. -/
structure Population.HasRoom {κ δ : Type} (P : Population κ δ) : Prop where
  /-- A slot is left. -/
  slot : P.members.length < P.limit
  /-- An id is left. -/
  uid : P.next + 1 < uidLimit

/-- A pool can grow by one more chunk, and there is an id for one more member. -/
structure Roster.HasRoom {slots : Nat} {ι δ : Type} (roster : Roster slots ι δ) : Prop where
  /-- A chunk is left. -/
  chunk : roster.pool.chunks.size < maxChunks
  /-- An id is left. -/
  uid : roster.nextUid + 1 < uidLimit

/-- There is room for one more node and one more edge. -/
structure Graph.HasRoom (g : Graph N E) : Prop where
  /-- The room for nodes. -/
  nodes : g.nodes.HasRoom
  /-- The room for edges. -/
  edges : g.edges.HasRoom

/-- A roster that can grow has a slot left. -/
theorem Roster.Shows.hasRoom {slots : Nat} [NeZero slots] {ι κ δ : Type} {f : ι → κ}
    {graph : GraphId} {roster : Roster slots ι δ} {P : Population κ δ}
    (h : Shows f graph roster P) (hroom : roster.HasRoom) : P.HasRoom where
  slot := by
    have hlive := h.pool.live_le
    have hpos := roster.pool.capacity.pos
    have hmore := Nat.mul_lt_mul_of_pos_right hroom.chunk hpos
    rw [← h.live, h.limit]
    omega
  uid := h.next ▸ hroom.uid

namespace Graph

variable {g : Graph N E} {V : View N E}

/-! ### Creations -/

/-- A node is created, unless there is no room. -/
theorem Holds.newNode_cases (h : Holds g V) (data : N) :
    (∃ p g', newNode data g = .ok ⟨V.id, V.nodes.next, p⟩ g' ∧ V.nodes.body p = none ∧
      Holds g' (V.newNode p data)) ∨
    (¬ V.nodes.HasRoom ∧ ∃ e g', newNode data g = .error e g') := by
  rcases h.newNode_run data with hok | ⟨hrun, hover⟩ | ⟨g', hrun, hfull, -⟩
  · exact .inl hok
  · exact .inr ⟨fun hroom => absurd hover (Nat.not_le.2 hroom.uid), _, _, hrun⟩
  · exact .inr ⟨fun hroom => absurd hfull (Nat.ne_of_lt hroom.slot), _, _, hrun⟩

/-- An edge between live nodes is created, unless there is no room. -/
theorem Holds.newEdge_cases (h : Holds g V) {pred succ : NodeHandle} {a b : Body Unit N}
    (hpred : V.nodes.find? V.id pred = some a) (hsucc : V.nodes.find? V.id succ = some b)
    (data : E) :
    (∃ p g', newEdge pred succ data g = .ok ⟨V.id, V.edges.next, p⟩ g' ∧
      V.edges.body p = none ∧ Holds g' (V.newEdge p ⟨pred.slot, succ.slot⟩ data)) ∨
    (¬ V.edges.HasRoom ∧ ∃ e g', newEdge pred succ data g = .error e g') := by
  rcases h.newEdge_run hpred hsucc data with hok | ⟨hrun, hover⟩ | ⟨g', hrun, hfull, -⟩
  · exact .inl hok
  · exact .inr ⟨fun hroom => absurd hover (Nat.not_le.2 hroom.uid), _, _, hrun⟩
  · exact .inr ⟨fun hroom => absurd hfull (Nat.ne_of_lt hroom.slot), _, _, hrun⟩

/-- An edge is split, unless there is no room: it gets the new node as its end, and the new edge
leads on from there. -/
theorem Holds.insertNode_cases (h : Holds g V) {edge : EdgeHandle} {b : Body (DirPair Ptr) E}
    (hb : V.edges.find? V.id edge = some b) (nodeData : N) (edgeData : E) :
    (∃ p q g', insertNode edge nodeData edgeData g = .ok ⟨V.id, V.nodes.next, p⟩ g' ∧
      V.nodes.body p = none ∧ V.edges.body q = none ∧
      Holds g' (((V.newNode p nodeData).retarget edge.slot .down p).newEdge q
        ⟨p, b.incidence.get .down⟩ edgeData)) ∨
    (¬ (V.nodes.HasRoom ∧ V.edges.HasRoom) ∧
      ∃ e g', insertNode edge nodeData edgeData g = .error e g') := by
  obtain ⟨succ, c, hend, hc, hslot⟩ := h.exists_end hb .down
  rw [hslot]
  rcases h.newNode_cases nodeData with ⟨p, g₁, hrun₁, hfree, h₁⟩ | ⟨hroom, e, g₁, hrun₁⟩
  · let node : NodeHandle := ⟨V.id, V.nodes.next, p⟩
    have hnode : (V.newNode p nodeData).nodes.find? V.id node =
        some ⟨V.nodes.next, (), .clean, nodeData⟩ := Population.find?_add_self _
    have hsucc : (V.newNode p nodeData).nodes.find? V.id succ = some c :=
      Population.find?_add_of_find? _ hfree hc
    obtain ⟨g₂, hrun₂, h₂⟩ := h₁.setEnd_run hb hnode .down
    have hcases := h₂.newEdge_cases hnode hsucc edgeData
    rcases hcases with ⟨q, g₃, hrun₃, hfree₃, h₃⟩ | ⟨hroom, e, g₃, hrun₃⟩
    · refine .inl ⟨p, q, g₃, ?_, hfree, (View.body_setEnd_eq_none_iff _ _ _ q).1 hfree₃, h₃⟩
      simp [insertNode, hend, hrun₁, hrun₂, hrun₃, node]
    · refine .inr ⟨fun hboth => hroom ⟨hboth.2.slot, hboth.2.uid⟩, e, g₃, ?_⟩
      simp [insertNode, hend, hrun₁, hrun₂, hrun₃, node]
  · refine .inr ⟨fun hboth => hroom hboth.1, e, g₁, ?_⟩
    simp [insertNode, hend, hrun₁]

/-! ### With room -/

/-- As long as there is room, adding a node succeeds. -/
theorem Holds.newNode_ok (h : Holds g V) (hroom : V.nodes.HasRoom) (data : N) :
    ∃ p g', newNode data g = .ok ⟨V.id, V.nodes.next, p⟩ g' ∧ V.nodes.body p = none ∧
      Holds g' (V.newNode p data) :=
  (h.newNode_cases data).resolve_right fun hno => hno.1 hroom

/-- As long as there is room, adding an edge between two nodes succeeds. -/
theorem Holds.newEdge_ok (h : Holds g V) (hroom : V.edges.HasRoom) {pred succ : NodeHandle}
    {a b : Body Unit N} (hpred : V.nodes.find? V.id pred = some a)
    (hsucc : V.nodes.find? V.id succ = some b) (data : E) :
    ∃ p g', newEdge pred succ data g = .ok ⟨V.id, V.edges.next, p⟩ g' ∧
      V.edges.body p = none ∧ Holds g' (V.newEdge p ⟨pred.slot, succ.slot⟩ data) :=
  (h.newEdge_cases hpred hsucc data).resolve_right fun hno => hno.1 hroom

/-- As long as there is room, an edge is split: a node is added, the edge is retargeted to it, and
another edge leads on. -/
theorem Holds.insertNode_ok (h : Holds g V) (hnodes : V.nodes.HasRoom)
    (hedges : V.edges.HasRoom) {edge : EdgeHandle} {b : Body (DirPair Ptr) E}
    (hb : V.edges.find? V.id edge = some b) (nodeData : N) (edgeData : E) :
    ∃ p q g', insertNode edge nodeData edgeData g = .ok ⟨V.id, V.nodes.next, p⟩ g' ∧
      V.nodes.body p = none ∧ V.edges.body q = none ∧
      Holds g' (((V.newNode p nodeData).retarget edge.slot .down p).newEdge q
        ⟨p, b.incidence.get .down⟩ edgeData) :=
  (h.insertNode_cases hb nodeData edgeData).resolve_right fun hno => hno.1 ⟨hnodes, hedges⟩

end Graph

end SlabGraph
