import SlabGraph.Proofs.Graph.Incidence

/-!
# Changes of a Graph on its View

Each operation that changes a graph carries out one change of the view, or it fails. A failed
operation leaves the graph as it was, with one exception: a creation that finds the pool full
has used up an id.

Handles enter only at the beginning of an operation. What follows works on slots in which
something stands, and there the operations cannot fail.

## Main results

* `Graph.Holds`, a graph with a consistent view;
* `Graph.Holds.newNode_run`, `Graph.Holds.newEdge_run`;
* `Graph.Holds.deleteEdge_run`, `Graph.Holds.deleteNode_run`, `Graph.Holds.clear_run`,
  `Graph.Holds.close_run`;
* `Graph.Holds.setEnd_run`.
-/

namespace SlabGraph

namespace Graph

variable {N E : Type} {g : Graph N E} {V : View N E}

/-- A graph holds what a consistent view says. -/
structure Holds (g : Graph N E) (V : View N E) : Prop where
  /-- The graph shows the view. -/
  shown : Shows g V
  /-- The view is consistent. -/
  consistent : V.Consistent

/-! ### Adding -/

/-- A new node has no edges yet. -/
theorem Shows.addNode (h : Shows g V) (hc : V.Consistent) {p : Ptr} {data : N}
    {nodes : Roster 1 (DirPair (Packed Ptr)) N}
    (hnew : Roster.Created (fun _ => ()) g.id g.nodes V.nodes ⟨.empty, .empty⟩ data p nodes) :
    Shows { g with nodes } (V.newNode p data) := by
  refine ⟨h.id, hnew.shown, h.edges, fun n r hr dir => ?_, h.lists, h.apart, h.loose, h.markers,
    h.nums⟩
  have hbare := hnew.bare n
  by_cases hn : n = p
  · have hinc : (V.newNode p data).inc n dir = [] := hn ▸ hc.inc_of_free hnew.fresh dir
    rw [if_pos hn, show nodes.pool.get? n = some r from hr, Option.map_some,
      Option.some.injEq] at hbare
    have hempty : r.incidence = ⟨.empty, .empty⟩ := congrArg Record.incidence hbare
    rw [hinc, hempty]
    cases dir <;> simp [DirPair.get]
  · rw [if_neg hn] at hbare
    exact h.heads_of_bare hbare hr dir

/-- Adding a node answers its handle and adds it in a free slot. Otherwise the ids have run out and
nothing has changed, or the pool is full and an id is used up. -/
theorem Holds.newNode_run (h : Holds g V) (data : N) :
    (∃ p g', newNode data g = .ok ⟨V.id, V.nodes.next, p⟩ g' ∧ V.nodes.body p = none ∧
      Holds g' (V.newNode p data)) ∨
    (newNode data g = .error .overflow g ∧ uidLimit ≤ V.nodes.next + 1) ∨
    (∃ g', newNode data g = .error .tooManyChunks g' ∧
      V.nodes.members.length = V.nodes.limit ∧ Holds g' V.skipNode) := by
  obtain ⟨hs, hc⟩ := h
  have hcases := hs.nodes.create_run hc.nodes ⟨.empty, .empty⟩ data
  rcases hcases with ⟨p, nodes, hrun, hnew⟩ | ⟨hrun, hover⟩ | ⟨hrun, hfull⟩
  · left
    have hhandle : nodes.handle .node g.id p = .ok ⟨g.id, V.nodes.next, p⟩ :=
      hnew.shown.handle_run .node (Population.body_add_self _ _)
    refine ⟨p, { g with nodes }, ?_, hnew.fresh, hs.addNode hc hnew, hc.newNode data hnew.fresh⟩
    simp [newNode, onNodes, hrun, nodeHandle, hhandle, hs.id]
  · exact .inr (.inl ⟨by simp [newNode, onNodes, hrun], hover⟩)
  · right
    right
    refine ⟨{ g with nodes := { g.nodes with nextUid := V.nodes.next + 1 } }, ?_, hfull, ?_,
      hc.skipNode⟩
    · simp [newNode, onNodes, hrun]
    · exact ⟨hs.id, hs.nodes.skip, hs.edges, hs.heads, hs.lists, hs.apart, hs.loose, hs.markers,
        hs.nums⟩

/-- The record of a new edge is in no list yet. -/
theorem Shows.addEdge (h : Shows g V) (hc : V.Consistent) {p : Ptr} {ends : DirPair Ptr}
    {data : E} {edges : Roster 3 (DirPair Ptr) E}
    (hnew : Roster.Created (fun ends => ends) g.id g.edges V.edges ends data p edges) :
    Shows { g with edges } (V.addEdge p ends data) := by
  have hmap : ∀ dir q, Chain.linkMap edges.pool (incidenceIndex dir) q =
      if q = p then some (none, none) else Chain.linkMap g.edges.pool (incidenceIndex dir) q :=
    fun dir => hnew.other _ (incidenceIndex_ne_all dir)
  refine ⟨h.id, h.nodes, hnew.shown, h.heads, fun n dir => ?_, h.apart, fun e dir he hloose => ?_,
    h.markers, h.nums⟩
  · refine (h.lists n dir).of_eq_on fun q hq => ?_
    have hne : q ≠ p := fun heq => hc.not_mem_inc_of_free hnew.fresh n dir (heq ▸ hq)
    exact (hmap dir q).trans (if_neg hne)
  · change Chain.linkMap edges.pool (incidenceIndex dir) e = some (none, none)
    rw [hmap]
    by_cases hp : e = p
    · rw [if_pos hp]
    · rw [if_neg hp]
      change ((V.edges.add p _).body e).isSome = true at he
      rw [Population.body_add_of_ne _ hp] at he
      exact h.loose e dir he hloose

/-- Both ends of a new edge can be linked, and the edge is then in the view. -/
theorem Shows.linkEnds_run {p : Ptr} {ends : DirPair Ptr} {data : E}
    (h : Shows g (V.addEdge p ends data)) (hc : V.Consistent)
    (hp : V.edges.body p = none)
    (hends : ∀ dir, (V.nodes.body (ends.get dir)).isSome = true) :
    ∃ g', (forM Direction.all (linkEnd p) : Action (Graph N E) Unit) g = .ok () g' ∧
      Shows g' (V.newEdge p ends data) := by
  have hbody : (V.addEdge p ends data).edges.body p =
      some ⟨V.edges.next, ends, .clean, data⟩ := Population.body_add_self _ _
  have hnot : ∀ n dir, p ∉ V.inc n dir := hc.not_mem_inc_of_free hp
  obtain ⟨g₁, hrun₁, hs₁⟩ := h.linkEnd_run hbody (hends .up) fun m => hnot m .down
  obtain ⟨g₂, hrun₂, hs₂⟩ := hs₁.linkEnd_run hbody (hends .down) fun m => by
    simpa [View.link, View.setInc, View.addEdge, Direction.rev] using hnot m .up
  refine ⟨g₂, by simp [Direction.all, hrun₁, hrun₂], ?_⟩
  rw [View.newEdge_eq]
  exact hs₂

/-- Adding an edge between two nodes answers its handle and adds it in a free slot, on a list of
either node. Otherwise the ids have run out and nothing has changed, or the pool is full and an id
is used up. -/
theorem Holds.newEdge_run (h : Holds g V) {pred succ : NodeHandle} {a b : Body Unit N}
    (hpred : V.nodes.find? V.id pred = some a) (hsucc : V.nodes.find? V.id succ = some b)
    (data : E) :
    (∃ p g', newEdge pred succ data g = .ok ⟨V.id, V.edges.next, p⟩ g' ∧
      V.edges.body p = none ∧ Holds g' (V.newEdge p ⟨pred.slot, succ.slot⟩ data)) ∨
    (newEdge pred succ data g = .error .overflow g ∧ uidLimit ≤ V.edges.next + 1) ∨
    (∃ g', newEdge pred succ data g = .error .tooManyChunks g' ∧
      V.edges.members.length = V.edges.limit ∧ Holds g' V.skipEdge) := by
  obtain ⟨hs, hc⟩ := h
  rw [hs.id] at hpred hsucc ⊢
  have hends : ∀ dir, (V.nodes.body ((⟨pred.slot, succ.slot⟩ : DirPair Ptr).get dir)).isSome =
      true := by
    intro dir
    cases dir
    · exact Option.isSome_iff_exists.2 ⟨a, (Population.find?_eq_some_iff.1 hpred).1⟩
    · exact Option.isSome_iff_exists.2 ⟨b, (Population.find?_eq_some_iff.1 hsucc).1⟩
  have hup := hs.nodes.resolve_run hpred
  have hdown := hs.nodes.resolve_run hsucc
  have hcases := hs.edges.create_run hc.edges ⟨pred.slot, succ.slot⟩ data
  -- once the edge has a slot, linking its ends cannot fail
  rcases hcases with ⟨p, edges, hrun, hnew⟩ | ⟨hrun, hover⟩ | ⟨hrun, hfull⟩
  · left
    obtain ⟨g', hlink, hs'⟩ := (hs.addEdge hc hnew).linkEnds_run hc hnew.fresh hends
    have hbody : (V.newEdge p ⟨pred.slot, succ.slot⟩ data).edges.body p =
        some ⟨V.edges.next, ⟨pred.slot, succ.slot⟩, .clean, data⟩ :=
      Population.body_add_self _ _
    have hid : g'.id = g.id := hs'.id.symm.trans hs.id
    have hhandle : g'.edges.handle .edge g.id p = .ok ⟨g.id, V.edges.next, p⟩ :=
      hid ▸ hs'.edges.handle_run .edge hbody
    refine ⟨p, g', ?_, hnew.fresh, hs', hc.newEdge data hnew.fresh hends⟩
    simp [newEdge, hup, hdown, onEdges, hrun, hlink, edgeHandle, hid, hhandle]
  · exact .inr (.inl ⟨by simp [newEdge, hup, hdown, onEdges, hrun], hover⟩)
  · right
    right
    refine ⟨{ g with edges := { g.edges with nextUid := V.edges.next + 1 } }, ?_, hfull, ?_,
      hc.skipEdge⟩
    · simp [newEdge, hup, hdown, onEdges, hrun]
    · exact ⟨hs.id, hs.nodes, hs.edges.skip, hs.heads, hs.lists, hs.apart, hs.loose, hs.markers,
        hs.nums⟩

/-! ### Removing edges -/

/-- An edge that is in no list of a node leaves the list of all edges. -/
theorem Shows.remove_run (h : Shows g V) (hc : V.edges.Consistent) {e : Ptr}
    {b : Body (DirPair Ptr) E} (hb : V.edges.body e = some b)
    (hloose : ∀ n dir, e ∉ V.inc n dir) :
    ∃ r g', onEdges (Roster.remove e) g = .ok r g' ∧ r.body (fun ends => ends) = b ∧
      Shows g' { V with edges := V.edges.keep (· != e) } := by
  obtain ⟨r, edges, hrun, hbody, hrem⟩ := h.edges.remove_run hc hb
  have hmap : ∀ dir q, q ≠ e → Chain.linkMap edges.pool (incidenceIndex dir) q =
      Chain.linkMap g.edges.pool (incidenceIndex dir) q := fun dir q hq => by
    rw [hrem.other _ (incidenceIndex_ne_all dir), if_neg hq]
  refine ⟨r, { g with edges }, by simp [onEdges, hrun], hbody, ?_⟩
  refine ⟨h.id, h.nodes, hrem.shown, h.heads, fun n dir => ?_, h.apart,
    fun q dir hq hnot => ?_, h.markers, h.nums⟩
  · refine (h.lists n dir).of_eq_on fun q hq => hmap dir q ?_
    rintro rfl
    exact hloose n dir hq
  · have hne : q ≠ e := by
      rintro rfl
      simp [Population.body_keep] at hq
    rw [Population.body_keep, if_pos (by simpa using hne)] at hq
    exact (hmap dir q hne).trans (h.loose q dir hq hnot)

/-- Removing an edge answers its record, and takes it off all lists. -/
theorem Holds.removeEdge_run (h : Holds g V) {e : Ptr} {b : Body (DirPair Ptr) E}
    (hb : V.edges.body e = some b) :
    ∃ r g', removeEdge e g = .ok r g' ∧ r.body (fun ends => ends) = b ∧
      Holds g' (V.prune (· != e)) := by
  obtain ⟨hs, hc⟩ := h
  have hmem : ∀ dir, e ∈ V.inc (b.incidence.get dir) dir.rev := fun dir =>
    (hc.inc_iff _ _ e).2 ⟨b, hb, by simp⟩
  obtain ⟨g₁, hrun₁, hs₁⟩ := hs.unlinkEnd_run hb (hc.ends e b hb .up) (hmem .up)
  obtain ⟨g₂, hrun₂, hs₂⟩ := hs₁.unlinkEnd_run hb (hc.ends e b hb .down) (by
    simpa [View.unlink, View.setInc, Direction.rev] using hmem .down)
  have heq := hc.prune_eq hb
  have hloose : ∀ n dir, e ∉ ((V.unlink e .up (b.incidence.get .up)).unlink e .down
      (b.incidence.get .down)).inc n dir := by
    intro n dir hin
    have hpruned : e ∈ (V.prune (· != e)).inc n dir := by rwa [heq]
    simp [View.prune] at hpruned
  obtain ⟨r, g₃, hrun₃, hbody, hs₃⟩ := hs₂.remove_run hc.edges hb hloose
  refine ⟨r, g₃, ?_, hbody, ?_, hc.prune _⟩
  · simp [removeEdge, Direction.all, hrun₁, hrun₂, hrun₃]
  · rw [heq]
    exact hs₃

/-- The first edge on a list of a node. -/
theorem Shows.firstIncidentSlot_run (h : Shows g V) {n : Ptr} (dir : Direction)
    (hn : (V.nodes.body n).isSome = true) :
    g.firstIncidentSlot n dir = .ok (V.inc n dir).head? := by
  obtain ⟨r, hr⟩ := h.exists_node hn
  simp [firstIncidentSlot, Roster.record, Pool.read_of_get? hr, h.heads n r hr dir, pure,
    Except.pure]

/-- Removing the edges of a list one after another, the first one first. -/
theorem Holds.removeIncident_run (h : Holds g V) {n : Ptr} {dir : Direction} {fuel : Nat}
    (hn : (V.nodes.body n).isSome = true) (hfuel : (V.inc n dir).length ≤ fuel) :
    ∃ g', removeIncident n dir fuel g = .ok () g' ∧
      Holds g' (V.prune fun e => !(V.inc n dir).contains e) := by
  have hfirst := h.shown.firstIncidentSlot_run dir hn
  -- by induction on the bound, with the view without the first edge in the next round
  induction fuel generalizing g V with
  | zero =>
      have hnil : V.inc n dir = [] := List.length_eq_zero_iff.1 (by omega)
      refine ⟨g, by simp [removeIncident, hfirst, hnil], ?_⟩
      simpa [hnil, View.prune, Population.keep] using h
  | succ fuel ih =>
      cases hinc : V.inc n dir with
      | nil =>
          refine ⟨g, by simp [removeIncident, hfirst, hinc], ?_⟩
          simpa [View.prune, Population.keep] using h
      | cons e es =>
          have hmem : e ∈ V.inc n dir := hinc ▸ List.mem_cons_self
          obtain ⟨b, hb, -⟩ := h.consistent.body_of_mem_inc hmem
          obtain ⟨r₁, g₁, hrun₁, -, h₁⟩ := h.removeEdge_run hb
          have hnodup : (e :: es).Nodup := hinc ▸ h.shown.inc_nodup n dir
          have hrest : (V.prune (· != e)).inc n dir = es := by
            have hes : es.filter (· != e) = es := by
              refine List.filter_eq_self.2 fun q hq => ?_
              have hne : q ≠ e := fun heq => (List.nodup_cons.1 hnodup).1 (heq ▸ hq)
              simpa using hne
            simpa [View.prune, hinc] using hes
          have hfuel' : ((V.prune (· != e)).inc n dir).length ≤ fuel := by
            rw [hrest]
            rw [hinc, List.length_cons] at hfuel
            omega
          obtain ⟨g₂, hrun₂, h₂⟩ := ih h₁ hn hfuel' (h₁.shown.firstIncidentSlot_run dir hn)
          refine ⟨g₂, by simp [removeIncident, hfirst, hinc, hrun₁, hrun₂], ?_⟩
          rw [hrest, View.prune_prune] at h₂
          have hkeep : (fun q => q != e && !es.contains q) = fun q => !(e :: es).contains q := by
            funext q
            by_cases hq : q = e <;> simp [hq]
          rwa [hkeep] at h₂

/-- Deleting an edge answers its payload, and takes the edge off all lists. -/
theorem Holds.deleteEdge_run (h : Holds g V) {edge : EdgeHandle} {b : Body (DirPair Ptr) E}
    (hb : V.edges.find? V.id edge = some b) :
    ∃ g', deleteEdge edge g = .ok b.data g' ∧ Holds g' (V.prune (· != edge.slot)) := by
  obtain ⟨r, g', hrun, hbody, h'⟩ := h.removeEdge_run (Population.find?_eq_some_iff.1 hb).1
  have hdata : r.data = b.data := congrArg Body.data hbody
  rw [h.shown.id] at hb
  exact ⟨g', by simp [deleteEdge, h.shown.edges.resolve_run hb, hrun, hdata], h'⟩

/-! ### Removing nodes -/

/-- A node without edges leaves the list of all nodes. -/
theorem Shows.removeNode_run (h : Shows g V) (hc : V.nodes.Consistent) {n : Ptr}
    {b : Body Unit N} (hb : V.nodes.body n = some b) :
    ∃ r g', onNodes (Roster.remove n) g = .ok r g' ∧ r.body (fun _ => ()) = b ∧
      Shows g' { V with nodes := V.nodes.keep (· != n) } := by
  obtain ⟨r, nodes, hrun, hbody, hrem⟩ := h.nodes.remove_run hc hb
  refine ⟨r, { g with nodes }, by simp [onNodes, hrun], hbody, ?_⟩
  refine ⟨h.id, hrem.shown, h.edges, fun m s hs dir => ?_, h.lists, h.apart, h.loose, h.markers,
    h.nums⟩
  have hbare := hrem.bare m
  by_cases hm : m = n
  · rw [if_pos hm, Option.map_eq_none_iff] at hbare
    exact absurd (hs.symm.trans hbare) (by simp)
  · rw [if_neg hm] at hbare
    exact h.heads_of_bare hbare hs dir

/-- A list of a node holds no more edges than there are. -/
theorem Holds.length_inc_le (h : Holds g V) (n : Ptr) (dir : Direction) :
    (V.inc n dir).length ≤ g.edges.count := by
  rw [h.shown.edges.count]
  refine (List.subperm_of_subset (h.shown.inc_nodup n dir) fun e he => ?_).length_le
  obtain ⟨b, hb, -⟩ := h.consistent.body_of_mem_inc he
  exact h.consistent.edges.mem_of_body hb

/-- Deleting a node answers its payload. The node leaves, and with it all edges it is an end of. -/
theorem Holds.deleteNode_run (h : Holds g V) {node : NodeHandle} {b : Body Unit N}
    (hb : V.nodes.find? V.id node = some b) :
    ∃ g', deleteNode node g = .ok b.data g' ∧ Holds g' (V.removeNode node.slot) := by
  have hbody := (Population.find?_eq_some_iff.1 hb).1
  have hlive : (V.nodes.body node.slot).isSome = true := by simp [hbody]
  obtain ⟨g₁, hrun₁, h₁⟩ := h.removeIncident_run hlive (h.length_inc_le node.slot .down)
  obtain ⟨g₂, hrun₂, h₂⟩ := h₁.removeIncident_run (n := node.slot) hlive
    (h₁.length_inc_le node.slot .up)
  obtain ⟨r, g₃, hrun₃, hr, h₃⟩ := h₂.shown.removeNode_run h₂.consistent.nodes hbody
  have hdata : r.data = b.data := congrArg Body.data hr
  -- the incoming edges that are left are those that are not outgoing as well
  have hkeep : (fun e => !(V.inc node.slot .down).contains e &&
        !((V.prune fun e => !(V.inc node.slot .down).contains e).inc node.slot .up).contains e) =
      fun e => !(V.inc node.slot .down).contains e && !(V.inc node.slot .up).contains e := by
    funext e
    cases hdown : (V.inc node.slot .down).contains e <;> simp_all [View.prune]
  rw [View.prune_prune, hkeep] at h₃
  rw [h.shown.id] at hb
  refine ⟨g₃, ?_, h₃, h.consistent.removeNode _⟩
  simp [deleteNode, h.shown.nodes.resolve_run hb, hrun₁, hrun₂, hrun₃, hdata]

/-- Clearing a graph succeeds and leaves it empty. -/
theorem Holds.clear_run (h : Holds g V) :
    ∃ g', clear g = .ok () g' ∧ Holds g' V.clear := by
  obtain ⟨hs, hc⟩ := h
  obtain ⟨edges, hrunE, hedges, -⟩ := hs.edges.clear_run
  obtain ⟨nodes, hrunN, hnodes, hempty⟩ := hs.nodes.clear_run
  refine ⟨{ g with nodes, edges }, by simp [clear, onEdges, onNodes, hrunE, hrunN], ?_, hc.clear⟩
  have hinc : ∀ n dir, V.clear.inc n dir = [] := fun n dir => by simp [View.clear, View.prune]
  refine ⟨hs.id, hnodes, hedges, fun n r hr => ?_, fun n dir => ?_, fun dir n m _ => ?_,
    fun e dir he => ?_, hs.markers, hs.nums⟩
  · exact absurd (hr.symm.trans (hempty n)) (by simp)
  · rw [hinc]
    exact LinkMap.isList_nil _
  · rw [hinc]
    exact List.disjoint_nil_left _
  · simp [View.clear, View.prune, Population.body_keep] at he

/-- A graph is given up without a fault, since its pools are empty by then. -/
theorem Holds.close_run (h : Holds g V) (failing : Bool) :
    ∃ g', close failing g = .ok () g' ∧ Holds g' V.clear := by
  obtain ⟨g', hrun, h'⟩ := h.clear_run
  have hnodes : g'.nodes.pool.live = 0 := by
    rw [h'.shown.nodes.live]
    simp [View.clear, Population.keep]
  have hedges : g'.edges.pool.live = 0 := by
    rw [h'.shown.edges.live]
    simp [View.clear, View.prune, Population.keep]
  exact ⟨g', by simp [close, hrun, Pool.close, hnodes, hedges], h'⟩

/-! ### Retargeting -/

/-- Retargeting an end of an edge to a node succeeds, and moves the edge to the front of a list
there. -/
theorem Holds.setEnd_run (h : Holds g V) {edge : EdgeHandle} {node : NodeHandle}
    {b : Body (DirPair Ptr) E} {c : Body Unit N} (hb : V.edges.find? V.id edge = some b)
    (hc : V.nodes.find? V.id node = some c) (dir : Direction) :
    ∃ g', setEnd edge dir node g = .ok () g' ∧
      Holds g' (V.retarget edge.slot dir node.slot) := by
  obtain ⟨hs, hcons⟩ := h
  have hbody := (Population.find?_eq_some_iff.1 hb).1
  have hnode : (V.nodes.body node.slot).isSome = true := by
    simp [(Population.find?_eq_some_iff.1 hc).1]
  have hmem : edge.slot ∈ V.inc (b.incidence.get dir) dir.rev :=
    (hcons.inc_iff _ _ _).2 ⟨b, hbody, by simp⟩
  obtain ⟨g₁, hrun₁, hs₁⟩ := hs.unlinkEnd_run hbody (hcons.ends _ b hbody dir) hmem
  have hlive₁ : ((V.unlink edge.slot dir (b.incidence.get dir)).edges.body edge.slot).isSome =
      true := by
    simp [hbody]
  obtain ⟨g₂, hrun₂, hs₂⟩ := hs₁.setIncidence_run hlive₁ dir node.slot
  have hbody₂ : ((V.unlink edge.slot dir (b.incidence.get dir)).setEnd edge.slot dir
      node.slot).edges.body edge.slot =
        some { b with incidence := b.incidence.set dir node.slot } := by
    simp [View.body_setEnd_self, hbody]
  have hloose : ∀ m, edge.slot ∉ (V.unlink edge.slot dir (b.incidence.get dir)).inc m dir.rev := by
    intro m hin
    by_cases hm : m = b.incidence.get dir
    · simp [View.unlink, View.setInc, hm] at hin
    · simp only [View.unlink, View.setInc, hm, false_and, if_false] at hin
      exact hm (hcons.eq_of_mem_inc hin hmem)
  obtain ⟨g₃, hrun₃, hs₃⟩ := hs₂.linkEnd_run hbody₂ (by simpa using hnode) hloose
  refine ⟨g₃, ?_, ?_, hcons.retarget (by simp [hbody]) hnode⟩
  · rw [hs.id] at hb hc
    simp [setEnd, hs.edges.resolve_run hb, hs.nodes.resolve_run hc, hrun₁, hrun₂, hrun₃]
  · rw [hcons.retarget_eq hbody]
    simpa using hs₃

/-- The node at an end of an edge. -/
theorem Holds.edgeEnd_run (h : Holds g V) {edge : EdgeHandle} {b : Body (DirPair Ptr) E}
    (hb : V.edges.find? V.id edge = some b) (dir : Direction) :
    ∃ c, V.nodes.body (b.incidence.get dir) = some c ∧
      g.edgeEnd edge dir = .ok ⟨V.id, c.uid, b.incidence.get dir⟩ := by
  have hlive := h.consistent.ends _ b (Population.find?_eq_some_iff.1 hb).1 dir
  obtain ⟨c, hc⟩ := Option.isSome_iff_exists.1 hlive
  rw [h.shown.id] at hb ⊢
  obtain ⟨r, hrun, -, hbody⟩ := h.shown.edges.lookup_run hb
  have hends : r.incidence = b.incidence := congrArg Body.incidence hbody
  have hhandle := h.shown.nodes.handle_run .node hc
  exact ⟨c, hc, by simp [edgeEnd, Graph.edge, hrun, hends, nodeHandle, hhandle]⟩

/-- The end of an edge can be read, and is a node that its handle finds. -/
theorem Holds.exists_end (h : Holds g V) {edge : EdgeHandle} {b : Body (DirPair Ptr) E}
    (hb : V.edges.find? V.id edge = some b) (dir : Direction) :
    ∃ (node : NodeHandle) (c : Body Unit N), g.edgeEnd edge dir = .ok node ∧
      V.nodes.find? V.id node = some c ∧ b.incidence.get dir = node.slot := by
  obtain ⟨c, hc, hrun⟩ := h.edgeEnd_run hb dir
  exact ⟨_, c, hrun, Population.find?_eq_some_iff.2 ⟨hc, rfl⟩, rfl⟩

/-! ### Payloads -/

/-- Writing the payload of a node answers the old one, and changes nothing else. -/
theorem Holds.updateNode_run (h : Holds g V) {node : NodeHandle} {b : Body Unit N}
    (hb : V.nodes.find? V.id node = some b) (f : N → N) :
    ∃ g', updateNode node f g = .ok b.data g' ∧
      Holds g' (V.writeNode node.slot fun b => { b with data := f b.data }) := by
  rw [h.shown.id] at hb
  obtain ⟨r, hrun, hr, rfl⟩ := h.shown.nodes.lookup_run hb
  let s : NodeRecord N := { r with data := f r.data }
  refine ⟨{ g with nodes := g.nodes.setRecord node.slot s }, ?_,
    h.shown.writeNode hr rfl rfl rfl rfl, h.consistent.writeNode _ fun _ => rfl⟩
  simp [updateNode, Graph.node, hrun, Record.body, s]

/-- Writing the payload of an edge answers the old one, and changes nothing else. -/
theorem Holds.updateEdge_run (h : Holds g V) {edge : EdgeHandle} {b : Body (DirPair Ptr) E}
    (hb : V.edges.find? V.id edge = some b) (f : E → E) :
    ∃ g', updateEdge edge f g = .ok b.data g' ∧
      Holds g' (V.writeEdge edge.slot fun b => { b with data := f b.data }) := by
  rw [h.shown.id] at hb
  obtain ⟨r, hrun, hr, rfl⟩ := h.shown.edges.lookup_run hb
  let s : EdgeRecord E := { r with data := f r.data }
  refine ⟨{ g with edges := g.edges.setRecord edge.slot s }, ?_,
    h.shown.writeEdge hr rfl rfl rfl, h.consistent.writeEdge _ (fun _ => rfl) fun _ => rfl⟩
  simp [updateEdge, Graph.edge, hrun, Record.body, s]

/-! ### Refusals -/

/-- Whether a handle names a live node, read off the view. -/
theorem Holds.containsNode_eq (h : Holds g V) (node : NodeHandle) :
    g.containsNode node = (V.nodes.find? V.id node).isSome := by
  rw [h.shown.id]
  exact h.shown.nodes.isSome_find? node

/-- Whether a handle names a live edge, read off the view. -/
theorem Holds.containsEdge_eq (h : Holds g V) (edge : EdgeHandle) :
    g.containsEdge edge = (V.edges.find? V.id edge).isSome := by
  rw [h.shown.id]
  exact h.shown.edges.isSome_find? edge

section

variable (h : Holds g V) {node : NodeHandle} {edge : EdgeHandle}

include h

/-- The handle of a node that finds nothing leads to no slot, and the fault says why. -/
theorem Holds.resolveNode_refused (hnone : V.nodes.find? V.id node = none) :
    g.nodes.resolve g.id node = .error (node.refusal g.id) :=
  h.shown.nodes.resolve_refused (h.shown.id ▸ hnone)

/-- The handle of an edge that finds nothing leads to no slot, and the fault says why. -/
theorem Holds.resolveEdge_refused (hnone : V.edges.find? V.id edge = none) :
    g.edges.resolve g.id edge = .error (edge.refusal g.id) :=
  h.shown.edges.resolve_refused (h.shown.id ▸ hnone)

/-- The handle of a node that finds nothing leads to no record, and the fault says why. -/
theorem Holds.node_refused (hnone : V.nodes.find? V.id node = none) :
    g.node node = .error (node.refusal g.id) :=
  h.shown.nodes.lookup_refused (h.shown.id ▸ hnone)

/-- The handle of an edge that finds nothing leads to no record, and the fault says why. -/
theorem Holds.edge_refused (hnone : V.edges.find? V.id edge = none) :
    g.edge edge = .error (edge.refusal g.id) :=
  h.shown.edges.lookup_refused (h.shown.id ▸ hnone)

/-- The handle of a node of the graph leads to its slot. -/
theorem Holds.resolveNode_run {b : Body Unit N} (hb : V.nodes.find? V.id node = some b) :
    g.nodes.resolve g.id node = .ok node.slot :=
  h.shown.nodes.resolve_run (h.shown.id ▸ hb)

/-- The handle of an edge of the graph leads to its slot. -/
theorem Holds.resolveEdge_run {b : Body (DirPair Ptr) E}
    (hb : V.edges.find? V.id edge = some b) : g.edges.resolve g.id edge = .ok edge.slot :=
  h.shown.edges.resolve_run (h.shown.id ▸ hb)

/-- An edge between handles of which one finds nothing is refused, and nothing changes. -/
theorem Holds.newEdge_refused {succ : NodeHandle} (data : E)
    (hnone : V.nodes.find? V.id node = none ∨ V.nodes.find? V.id succ = none) :
    ∃ e, newEdge node succ data g = .error e g := by
  rcases hnone with hnode | hsucc
  · exact ⟨node.refusal g.id, by simp [newEdge, h.resolveNode_refused hnode]⟩
  · cases hnode : g.nodes.resolve g.id node with
    | ok p => exact ⟨succ.refusal g.id, by simp [newEdge, hnode, h.resolveNode_refused hsucc]⟩
    | error e => exact ⟨e, by simp [newEdge, hnode]⟩

/-- Retargeting is refused if the edge or the node is not found, and nothing changes. -/
theorem Holds.setEnd_refused (dir : Direction)
    (hnone : V.edges.find? V.id edge = none ∨ V.nodes.find? V.id node = none) :
    ∃ e, setEnd edge dir node g = .error e g := by
  rcases hnone with hedge | hnode
  · exact ⟨edge.refusal g.id, by simp [setEnd, h.resolveEdge_refused hedge]⟩
  · cases hedge : g.edges.resolve g.id edge with
    | ok p => exact ⟨node.refusal g.id, by simp [setEnd, hedge, h.resolveNode_refused hnode]⟩
    | error e => exact ⟨e, by simp [setEnd, hedge]⟩

/-- Deleting a node that is not found is refused, and nothing changes. -/
theorem Holds.deleteNode_refused (hnone : V.nodes.find? V.id node = none) :
    ∃ e, deleteNode node g = .error e g := by
  exact ⟨node.refusal g.id, by simp [deleteNode, h.resolveNode_refused hnone]⟩

/-- Deleting an edge that is not found is refused, and nothing changes. -/
theorem Holds.deleteEdge_refused (hnone : V.edges.find? V.id edge = none) :
    ∃ e, deleteEdge edge g = .error e g := by
  exact ⟨edge.refusal g.id, by simp [deleteEdge, h.resolveEdge_refused hnone]⟩

/-- Writing to a node that is not found is refused, and nothing changes. -/
theorem Holds.updateNode_refused (f : N → N) (hnone : V.nodes.find? V.id node = none) :
    ∃ e, updateNode node f g = .error e g := by
  exact ⟨node.refusal g.id, by simp [updateNode, h.node_refused hnone]⟩

/-- Writing to an edge that is not found is refused, and nothing changes. -/
theorem Holds.updateEdge_refused (f : E → E) (hnone : V.edges.find? V.id edge = none) :
    ∃ e, updateEdge edge f g = .error e g := by
  exact ⟨edge.refusal g.id, by simp [updateEdge, h.edge_refused hnone]⟩

/-- The end of an edge that is not found cannot be read. -/
theorem Holds.edgeEnd_refused (dir : Direction) (hnone : V.edges.find? V.id edge = none) :
    ∃ e, g.edgeEnd edge dir = .error e := by
  exact ⟨edge.refusal g.id, by simp [edgeEnd, h.edge_refused hnone]⟩

end

end Graph

end SlabGraph
