import SlabGraph.Graph.Edit
import SlabGraph.Proofs.Graph.Roster
import SlabGraph.Proofs.Graph.View

/-!
# What a Graph Shows

`Graph.Shows g V` relates a graph to its view. The rosters show the nodes and the edges, the
lists of each node are linked in the slots of their directions with the heads that the node
keeps, and no two lists of one direction share an edge.

The relation does not ask that the view be consistent. Between the steps of an operation an
edge may be in no list of a node, or name an end that it is not linked at. For such an edge
the relation says that its links of that slot are empty (`Shows.loose`), which is all that
linking it asks for.

## Main results

* `Graph.Shows.linkEnd_run`, `Graph.Shows.unlinkEnd_run`;
* `Graph.Shows.setIncidence_run`.
-/

namespace SlabGraph

namespace Graph

variable {N E : Type} {g : Graph N E} {V : View N E}

/-- A graph holds what a view says. -/
structure Shows (g : Graph N E) (V : View N E) : Prop where
  /-- The number of the graph. -/
  id : V.id = g.id
  /-- The nodes. -/
  nodes : g.nodes.Shows (fun _ => ()) g.id V.nodes
  /-- The edges. -/
  edges : g.edges.Shows (fun ends => ends) g.id V.edges
  /-- The heads of the edge lists. -/
  heads : ∀ n r, g.nodes.pool.get? n = some r → ∀ dir,
    (r.incidence.get dir).unpack = (V.inc n dir).head?
  /-- The edge lists. -/
  lists : ∀ n dir,
    LinkMap.IsList (Chain.linkMap g.edges.pool (incidenceIndex dir)) (V.inc n dir)
  /-- The edge lists of one direction have no edge in common. -/
  apart : ∀ dir n m, n ≠ m → (V.inc n dir).Disjoint (V.inc m dir)
  /-- The edges that are in no list of a direction. -/
  loose : ∀ e dir, (V.edges.body e).isSome = true → (∀ n, e ∉ V.inc n dir) →
    Chain.linkMap g.edges.pool (incidenceIndex dir) e = some (none, none)
  /-- The ledger of the markers. -/
  markers : V.markers = g.markers
  /-- The ledger of the numerations. -/
  nums : V.nums = g.nums

namespace Shows

/-- A slot in which a node stands has a live record. -/
theorem exists_node (h : Shows g V) {n : Ptr} (hn : (V.nodes.body n).isSome = true) :
    ∃ r, g.nodes.pool.get? n = some r := by
  rw [h.nodes.isSome_body] at hn
  exact Option.isSome_iff_exists.1 hn

/-- A slot in which an edge stands has a live record with the same ends. -/
theorem exists_edge (h : Shows g V) {e : Ptr} {b : Body (DirPair Ptr) E}
    (hb : V.edges.body e = some b) :
    ∃ r, g.edges.pool.get? e = some r ∧ r.incidence = b.incidence := by
  obtain ⟨r, hr, hbody⟩ := h.edges.exists_record hb
  exact ⟨r, hr, congrArg Body.incidence hbody⟩

/-- A node that was there before, apart from its links, keeps its heads. -/
theorem heads_of_bare (h : Shows g V) {o : Option (NodeRecord N)} {n : Ptr} {r : NodeRecord N}
    (hbare : o.map Record.bare = (g.nodes.pool.get? n).map Record.bare) (hr : o = some r)
    (dir : Direction) : (r.incidence.get dir).unpack = (V.inc n dir).head? := by
  have hsame := Record.map_of_bare (g := Record.incidence) (fun _ => rfl) hbare
  rw [hr, Option.map_some] at hsame
  obtain ⟨r', hr', heq⟩ := Option.map_eq_some_iff.1 hsame.symm
  rw [← heq]
  exact h.heads n r' hr' dir

/-- No edge is on a list of a node twice. -/
theorem inc_nodup (h : Shows g V) (n : Ptr) (dir : Direction) : (V.inc n dir).Nodup :=
  (h.lists n dir).nodup

/-! ### An edited list -/

section

variable {n : Ptr} {dir : Direction} {ys : List Ptr} {pool : Pool (EdgeRecord E)}

/-- Editing a list of one direction leaves those of the other alone. -/
theorem linkMap_of_edited {s t : Pool (EdgeRecord E)} {xs : List Ptr}
    (hedit : Chain.Edited (incidenceIndex dir) s xs ys t) {d : Direction} (hd : d ≠ dir) :
    Chain.linkMap t (incidenceIndex d) = Chain.linkMap s (incidenceIndex d) :=
  hedit.other _ fun heq => hd (incidenceIndex_inj.1 heq)

/-- The node whose list was edited keeps the new head. -/
theorem heads_setInc (h : Shows g V) {r : NodeRecord N} (hr : g.nodes.pool.get? n = some r)
    {head : Packed Ptr} (hhead : head.unpack = ys.head?) (m : Ptr) (s : NodeRecord N)
    (hs : (g.nodes.setRecord n { r with
      incidence := r.incidence.set dir head }).pool.get? m = some s) (d : Direction) :
    (s.incidence.get d).unpack = ((V.setInc n dir ys).inc m d).head? := by
  by_cases hm : m = n
  · subst hm
    obtain rfl := Option.some.inj ((Pool.get?_replace_self hr).symm.trans hs)
    by_cases hd : d = dir
    · subst hd
      rw [View.inc_setInc_self, ← hhead, DirPair.get_set_self]
    · rw [View.inc_setInc_of_ne _ (by simp [hd]), DirPair.get_set_of_ne _ _ (Ne.symm hd)]
      exact h.heads m r hr d
  · rw [View.inc_setInc_of_ne _ (by simp [hm])]
    exact h.heads m s ((Pool.get?_replace_of_ne _ hm).symm.trans hs) d

/-- The lists are linked after one of them was edited. -/
theorem lists_setInc (h : Shows g V)
    (hedit : Chain.Edited (incidenceIndex dir) g.edges.pool (V.inc n dir) ys pool)
    (hapart : ∀ m, m ≠ n → ys.Disjoint (V.inc m dir)) (m : Ptr) (d : Direction) :
    LinkMap.IsList (Chain.linkMap pool (incidenceIndex d)) ((V.setInc n dir ys).inc m d) := by
  by_cases hsame : m = n ∧ d = dir
  · obtain ⟨rfl, rfl⟩ := hsame
    rw [View.inc_setInc_self]
    exact hedit.list
  · rw [View.inc_setInc_of_ne _ hsame]
    refine (h.lists m d).of_eq_on fun q hq => ?_
    by_cases hd : d = dir
    · subst hd
      have hm : m ≠ n := fun heq => hsame ⟨heq, rfl⟩
      exact hedit.outside q (fun hqn => h.apart d m n hm hq hqn) fun hqy => hapart m hm hqy hq
    · exact congrFun (linkMap_of_edited hedit hd) q

/-- The lists have no edge in common after one of them was edited. -/
theorem apart_setInc (h : Shows g V) (hapart : ∀ m, m ≠ n → ys.Disjoint (V.inc m dir))
    (d : Direction) (m m' : Ptr) (hne : m ≠ m') :
    ((V.setInc n dir ys).inc m d).Disjoint ((V.setInc n dir ys).inc m' d) := by
  by_cases hm : m = n ∧ d = dir
  · obtain ⟨rfl, rfl⟩ := hm
    rw [View.inc_setInc_self, View.inc_setInc_of_ne _ fun hm' => hne hm'.1.symm]
    exact hapart m' (Ne.symm hne)
  · rw [View.inc_setInc_of_ne _ hm]
    by_cases hm' : m' = n ∧ d = dir
    · obtain ⟨rfl, rfl⟩ := hm'
      rw [View.inc_setInc_self]
      exact List.disjoint_symm (hapart m hne)
    · rw [View.inc_setInc_of_ne _ hm']
      exact h.apart d m m' hne

/-- An edge that is in no list after one of them was edited has no links. -/
theorem loose_setInc (h : Shows g V)
    (hedit : Chain.Edited (incidenceIndex dir) g.edges.pool (V.inc n dir) ys pool)
    (hleft : ∀ q ∈ V.inc n dir, q ∉ ys →
      Chain.linkMap pool (incidenceIndex dir) q = some (none, none))
    (e : Ptr) (d : Direction) (he : (V.edges.body e).isSome = true)
    (hloose : ∀ m, e ∉ (V.setInc n dir ys).inc m d) :
    Chain.linkMap pool (incidenceIndex d) e = some (none, none) := by
  have hout : ∀ m, ¬ (m = n ∧ d = dir) → e ∉ V.inc m d := fun m hm => by
    have hm' := hloose m
    rwa [View.inc_setInc_of_ne _ hm] at hm'
  by_cases hd : d = dir
  · subst hd
    have hys : e ∉ ys := by
      have hn := hloose n
      rwa [View.inc_setInc_self] at hn
    by_cases hold : e ∈ V.inc n d
    · exact hleft e hold hys
    · rw [hedit.outside e hold hys]
      refine h.loose e d he fun m => ?_
      by_cases hm : m = n
      · exact hm ▸ hold
      · exact hout m fun hbad => hm hbad.1
  · rw [linkMap_of_edited hedit hd]
    exact h.loose e d he fun m => hout m fun hbad => hd hbad.2

/-- A list of a node was edited, and the node keeps the new head. -/
theorem setHead_run (h : Shows g V) {head : Packed Ptr} (hn : (V.nodes.body n).isSome = true)
    (hedit : Chain.Edited (incidenceIndex dir) g.edges.pool (V.inc n dir) ys pool)
    (hhead : head.unpack = ys.head?)
    (hapart : ∀ m, m ≠ n → ys.Disjoint (V.inc m dir))
    (hleft : ∀ q ∈ V.inc n dir, q ∉ ys →
      Chain.linkMap pool (incidenceIndex dir) q = some (none, none)) :
    ∃ g', setHead n dir head { g with edges := { g.edges with pool } } = .ok () g' ∧
      Shows g' (V.setInc n dir ys) := by
  obtain ⟨r, hr⟩ := h.exists_node hn
  let r' : NodeRecord N := { r with incidence := r.incidence.set dir head }
  have hnodes := h.nodes.setRecord (s := r') (k := fun b => b) hr rfl rfl rfl
  rw [Population.write_id] at hnodes
  have hedges := h.edges.of_relinked hedit.relinked
    (hedit.other _ (incidenceIndex_ne_all dir).symm)
  refine ⟨{ g with nodes := g.nodes.setRecord n r', edges := { g.edges with pool } }, ?_,
    h.id, hnodes, hedges, h.heads_setInc hr hhead, h.lists_setInc hedit hapart,
    h.apart_setInc hapart, h.loose_setInc hedit hleft, h.markers, h.nums⟩
  simp [setHead, Roster.record, Pool.read_of_get? hr, r']

end

/-! ### Ends of an edge -/

/-- Linking an edge that is in no list puts it in front of the list at its end. -/
theorem linkEnd_run (h : Shows g V) {e : Ptr} {b : Body (DirPair Ptr) E} {dir : Direction}
    (hb : V.edges.body e = some b)
    (hn : (V.nodes.body (b.incidence.get dir)).isSome = true)
    (hloose : ∀ m, e ∉ V.inc m dir.rev) :
    ∃ g', linkEnd e dir g = .ok () g' ∧
      Shows g' (V.link e dir (b.incidence.get dir)) := by
  obtain ⟨r, hr, hends⟩ := h.exists_edge hb
  obtain ⟨s, hs⟩ := h.exists_node hn
  obtain ⟨head, pool, hrun, hhead, hedit⟩ := Chain.pushFront_run (h.lists _ dir.rev)
    (h.heads _ s hs dir.rev) (h.loose e dir.rev (by simp [hb]) hloose) (hloose _)
  have hrun' : Chain.pushFront e (incidenceSlot dir.rev) (s.incidence.get dir.rev) g.edges.pool =
      .ok head pool := hrun
  have hapart : ∀ m, m ≠ b.incidence.get dir →
      (e :: V.inc (b.incidence.get dir) dir.rev).Disjoint (V.inc m dir.rev) := by
    intro m hm q hq hqm
    rcases List.mem_cons.1 hq with rfl | hq'
    · exact hloose m hqm
    · exact h.apart dir.rev m _ hm hqm hq'
  obtain ⟨g', hset, hshows⟩ := h.setHead_run hn hedit hhead hapart
    fun q hq hqe => absurd (List.mem_cons_of_mem e hq) hqe
  refine ⟨g', ?_, hshows⟩
  simp [linkEnd, Roster.record, Pool.read_of_get? hr, hends, Pool.read_of_get? hs, onEdges,
    Roster.onPool, hrun', hset]

/-- Unlinking an edge takes it off the list at its end. -/
theorem unlinkEnd_run (h : Shows g V) {e : Ptr} {b : Body (DirPair Ptr) E} {dir : Direction}
    (hb : V.edges.body e = some b)
    (hn : (V.nodes.body (b.incidence.get dir)).isSome = true)
    (hmem : e ∈ V.inc (b.incidence.get dir) dir.rev) :
    ∃ g', unlinkEnd e dir g = .ok () g' ∧
      Shows g' (V.unlink e dir (b.incidence.get dir)) := by
  obtain ⟨r, hr, hends⟩ := h.exists_edge hb
  obtain ⟨s, hs⟩ := h.exists_node hn
  obtain ⟨head, pool, hrun, hhead, hself, hedit⟩ := Chain.unlink_run (h.lists _ dir.rev)
    (h.heads _ s hs dir.rev) hmem
  rw [(h.inc_nodup _ _).erase_eq_filter] at hhead hedit
  have hrun' : Chain.unlink e (incidenceSlot dir.rev) (s.incidence.get dir.rev) g.edges.pool =
      .ok head pool := hrun
  have hapart : ∀ m, m ≠ b.incidence.get dir →
      ((V.inc (b.incidence.get dir) dir.rev).filter (· != e)).Disjoint (V.inc m dir.rev) :=
    fun m hm q hq hqm => h.apart dir.rev m _ hm hqm (List.mem_filter.1 hq).1
  have hleft : ∀ q ∈ V.inc (b.incidence.get dir) dir.rev,
      q ∉ (V.inc (b.incidence.get dir) dir.rev).filter (· != e) →
        Chain.linkMap pool (incidenceIndex dir.rev) q = some (none, none) := by
    intro q hq hqe
    obtain rfl : q = e := by
      by_contra hne
      exact hqe (List.mem_filter.2 ⟨hq, by simpa using hne⟩)
    exact hself
  obtain ⟨g', hset, hshows⟩ := h.setHead_run hn hedit hhead hapart hleft
  refine ⟨g', ?_, hshows⟩
  simp [unlinkEnd, Roster.record, Pool.read_of_get? hr, hends, Pool.read_of_get? hs, onEdges,
    Roster.onPool, hrun', hset]

/-- A record that is written with the links it had alters the body of its edge. -/
theorem writeEdge (h : Shows g V) {e : Ptr} {r s : EdgeRecord E}
    {k : Body (DirPair Ptr) E → Body (DirPair Ptr) E} (hr : g.edges.pool.get? e = some r)
    (hlinks : s.links = r.links) (hgraph : s.graph = r.graph)
    (hbody : s.body (fun ends => ends) = k (r.body fun ends => ends)) :
    Shows { g with edges := g.edges.setRecord e s } (V.writeEdge e k) := by
  have hmap : ∀ slot, Chain.linkMap (g.edges.setRecord e s).pool slot =
      Chain.linkMap g.edges.pool slot := Roster.linkMap_setRecord hr hlinks
  refine ⟨h.id, h.nodes, h.edges.setRecord hr hlinks hgraph hbody, h.heads, fun n d => ?_,
    h.apart, fun q d hq hloose => ?_, h.markers, h.nums⟩
  · exact (h.lists n d).of_eq_on fun q _ => congrFun (hmap _) q
  · rw [View.writeEdge, Population.isSome_body_write] at hq
    exact (congrFun (hmap _) q).trans (h.loose q d hq hloose)

/-- Writing the record of a node, links and heads apart. -/
theorem writeNode (h : Shows g V) {n : Ptr} {r s : NodeRecord N}
    {k : Body Unit N → Body Unit N} (hr : g.nodes.pool.get? n = some r)
    (hlinks : s.links = r.links) (hgraph : s.graph = r.graph)
    (hheads : s.incidence = r.incidence)
    (hbody : s.body (fun _ => ()) = k (r.body fun _ => ())) :
    Shows { g with nodes := g.nodes.setRecord n s } (V.writeNode n k) := by
  refine ⟨h.id, h.nodes.setRecord hr hlinks hgraph hbody, h.edges, fun m t ht d => ?_, h.lists,
    h.apart, h.loose, h.markers, h.nums⟩
  by_cases hm : m = n
  · subst hm
    obtain rfl : s = t := Option.some.inj ((Pool.get?_replace_self hr).symm.trans ht)
    rw [hheads]
    exact h.heads m r hr d
  · exact h.heads m t ((Pool.get?_replace_of_ne _ hm).symm.trans ht) d

/-- Replacing an end in the record of an edge leaves all lists as they are. -/
theorem setIncidence_run (h : Shows g V) {e : Ptr} (he : (V.edges.body e).isSome = true)
    (dir : Direction) (m : Ptr) :
    ∃ g', setIncidence e dir m g = .ok () g' ∧ Shows g' (V.setEnd e dir m) := by
  obtain ⟨b, hb⟩ := Option.isSome_iff_exists.1 he
  obtain ⟨r, hr, -⟩ := h.exists_edge hb
  let s : EdgeRecord E := { r with incidence := r.incidence.set dir m }
  refine ⟨{ g with edges := g.edges.setRecord e s }, ?_, h.writeEdge hr rfl rfl rfl⟩
  simp [setIncidence, Roster.record, Pool.read_of_get? hr, s]

end Shows

end Graph

end SlabGraph
