import SlabGraph.Proofs.Graph.Edit

/-!
# Graphs of One Shape

A view leaves out where the free entries of the pools are and in what order they come. It leaves
out nothing else: two graphs of one view whose pools have one shape (`Graph.SameShape`) are equal
(`Graph.Holds.eq_of_shape`). The links and heads that a view does not name follow from the lists
that it does name, since a link map in which a list is one is fixed at the members of the list.

The same argument one list short compares graphs whose views differ in one list of one node. They
are equal once this list is taken apart (`Graph.unordered`), that is, they agree in everything but
the head of the list and the links between its members.

Retargeting an edge writes into records in place, so that it keeps the shape of the pools.

## Main definitions

* `Graph.SameShape`;
* `Graph.unordered`, a graph with one list of a node taken apart.

## Main results

* `Graph.keeps_setEnd`: retargeting an edge keeps the shape;
* `Graph.Holds.eq_of_shape`, `Graph.Holds.unordered_eq`.
-/

namespace SlabGraph

/-! ### Chain operations on a pool -/

namespace Pool

open SlabGraph.Action

section

variable {R : Type} {slots : Nat} [Linked R Ptr slots]

/-- Having one shape is kept by actions in a row. -/
theorem kept_sameShape : Kept (SameShape : Pool R → Pool R → Prop) := ⟨.refl, .trans⟩

/-- Replacing links keeps the shape of a pool. -/
theorem sameShape_setLinks (pool : Pool R) (p : Ptr) (l : Links Ptr slots) :
    SameShape pool (ChainStorage.setLinks pool p l) := by
  simp only [ChainStorage.setLinks]
  cases pool.get? p with
  | none => exact .refl pool
  | some r => exact sameShape_replace _ _ _

/-- Replacing the member after a record keeps the shape. -/
theorem keeps_setNext (p : Ptr) (slot : Nat) (next : Option Ptr) :
    (Chain.setNext p slot next : Action (Pool R) Unit).Keeps SameShape :=
  kept_sameShape.bind (kept_sameShape.read _) fun _ =>
    kept_sameShape.bind (kept_sameShape.check _) fun _ =>
      .modify fun pool => sameShape_setLinks pool p _

/-- Replacing the member before a record keeps the shape. -/
theorem keeps_setPrev (p : Ptr) (slot : Nat) (prev : Option Ptr) :
    (Chain.setPrev p slot prev : Action (Pool R) Unit).Keeps SameShape :=
  kept_sameShape.bind (kept_sameShape.read _) fun _ =>
    kept_sameShape.bind (kept_sameShape.check _) fun _ =>
      .modify fun pool => sameShape_setLinks pool p _

/-- Detaching a record keeps the shape. -/
theorem keeps_detach (p : Ptr) (slot : Nat) :
    (Chain.detach p slot : Action (Pool R) Unit).Keeps SameShape := by
  have h := kept_sameShape (R := R)
  refine h.bind (h.read _) fun before => h.bind (h.read _) fun after => ?_
  refine h.bind (h.forM (fun q => keeps_setNext q slot after) before) fun _ => ?_
  refine h.bind (h.forM (fun q => keeps_setPrev q slot before) after) fun _ => ?_
  exact h.bind (keeps_setPrev p slot none) fun _ => keeps_setNext p slot none

/-- Attaching a record keeps the shape. -/
theorem keeps_attach (p : Ptr) (slot : Nat) (peer : Ptr) :
    (Chain.attach p slot peer : Action (Pool R) Unit).Keeps SameShape := by
  have h := kept_sameShape (R := R)
  refine h.bind (h.demand _ _) fun _ => h.bind (h.read _) fun _ => h.bind (h.demand _ _) fun _ => ?_
  refine h.bind (h.read _) fun before => h.bind (keeps_setPrev p slot before) fun _ => ?_
  refine h.bind (keeps_setNext p slot (some peer)) fun _ => ?_
  refine h.bind (keeps_setPrev peer slot (some p)) fun _ => ?_
  exact h.forM (fun q => keeps_setNext q slot (some p)) before

/-- Pushing a record on a list keeps the shape. -/
theorem keeps_pushFront (p : Ptr) (slot : Nat) (head : Packed Ptr) :
    (Chain.pushFront p slot head : Action (Pool R) (Packed Ptr)).Keeps SameShape := by
  have h := kept_sameShape (R := R)
  exact h.bind (h.forM (fun q => keeps_attach p slot q) head.unpack) fun _ => h.check _

/-- Taking a record off a list keeps the shape. -/
theorem keeps_unlink (p : Ptr) (slot : Nat) (head : Packed Ptr) :
    (Chain.unlink p slot head : Action (Pool R) (Packed Ptr)).Keeps SameShape := by
  have h := kept_sameShape (R := R)
  exact h.bind (h.read _) fun _ => h.bind (keeps_detach p slot) fun _ => h.pure _

end

end Pool

/-! ### Retargeting keeps the shape -/

namespace Graph

open SlabGraph.Action

variable {N E : Type}

/-- Two graphs keep their records in pools of one shape. -/
structure SameShape (g g' : Graph N E) : Prop where
  nodes : g.nodes.pool.SameShape g'.nodes.pool
  edges : g.edges.pool.SameShape g'.edges.pool

/-- Being of one shape is symmetric. -/
theorem SameShape.symm {g g' : Graph N E} (h : SameShape g g') : SameShape g' g :=
  ⟨h.nodes.symm, h.edges.symm⟩

/-- Being of one shape is transitive. -/
theorem SameShape.trans {g g' g'' : Graph N E} (h : SameShape g g') (h' : SameShape g' g'') :
    SameShape g g'' :=
  ⟨h.nodes.trans h'.nodes, h.edges.trans h'.edges⟩

/-- Being of one shape is kept by actions in a row. -/
theorem kept_sameShape : Kept (SameShape : Graph N E → Graph N E → Prop) :=
  ⟨fun _ => ⟨.refl _, .refl _⟩, .trans⟩

/-- Replacing the head of a list of a node keeps the shape. -/
theorem keeps_setHead (node : Ptr) (list : Direction) (head : Packed Ptr) :
    (setHead node list head : Action (Graph N E) Unit).Keeps SameShape :=
  kept_sameShape.bind (kept_sameShape.read _) fun _ =>
    .modify fun g => ⟨Pool.sameShape_replace _ _ _, .refl g.edges.pool⟩

/-- What keeps the shape of the pool of edges keeps that of the graph. -/
theorem keeps_onEdges {α : Type} {x : Action (Pool (EdgeRecord E)) α}
    (hx : x.Keeps Pool.SameShape) :
    (onEdges (Roster.onPool x) : Action (Graph N E) α).Keeps SameShape := by
  have hroster : (Roster.onPool x : Action (Roster 3 (DirPair Ptr) E) α).Keeps
      fun roster roster' => roster.pool.SameShape roster'.pool :=
    hx.within fun _ _ h => h
  exact hroster.within fun g _ h => ⟨.refl g.nodes.pool, h⟩

/-- Putting an edge on a list of a node keeps the shape. -/
theorem keeps_linkEnd (slot : Ptr) (dir : Direction) :
    (linkEnd slot dir : Action (Graph N E) Unit).Keeps SameShape := by
  have h := kept_sameShape (N := N) (E := E)
  refine h.bind (h.read _) fun _ => h.bind (h.read _) fun _ => ?_
  exact h.bind (keeps_onEdges (Pool.keeps_pushFront _ _ _)) fun _ => keeps_setHead _ _ _

/-- Taking an edge off a list of a node keeps the shape. -/
theorem keeps_unlinkEnd (slot : Ptr) (dir : Direction) :
    (unlinkEnd slot dir : Action (Graph N E) Unit).Keeps SameShape := by
  have h := kept_sameShape (N := N) (E := E)
  refine h.bind (h.read _) fun _ => h.bind (h.read _) fun _ => ?_
  exact h.bind (keeps_onEdges (Pool.keeps_unlink _ _ _)) fun _ => keeps_setHead _ _ _

/-- Writing the end of an edge keeps the shape. -/
theorem keeps_setIncidence (slot : Ptr) (dir : Direction) (node : Ptr) :
    (setIncidence slot dir node : Action (Graph N E) Unit).Keeps SameShape :=
  kept_sameShape.bind (kept_sameShape.read _) fun _ =>
    .modify fun g => ⟨.refl g.nodes.pool, Pool.sameShape_replace _ _ _⟩

/-- Retargeting an edge writes records in place, whether it succeeds or not. -/
theorem keeps_setEnd (edge : EdgeHandle) (dir : Direction) (node : NodeHandle) :
    (setEnd edge dir node : Action (Graph N E) Unit).Keeps SameShape := by
  have h := kept_sameShape (N := N) (E := E)
  refine h.bind (h.read _) fun _ => h.bind (h.read _) fun _ => ?_
  refine h.bind (keeps_unlinkEnd _ _) fun _ => h.bind (keeps_setIncidence _ _ _) fun _ => ?_
  exact keeps_linkEnd _ _

end Graph

/-! ### Records -/

/-- A record is its body, its graph, its incidence and its links. -/
theorem Record.eq_of_parts {slots : Nat} {ι κ δ : Type} {f : ι → κ} {r r' : Record slots ι δ}
    (hbody : r'.body f = r.body f) (hgraph : r'.graph = r.graph)
    (hincidence : r'.incidence = r.incidence) (hlinks : ∀ i, r'.links.pair i = r.links.pair i) :
    r' = r := by
  obtain ⟨uid, graph, incidence, links, area, data⟩ := r
  obtain ⟨uid', graph', incidence', links', area', data'⟩ := r'
  obtain rfl : uid' = uid := congrArg Body.uid hbody
  obtain rfl : area' = area := congrArg Body.area hbody
  obtain rfl : data' = data := congrArg Body.data hbody
  obtain rfl := hgraph
  obtain rfl := hincidence
  obtain rfl : links' = links := Links.eq_of_pair hlinks
  rfl

namespace Roster

variable {slots : Nat} [NeZero slots] {ι κ δ : Type} {f : ι → κ} {graph : GraphId}
  {roster roster' : Roster slots ι δ} {P : Population κ δ}

/-- The place of a record among all entities is a matter of what the roster shows. -/
theorem Shows.pair_all_eq (h : Shows f graph roster P) (h' : Shows f graph roster' P)
    (hc : P.Consistent) {p : Ptr} {r r' : Record slots ι δ} (hr : roster.pool.get? p = some r)
    (hr' : roster'.pool.get? p = some r') :
    r'.links.pair (allIndex slots) = r.links.pair (allIndex slots) := by
  have hmem : p ∈ P.members := hc.mem_of_body (h.body_of_record hr)
  have hlinks := h.list.links_eq h'.list hmem
  rw [Pool.linkMap_eq_some_of_get? hr, Pool.linkMap_eq_some_of_get? hr'] at hlinks
  exact Option.some.inj hlinks

/-- Rosters that show the same differ in their pools only. -/
theorem Shows.withPool_eq (h : Shows f graph roster P) (h' : Shows f graph roster' P)
    (pool : Pool (Record slots ι δ)) : { roster' with pool } = { roster with pool } := by
  have hfirst : roster'.first = roster.first := Packed.unpack_inj.1 (by rw [h.head, h'.head])
  have hcount : roster'.count = roster.count := by rw [h.count, h'.count]
  have hnext : roster'.nextUid = roster.nextUid := by rw [h.next, h'.next]
  rw [hfirst, hcount, hnext]

end Roster

/-- A slot for the links of an edge is that of the list of all edges or that of a list of a node. -/
theorem eq_all_or_incidence (i : Fin 3) : i = allIndex 3 ∨ ∃ dir, i = incidenceIndex dir :=
  match i with
  | 0 => .inl rfl
  | 1 => .inr ⟨.up, rfl⟩
  | 2 => .inr ⟨.down, rfl⟩

/-- What is made of related values is the same if each pair of them makes it the same. -/
theorem map_eq_of_rel {α β : Type} {R : α → α → Prop} {o o' : Option α} (h : Option.Rel R o o')
    {f : α → β} (hf : ∀ a b, R a b → f b = f a) : o'.map f = o.map f := by
  cases h with
  | none => rfl
  | some hab => exact congrArg some (hf _ _ hab)

/-! ### Records of graphs with other lists -/

namespace Graph

variable {N E : Type} {g g' : Graph N E} {V : View N E} {inc : Ptr → Direction → List Ptr}

/-- The records of a node in two graphs whose views have the lists `V.inc` and `inc`. -/
structure SameNodeRecord (V : View N E) (inc : Ptr → Direction → List Ptr) (n : Ptr)
    (r r' : NodeRecord N) : Prop where
  body : r'.body (fun _ => ()) = r.body fun _ => ()
  graph : r'.graph = r.graph
  links : r'.links = r.links
  /-- The node has the head of every list that is the same. -/
  head : ∀ dir, inc n dir = V.inc n dir → r'.incidence.get dir = r.incidence.get dir

/-- The records of an edge in two graphs whose views have the lists `V.inc` and `inc`. -/
structure SameEdgeRecord (V : View N E) (inc : Ptr → Direction → List Ptr)
    (r r' : EdgeRecord E) : Prop where
  body : r'.body (fun ends => ends) = r.body fun ends => ends
  graph : r'.graph = r.graph
  all : r'.links.pair (allIndex 3) = r.links.pair (allIndex 3)
  /-- The edge has its place in every list that is the same. -/
  pair : ∀ dir, inc (r.incidence.get dir.rev) dir = V.inc (r.incidence.get dir.rev) dir →
    r'.links.pair (incidenceIndex dir) = r.links.pair (incidenceIndex dir)

/-- The records of a node are equal if its lists are. -/
theorem SameNodeRecord.eq {n : Ptr} {r r' : NodeRecord N} (h : SameNodeRecord V inc n r r')
    (hinc : ∀ dir, inc n dir = V.inc n dir) : r' = r :=
  Record.eq_of_parts h.body h.graph (DirPair.ext_get fun dir => h.head dir (hinc dir))
    fun i => congrArg (Links.pair · i) h.links

/-- The records of an edge are equal if the lists it is on are. -/
theorem SameEdgeRecord.eq {r r' : EdgeRecord E} (h : SameEdgeRecord V inc r r')
    (hinc : ∀ dir, inc (r.incidence.get dir.rev) dir = V.inc (r.incidence.get dir.rev) dir) :
    r' = r := by
  refine Record.eq_of_parts h.body h.graph (congrArg Body.incidence h.body) fun i => ?_
  rcases eq_all_or_incidence i with rfl | ⟨dir, rfl⟩
  · exact h.all
  · exact h.pair dir (hinc dir)

/-- Two graphs whose views differ in the lists of nodes have nodes in the same slots, with records
that differ in no more than the heads. -/
theorem Holds.rel_nodes (h : Holds g V) (h' : Holds g' { V with inc }) (n : Ptr) :
    Option.Rel (SameNodeRecord V inc n) (g.nodes.pool.get? n) (g'.nodes.pool.get? n) := by
  cases hr : g.nodes.pool.get? n with
  | none =>
      rw [h'.shown.nodes.get?_eq_none.2 (h.shown.nodes.get?_eq_none.1 hr)]
      exact .none
  | some r =>
      obtain ⟨r', hr', hbody⟩ := h'.shown.nodes.exists_record (h.shown.nodes.body_of_record hr)
      rw [hr']
      have hid := h.shown.id.symm.trans h'.shown.id
      have hshown : g'.nodes.Shows (fun _ => ()) g.id V.nodes := hid ▸ h'.shown.nodes
      refine .some ⟨hbody, ?_, Links.eq_of_pair fun i => ?_, fun dir hinc => ?_⟩
      · rw [h.shown.nodes.graph n r hr, h'.shown.nodes.graph n r' hr', hid]
      · obtain rfl : i = allIndex 1 := Fin.fin_one_eq_zero i
        exact h.shown.nodes.pair_all_eq hshown h.consistent.nodes hr hr'
      · refine Packed.unpack_inj.1 ?_
        rw [h.shown.heads n r hr, h'.shown.heads n r' hr']
        exact congrArg List.head? hinc

/-- Two graphs whose views differ in the lists of nodes have edges in the same slots, with records
that differ in no more than the links. -/
theorem Holds.rel_edges (h : Holds g V) (h' : Holds g' { V with inc }) (e : Ptr) :
    Option.Rel (SameEdgeRecord V inc) (g.edges.pool.get? e) (g'.edges.pool.get? e) := by
  cases hr : g.edges.pool.get? e with
  | none =>
      rw [h'.shown.edges.get?_eq_none.2 (h.shown.edges.get?_eq_none.1 hr)]
      exact .none
  | some r =>
      have hb := h.shown.edges.body_of_record hr
      obtain ⟨r', hr', hbody⟩ := h'.shown.edges.exists_record hb
      rw [hr']
      have hid := h.shown.id.symm.trans h'.shown.id
      have hshown : g'.edges.Shows (fun ends => ends) g.id V.edges := hid ▸ h'.shown.edges
      refine .some ⟨hbody, ?_, h.shown.edges.pair_all_eq hshown h.consistent.edges hr hr',
        fun dir hinc => ?_⟩
      · rw [h.shown.edges.graph e r hr, h'.shown.edges.graph e r' hr', hid]
      · have hmem : e ∈ V.inc (r.incidence.get dir.rev) dir :=
          (h.consistent.inc_iff _ _ _).2 ⟨_, hb, rfl⟩
        have hlist : LinkMap.IsList (Chain.linkMap g'.edges.pool (incidenceIndex dir))
            (V.inc (r.incidence.get dir.rev) dir) := hinc ▸ h'.shown.lists _ dir
        have hlinks := (h.shown.lists _ dir).links_eq hlist hmem
        rw [Pool.linkMap_eq_some_of_get? hr, Pool.linkMap_eq_some_of_get? hr'] at hlinks
        exact Option.some.inj hlinks

/-! ### Graphs that differ in their pools only -/

/-- A graph with other pools. -/
def withPools (g : Graph N E) (nodes : Pool (NodeRecord N)) (edges : Pool (EdgeRecord E)) :
    Graph N E :=
  { g with nodes := { g.nodes with pool := nodes }, edges := { g.edges with pool := edges } }

/-- What a graph keeps beside its pools is a matter of its view, without the lists of the nodes. -/
theorem Holds.withPools_eq (h : Holds g V) (h' : Holds g' { V with inc })
    (nodes : Pool (NodeRecord N)) (edges : Pool (EdgeRecord E)) :
    g'.withPools nodes edges = g.withPools nodes edges := by
  have hid : g'.id = g.id := h'.shown.id.symm.trans h.shown.id
  have hmarkers : g'.markers = g.markers := h'.shown.markers.symm.trans h.shown.markers
  have hnums : g'.nums = g.nums := h'.shown.nums.symm.trans h.shown.nums
  have hnodes := h.shown.nodes.withPool_eq (hid ▸ h'.shown.nodes) nodes
  have hedges := h.shown.edges.withPool_eq (hid ▸ h'.shown.edges) edges
  unfold withPools
  rw [hid, hmarkers, hnums, hnodes, hedges]

/-- A graph is its view and the shape of its pools. -/
theorem Holds.eq_of_shape (h : Holds g V) (h' : Holds g' V) (hshape : g.SameShape g') :
    g' = g := by
  have hnodes : g'.nodes.pool = g.nodes.pool := by
    refine h.shown.nodes.pool.eq_of_shape hshape.nodes fun n => ?_
    simpa using map_eq_of_rel (h.rel_nodes h' n) (f := fun r => r) fun _ _ hsame =>
      hsame.eq fun _ => rfl
  have hedges : g'.edges.pool = g.edges.pool := by
    refine h.shown.edges.pool.eq_of_shape hshape.edges fun e => ?_
    simpa using map_eq_of_rel (h.rel_edges h' e) (f := fun r => r) fun _ _ hsame =>
      hsame.eq fun _ => rfl
  calc g' = g'.withPools g'.nodes.pool g'.edges.pool := rfl
    _ = g'.withPools g.nodes.pool g.edges.pool := by rw [hnodes, hedges]
    _ = g.withPools g.nodes.pool g.edges.pool := h.withPools_eq h' _ _

end Graph

/-! ### Graphs with one list taken apart -/

/-- Links with those of one slot emptied. -/
def Links.clear {P : Type} [Reserved P] {slots : Nat} (links : Links P slots) (slot : Fin slots) :
    Links P slots where
  prev := .ofFn fun i => if i = slot then .empty else links.prev.get i
  next := .ofFn fun i => if i = slot then .empty else links.next.get i

/-- Emptying one slot of some links leaves the others alone. -/
theorem Links.pair_clear {P : Type} [Reserved P] [DecidableEq P] {slots : Nat}
    (links : Links P slots) (slot i : Fin slots) :
    (links.clear slot).pair i = if i = slot then (none, none) else links.pair i := by
  by_cases hi : i = slot
  · simp [Links.pair, Links.clear, hi]
  · simp [Links.pair, Links.clear, hi, Vector.get]

namespace Graph

variable {N E : Type} {g g' : Graph N E} {V : View N E} {inc : Ptr → Direction → List Ptr}
  {node : NodeHandle} {list : Direction}

/-- The record of a node without the head of a list. -/
def headless (list : Direction) (r : NodeRecord N) : NodeRecord N :=
  { r with incidence := r.incidence.set list .empty }

/-- The record of an edge without its place in a list of a node, if it is in that list. -/
def looseRecord (node : Ptr) (list : Direction) (r : EdgeRecord E) : EdgeRecord E :=
  if r.incidence.get list.rev = node then
    { r with links := r.links.clear (incidenceIndex list) }
  else r

/-- A graph with one list of a node taken apart. The node has no head of it and its members no
links of it, and all else is as it was: what is left out is the order of this list. -/
def unordered (g : Graph N E) (node : NodeHandle) (list : Direction) : Graph N E :=
  g.withPools
    (match g.nodes.pool.get? node.slot with
      | some r => g.nodes.pool.replace node.slot (headless list r)
      | none => g.nodes.pool)
    (g.edges.pool.map (looseRecord node.slot list))

/-- Taking a list of a node apart takes its head out of the record of the node. -/
theorem get?_nodes_unordered (g : Graph N E) (node : NodeHandle) (list : Direction) (n : Ptr) :
    (g.unordered node list).nodes.pool.get? n =
      (g.nodes.pool.get? n).map fun r => if n = node.slot then headless list r else r := by
  unfold unordered withPools
  cases hr : g.nodes.pool.get? node.slot with
  | none =>
      by_cases hn : n = node.slot
      · simp [hn, hr]
      · simp [hn]
  | some r =>
      by_cases hn : n = node.slot
      · simp [hn, hr, Pool.get?_replace_self hr]
      · simp [hn, Pool.get?_replace_of_ne _ hn]

/-- Taking a list of a node apart takes its links out of the records of its members. -/
theorem get?_edges_unordered (g : Graph N E) (node : NodeHandle) (list : Direction) (e : Ptr) :
    (g.unordered node list).edges.pool.get? e =
      (g.edges.pool.get? e).map (looseRecord node.slot list) :=
  Pool.get?_map _ _ _

/-- Taking a list of a node apart keeps the shape. -/
theorem sameShape_unordered (g : Graph N E) (node : NodeHandle) (list : Direction) :
    g.SameShape (g.unordered node list) := by
  refine ⟨?_, Pool.sameShape_map _ _⟩
  unfold unordered withPools
  cases g.nodes.pool.get? node.slot with
  | none => exact .refl _
  | some r => exact Pool.sameShape_replace _ _ _

/-- Graphs of one shape are of one shape after the same list was taken apart in both. -/
theorem SameShape.unordered (h : g.SameShape g') (node : NodeHandle) (list : Direction) :
    (g.unordered node list).SameShape (g'.unordered node list) :=
  (sameShape_unordered g node list).symm.trans (h.trans (sameShape_unordered g' node list))

/-- The records of a node are equal without the head of a list if its other list is the same. -/
theorem SameNodeRecord.headless_eq {n : Ptr} {r r' : NodeRecord N}
    (h : SameNodeRecord V inc n r r') (hinc : ∀ dir, dir ≠ list → inc n dir = V.inc n dir) :
    headless list r' = headless list r := by
  refine Record.eq_of_parts (f := fun _ => ()) h.body h.graph (DirPair.ext_get fun dir => ?_)
    fun i => congrArg (Links.pair · i) h.links
  by_cases hdir : dir = list
  · simp [headless, hdir]
  · simpa [headless, DirPair.get_set_of_ne _ _ (Ne.symm hdir)] using h.head dir (hinc dir hdir)

/-- The records of an edge are equal without its place in a list if all other lists are the same. -/
theorem SameEdgeRecord.looseRecord_eq {n : Ptr} {r r' : EdgeRecord E}
    (h : SameEdgeRecord V inc r r')
    (hinc : ∀ m dir, ¬ (m = n ∧ dir = list) → inc m dir = V.inc m dir) :
    looseRecord n list r' = looseRecord n list r := by
  have hends : r'.incidence = r.incidence := congrArg Body.incidence h.body
  have hmember : r'.incidence.get list.rev = r.incidence.get list.rev := by rw [hends]
  unfold looseRecord
  rw [hmember]
  by_cases hmem : r.incidence.get list.rev = n
  · rw [if_pos hmem, if_pos hmem]
    refine Record.eq_of_parts (f := fun ends => ends) h.body h.graph hends fun i => ?_
    rw [Links.pair_clear, Links.pair_clear]
    rcases eq_all_or_incidence i with rfl | ⟨dir, rfl⟩
    · rw [h.all]
    · by_cases hdir : dir = list
      · simp [hdir]
      · rw [h.pair dir (hinc _ dir fun hboth => hdir hboth.2)]
  · rw [if_neg hmem, if_neg hmem]
    refine h.eq fun dir => hinc _ dir fun hboth => hmem ?_
    rw [← hboth.2]
    exact hboth.1

/-- Graphs of one shape whose views differ in one list of a node are equal but for the order of
this list. -/
theorem Holds.unordered_eq (h : Holds g V) (h' : Holds g' { V with inc })
    (hshape : g.SameShape g')
    (hinc : ∀ n dir, ¬ (n = node.slot ∧ dir = list) → inc n dir = V.inc n dir) :
    g'.unordered node list = g.unordered node list := by
  have hshape₀ := sameShape_unordered g node list
  have hshape' := hshape.unordered node list
  have hnodes : (g'.unordered node list).nodes.pool = (g.unordered node list).nodes.pool := by
    refine (h.shown.nodes.pool.congr hshape₀.nodes).eq_of_shape hshape'.nodes fun n => ?_
    rw [get?_nodes_unordered, get?_nodes_unordered]
    refine map_eq_of_rel (h.rel_nodes h' n) fun r r' hsame => ?_
    by_cases hn : n = node.slot
    · rw [if_pos hn, if_pos hn]
      exact hsame.headless_eq fun dir hdir => hinc n dir fun hboth => hdir hboth.2
    · rw [if_neg hn, if_neg hn]
      exact hsame.eq fun dir => hinc n dir fun hboth => hn hboth.1
  have hedges : (g'.unordered node list).edges.pool = (g.unordered node list).edges.pool := by
    refine (h.shown.edges.pool.congr hshape₀.edges).eq_of_shape hshape'.edges fun e => ?_
    rw [get?_edges_unordered, get?_edges_unordered]
    exact map_eq_of_rel (h.rel_edges h' e) fun r r' hsame => hsame.looseRecord_eq hinc
  calc g'.unordered node list
      = g'.withPools (g'.unordered node list).nodes.pool (g'.unordered node list).edges.pool := rfl
    _ = g'.withPools (g.unordered node list).nodes.pool (g.unordered node list).edges.pool := by
        rw [hnodes, hedges]
    _ = g.unordered node list := h.withPools_eq h' _ _

end Graph

end SlabGraph
