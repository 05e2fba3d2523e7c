import SlabGraph.Proofs.Graph.View
import SlabGraph.Proofs.Relocation.Population

/-!
# Relocated Views

A view is relocated if its nodes and its edges stand in other slots. The ends of edges and the
edge lists of nodes name the new slots, and the lists keep their order. Each change of a view,
made at slots that match, leads from relocated views to relocated views. Slots that are taken
newly need not match: any free slot will do, and the map of slots is extended.

## Main definitions

* `Relocation`, `View.RelocatedBy`.

## Main results

* `View.RelocatedBy.newNode`, `RelocatedBy.newEdge`, `RelocatedBy.prune`,
  `RelocatedBy.removeNode`, `RelocatedBy.retarget`.
-/

namespace SlabGraph

namespace DirPair

variable {α β : Type}

/-- The values of both directions put through a function. -/
def map (f : α → β) (pair : DirPair α) : DirPair β := ⟨f pair.up, f pair.down⟩

/-- A component of a pair to which a function was applied. -/
@[simp] theorem get_map (f : α → β) (pair : DirPair α) (dir : Direction) :
    (pair.map f).get dir = f (pair.get dir) := by cases dir <;> rfl

/-- Replacing a component goes well with applying a function. -/
theorem map_set (f : α → β) (pair : DirPair α) (dir : Direction) (a : α) :
    (pair.set dir a).map f = (pair.map f).set dir (f a) := by cases dir <;> rfl

/-- Functions that agree on both components do the same to the pair. -/
theorem map_congr {f g : α → β} {pair : DirPair α}
    (h : ∀ dir, f (pair.get dir) = g (pair.get dir)) : pair.map f = pair.map g := by
  rw [map, map, show f pair.up = g pair.up from h .up, show f pair.down = g pair.down from h .down]

end DirPair

/-- Where the entities of a view are in another one. -/
structure Relocation where
  /-- The new slots of nodes. -/
  node : Ptr → Ptr
  /-- The new slots of edges. -/
  edge : Ptr → Ptr

namespace View

variable {N E : Type} {ρ : Relocation} {V V' : View N E}

/-- A view is another one with its entities in other slots. -/
structure RelocatedBy (ρ : Relocation) (V V' : View N E) : Prop where
  /-- The number of the graph. -/
  id : V'.id = V.id
  /-- The nodes. -/
  nodes : V.nodes.RelocatedBy ρ.node (fun _ => ()) V'.nodes
  /-- The edges, whose ends are carried along. -/
  edges : V.edges.RelocatedBy ρ.edge (DirPair.map ρ.node) V'.edges
  /-- The edge lists of the nodes. -/
  inc : ∀ n, (V.nodes.body n).isSome = true → ∀ dir,
    V'.inc (ρ.node n) dir = (V.inc n dir).map ρ.edge
  /-- The ledger of the markers. -/
  markers : V'.markers = V.markers
  /-- The ledger of the numerations. -/
  nums : V'.nums = V.nums

namespace RelocatedBy

/-! ### Matching slots -/

/-- Different nodes stand in different slots of the other view as well. -/
theorem node_inj (h : V.RelocatedBy ρ V') (hc : V.Consistent) (hc' : V'.Consistent) {n m : Ptr}
    (hn : (V.nodes.body n).isSome = true) (hm : (V.nodes.body m).isSome = true) :
    ρ.node n = ρ.node m ↔ n = m :=
  h.nodes.slot_inj hc.nodes hc'.nodes hn hm

/-- Different edges stand in different slots of the other view as well. -/
theorem edge_inj (h : V.RelocatedBy ρ V') (hc : V.Consistent) (hc' : V'.Consistent) {e q : Ptr}
    (he : (V.edges.body e).isSome = true) (hq : (V.edges.body q).isSome = true) :
    ρ.edge e = ρ.edge q ↔ e = q :=
  h.edges.slot_inj hc.edges hc'.edges he hq

/-- An edge is in a list of a node in both views or in neither. -/
theorem contains_inc (h : V.RelocatedBy ρ V') (hc : V.Consistent) (hc' : V'.Consistent)
    {n e : Ptr} (hn : (V.nodes.body n).isSome = true) (he : (V.edges.body e).isSome = true)
    (dir : Direction) : (V'.inc (ρ.node n) dir).contains (ρ.edge e) = (V.inc n dir).contains e := by
  rw [h.inc n hn, Bool.eq_iff_iff, List.contains_iff_mem, List.contains_iff_mem, List.mem_map]
  constructor
  · rintro ⟨q, hq, heq⟩
    rwa [← (h.edge_inj hc hc' (hc.isSome_of_mem_inc hq) he).1 heq]
  · exact fun hmem => ⟨e, hmem, rfl⟩

/-- Views with no nodes and no edges. -/
theorem of_members_nil (hc : V.Consistent) (hid : V'.id = V.id) (hnodes : V.nodes.members = [])
    (hnodes' : V'.nodes.members = []) (hnext : V'.nodes.next = V.nodes.next)
    (hedges : V.edges.members = []) (hedges' : V'.edges.members = [])
    (hnext' : V'.edges.next = V.edges.next) (hmarkers : V'.markers = V.markers)
    (hnums : V'.nums = V.nums) : V.RelocatedBy ρ V' where
  id := hid
  nodes := .of_members_nil hc.nodes hnodes hnodes' hnext
  edges := .of_members_nil hc.edges hedges hedges' hnext'
  inc n hn := by
    have hmem := (hc.nodes.mem_iff n).2 hn
    rw [hnodes] at hmem
    cases hmem
  markers := hmarkers
  nums := hnums

/-! ### Adding -/

/-- Views stay relocated when a node is added to both, in whatever free slots. -/
theorem newNode (h : V.RelocatedBy ρ V') (hc : V.Consistent) (hc' : V'.Consistent) {p p' : Ptr}
    (data : N) (hp : V.nodes.body p = none) (hp' : V'.nodes.body p' = none) :
    (V.newNode p data).RelocatedBy { ρ with node := Function.update ρ.node p p' }
      (V'.newNode p' data) where
  id := h.id
  nodes := by
    have hadd := h.nodes.add hc.nodes (b := ⟨V.nodes.next, (), .clean, data⟩) hp hp'
    rw [View.newNode, View.newNode, h.nodes.next]
    exact hadd
  edges := by
    -- the slot was free, so no edge had it as an end
    refine h.edges.congr hc.edges (fun _ _ => rfl) fun e b hb => DirPair.map_congr fun dir => ?_
    refine Function.update_of_ne (fun heq => ?_) _ _
    have hend := hc.ends e b hb dir
    rw [heq, hp] at hend
    cases hend
  inc n hn dir := by
    change V'.inc (Function.update ρ.node p p' n) dir = (V.inc n dir).map ρ.edge
    by_cases hnp : n = p
    · rw [hnp, Function.update_self, hc'.inc_of_free hp', hc.inc_of_free hp, List.map_nil]
    · rw [Function.update_of_ne hnp]
      exact h.inc n ((congrArg Option.isSome (Population.body_add_of_ne _ hnp)).symm.trans hn) dir
  markers := h.markers
  nums := h.nums

/-- Views stay relocated when an edge is added to both, in whatever free slots, between nodes that
are matched. -/
theorem newEdge (h : V.RelocatedBy ρ V') (hc : V.Consistent) (hc' : V'.Consistent) {p p' : Ptr}
    {ends : DirPair Ptr} (data : E) (hp : V.edges.body p = none) (hp' : V'.edges.body p' = none)
    (hends : ∀ dir, (V.nodes.body (ends.get dir)).isSome = true) :
    (V.newEdge p ends data).RelocatedBy { ρ with edge := Function.update ρ.edge p p' }
      (V'.newEdge p' (ends.map ρ.node) data) where
  id := h.id
  nodes := h.nodes
  edges := by
    have hadd := h.edges.add hc.edges (b := ⟨V.edges.next, ends, .clean, data⟩) hp hp'
    rw [View.newEdge, View.newEdge, View.addEdge, View.addEdge, h.edges.next]
    exact hadd
  inc n hn dir := by
    have hold : (V.inc n dir).map (Function.update ρ.edge p p') = (V.inc n dir).map ρ.edge := by
      refine List.map_congr_left fun e he => Function.update_of_ne (fun heq => ?_) _ _
      exact hc.not_mem_inc_of_free hp n dir (heq ▸ he)
    have hend : ρ.node n = (ends.map ρ.node).get dir.rev ↔ n = ends.get dir.rev := by
      rw [DirPair.get_map]
      exact h.node_inj hc hc' hn (hends dir.rev)
    change (if ρ.node n = (ends.map ρ.node).get dir.rev then p' :: V'.inc (ρ.node n) dir
        else V'.inc (ρ.node n) dir) =
      (if n = ends.get dir.rev then p :: V.inc n dir else V.inc n dir).map
        (Function.update ρ.edge p p')
    rw [h.inc n hn]
    by_cases hnode : n = ends.get dir.rev
    · rw [if_pos hnode, if_pos (hend.2 hnode), List.map_cons, Function.update_self, hold]
    · rw [if_neg hnode, if_neg fun heq => hnode (hend.1 heq), hold]
  markers := h.markers
  nums := h.nums

/-! ### Removing -/

/-- Views stay relocated when edges that are matched are kept in both. -/
theorem prune (h : V.RelocatedBy ρ V') (hc : V.Consistent) {k k' : Ptr → Bool}
    (hk : ∀ e, (V.edges.body e).isSome = true → k' (ρ.edge e) = k e) :
    (V.prune k).RelocatedBy ρ (V'.prune k') where
  id := h.id
  nodes := h.nodes
  edges := h.edges.keep hc.edges hk
  inc n hn dir := by
    change (V'.inc (ρ.node n) dir).filter k' = ((V.inc n dir).filter k).map ρ.edge
    rw [h.inc n hn, List.filter_map]
    congr 1
    exact List.filter_congr fun e he => hk e (hc.isSome_of_mem_inc he)
  markers := h.markers
  nums := h.nums

/-- One edge leaves. -/
theorem pruneEdge (h : V.RelocatedBy ρ V') (hc : V.Consistent) (hc' : V'.Consistent) {e : Ptr}
    (he : (V.edges.body e).isSome = true) :
    (V.prune (· != e)).RelocatedBy ρ (V'.prune (· != ρ.edge e)) := by
  refine h.prune hc fun q hq => ?_
  rw [Bool.eq_iff_iff, bne_iff_ne, bne_iff_ne]
  exact not_congr (h.edge_inj hc hc' hq he)

/-- Views stay relocated when nodes that are matched are removed with their edges. -/
theorem removeNode (h : V.RelocatedBy ρ V') (hc : V.Consistent) (hc' : V'.Consistent) {n : Ptr}
    (hn : (V.nodes.body n).isSome = true) :
    (V.removeNode n).RelocatedBy ρ (V'.removeNode (ρ.node n)) := by
  have hpruned : (V.prune fun e => !(V.inc n .down).contains e && !(V.inc n .up).contains e)
      |>.RelocatedBy ρ (V'.prune fun e =>
        !(V'.inc (ρ.node n) .down).contains e && !(V'.inc (ρ.node n) .up).contains e) :=
    h.prune hc fun e he => by rw [h.contains_inc hc hc' hn he, h.contains_inc hc hc' hn he]
  refine ⟨hpruned.id, ?_, hpruned.edges, fun m hm dir => hpruned.inc m ?_ dir, hpruned.markers,
    hpruned.nums⟩
  · refine h.nodes.keep hc.nodes fun m hm => ?_
    rw [Bool.eq_iff_iff, bne_iff_ne, bne_iff_ne]
    exact not_congr (h.node_inj hc hc' hm hn)
  · change ((V.nodes.keep _).body m).isSome = true at hm
    rw [Population.body_keep] at hm
    by_cases hk : (m != n) = true
    · rwa [if_pos hk] at hm
    · rw [if_neg hk] at hm
      cases hm

/-- Views stay relocated when everything is removed from both. -/
theorem clear (h : V.RelocatedBy ρ V') (hc : V.Consistent) : V.clear.RelocatedBy ρ V'.clear := by
  have hpruned : (V.prune fun _ => false).RelocatedBy ρ (V'.prune fun _ => false) :=
    h.prune hc fun _ _ => rfl
  refine ⟨hpruned.id, h.nodes.keep hc.nodes fun _ _ => rfl, hpruned.edges, fun n hn => ?_,
    hpruned.markers, hpruned.nums⟩
  cases hn

/-! ### Altering -/

/-- Views stay relocated when nodes that are matched are altered alike. -/
theorem writeNode (h : V.RelocatedBy ρ V') (hc : V.Consistent) (hc' : V'.Consistent) {n : Ptr}
    (hn : (V.nodes.body n).isSome = true) (k : Body Unit N → Body Unit N) :
    (V.writeNode n k).RelocatedBy ρ (V'.writeNode (ρ.node n) k) where
  id := h.id
  nodes := h.nodes.write hc.nodes hc'.nodes hn fun _ => rfl
  edges := h.edges
  inc m hm dir := h.inc m ((Population.isSome_body_write n k m).symm.trans hm) dir
  markers := h.markers
  nums := h.nums

/-- Views stay relocated when edges that are matched are altered alike. -/
theorem writeEdge (h : V.RelocatedBy ρ V') (hc : V.Consistent) (hc' : V'.Consistent) {e : Ptr}
    (he : (V.edges.body e).isSome = true)
    {k k' : Body (DirPair Ptr) E → Body (DirPair Ptr) E}
    (hk : ∀ b, k' (b.relocate (DirPair.map ρ.node)) = (k b).relocate (DirPair.map ρ.node)) :
    (V.writeEdge e k).RelocatedBy ρ (V'.writeEdge (ρ.edge e) k') where
  id := h.id
  nodes := h.nodes
  edges := h.edges.write hc.edges hc'.edges he hk
  inc := h.inc
  markers := h.markers
  nums := h.nums

/-- Views stay relocated when edges that are matched are retargeted to nodes that are matched. -/
theorem retarget (h : V.RelocatedBy ρ V') (hc : V.Consistent) (hc' : V'.Consistent) {e m : Ptr}
    (he : (V.edges.body e).isSome = true) (hm : (V.nodes.body m).isSome = true) (dir : Direction) :
    (V.retarget e dir m).RelocatedBy ρ (V'.retarget (ρ.edge e) dir (ρ.node m)) := by
  have hset : (V.setEnd e dir m).RelocatedBy ρ (V'.setEnd (ρ.edge e) dir (ρ.node m)) :=
    h.writeEdge hc hc' he fun b => by rw [Body.relocate, Body.relocate, DirPair.map_set]
  refine ⟨hset.id, hset.nodes, hset.edges, fun n hn d => ?_, hset.markers, hset.nums⟩
  have hfilter : (V'.inc (ρ.node n) d).filter (· != ρ.edge e) =
      ((V.inc n d).filter (· != e)).map ρ.edge :=
    (h.pruneEdge hc hc' he).inc n hn d
  change (if d = dir.rev then if ρ.node n = ρ.node m
        then ρ.edge e :: (V'.inc (ρ.node n) d).filter (· != ρ.edge e)
        else (V'.inc (ρ.node n) d).filter (· != ρ.edge e)
      else V'.inc (ρ.node n) d) =
    (if d = dir.rev then if n = m then e :: (V.inc n d).filter (· != e)
        else (V.inc n d).filter (· != e)
      else V.inc n d).map ρ.edge
  rw [hfilter, h.inc n hn]
  by_cases hd : d = dir.rev
  · by_cases hnm : n = m
    · rw [if_pos hd, if_pos hd, if_pos hnm, if_pos (congrArg ρ.node hnm), List.map_cons]
    · rw [if_pos hd, if_pos hd, if_neg hnm, if_neg fun heq => hnm ((h.node_inj hc hc' hn hm).1 heq)]
  · rw [if_neg hd, if_neg hd]

/-- Views stay relocated when tags are altered alike. -/
theorem mapAreas (h : V.RelocatedBy ρ V') (f : TagArea → TagArea) :
    (V.mapAreas f).RelocatedBy ρ (V'.mapAreas f) where
  id := h.id
  nodes := h.nodes.alter fun _ _ _ => rfl
  edges := h.edges.alter fun _ _ _ => rfl
  inc n hn := by
    rw [View.mapAreas, Population.body_alter, Option.isSome_map] at hn
    exact h.inc n hn
  markers := h.markers
  nums := h.nums

/-- Views stay relocated when both get the same ledgers. -/
theorem setLedgers (h : V.RelocatedBy ρ V') (markers : TagLedger .marker)
    (nums : TagLedger .numeration) :
    ({ V with markers, nums } : View N E).RelocatedBy ρ { V' with markers, nums } where
  id := h.id
  nodes := h.nodes
  edges := h.edges
  inc := h.inc
  markers := rfl
  nums := rfl

end RelocatedBy

end View

end SlabGraph
