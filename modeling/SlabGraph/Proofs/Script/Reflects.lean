import Mathlib.Data.List.Perm.Basic
import SlabGraph.Proofs.History.Deeds
import SlabGraph.Script.Model

/-!
# The Model and the History

The model of a script keeps lists of what there is, and a history keeps what was done. A model
reflects a history (`Model.Reflects`) if its lists are what is left over of the deeds: the nodes
and edges that are live, the ends that they were last given, the markers in use, and the marks.

Each operation of a script changes the model, and writes deeds down. One lemma for each of them
says that the model reflects the longer history. Neither the graph nor its view is mentioned
here. Where an entity is new, that it was not there before is what the lemma asks for.

The edges of a model are numbered, and an edge that is removed is replaced by the last one. The
order is of no consequence for what the model reflects (`ReflectsEdges.perm`).

## Main definitions

* `ReflectsEdges`, `Model.Reflects`.

## Main results

* `Model.Reflects.newNode`, `Model.Reflects.newEdge`;
* `Model.Reflects.deleteNode`, `Model.Reflects.deleteEdge`, `Model.Reflects.setEnd`;
* `Model.Reflects.newMarker`, `Model.Reflects.freeMarker`;
* `Model.Reflects.mark`, `Model.Reflects.unmark`.
-/

namespace SlabGraph

/-! ### Members by number -/

section

variable {α : Type} {xs : List α} {i : Nat} {a : α}

/-- What a number names is a member of the list. -/
theorem mem_of_pick (h : pick xs i = some a) : a ∈ xs := List.mem_of_getElem? h

/-- A member between two parts of a list is replaced where it stands. -/
theorem set_mid (ys zs : List α) (b : α) : (ys ++ a :: zs).set ys.length b = ys ++ b :: zs := by
  simp

/-- Taking a member out leaves the others, in another order. -/
theorem replaceByLast_perm (ys zs : List α) :
    (replaceByLast (ys ++ a :: zs) ys.length).Perm (ys ++ zs) := by
  rcases List.eq_nil_or_concat zs with rfl | ⟨ws, last, rfl⟩
  · simp [replaceByLast]
  · have hlast : (ys ++ a :: (ws ++ [last])).getLast? = some last := by
      rw [← List.cons_append, ← List.append_assoc, List.getLast?_concat]
    have hdrop : (ys ++ last :: (ws ++ [last])).dropLast = ys ++ last :: ws := by
      rw [← List.cons_append, ← List.append_assoc, List.dropLast_concat]
    simp only [replaceByLast, List.concat_eq_append, hlast, set_mid, hdrop]
    exact List.Perm.append_left ys (List.perm_append_singleton last ws).symm

/-- The member at a number, and what taking it out and replacing it do to the others. -/
theorem exists_of_pick (h : pick xs i = some a) : ∃ rest, xs.Perm (a :: rest) ∧
    (replaceByLast xs (i % xs.length)).Perm rest ∧
    ∀ b, (xs.set (i % xs.length) b).Perm (b :: rest) := by
  obtain ⟨hlt, hget⟩ := List.getElem?_eq_some_iff.1 h
  obtain ⟨ys, zs, hxs, hi⟩ : ∃ ys zs, xs = ys ++ a :: zs ∧ i % xs.length = ys.length := by
    refine ⟨xs.take (i % xs.length), xs.drop (i % xs.length + 1), ?_, ?_⟩
    · rw [← hget, ← List.drop_eq_getElem_cons hlt, List.take_append_drop]
    · rw [List.length_take, Nat.min_eq_left (Nat.le_of_lt hlt)]
  rw [hi, hxs]
  refine ⟨ys ++ zs, List.perm_middle, replaceByLast_perm ys zs, fun b => ?_⟩
  rw [set_mid]
  exact List.perm_middle

end

/-! ### Edges -/

/-- Some edges with their ends are those that a history has left over. -/
structure ReflectsEdges (edges : List ModelEdge) (past : History Nat Nat) : Prop where
  /-- No edge is there twice. -/
  nodup : (edges.map ModelEdge.edge).Nodup
  /-- The edges are those that are live, with the ends they were last given. -/
  mem_iff : ∀ e, e ∈ edges ↔ History.EdgeLive e.edge past ∧
    ∀ dir, History.edgeEnd? e.edge dir past = some (e.ends.get dir)

namespace ReflectsEdges

variable {edges edges' : List ModelEdge} {e : ModelEdge} {past : History Nat Nat}

/-- The order of the edges is of no consequence. -/
theorem perm (h : ReflectsEdges edges past) (hperm : edges.Perm edges') :
    ReflectsEdges edges' past where
  nodup := (hperm.map _).nodup_iff.1 h.nodup
  mem_iff e := hperm.mem_iff.symm.trans (h.mem_iff e)

/-- Edges reflect a history after a new one was added to both. -/
theorem newEdge (h : ReflectsEdges edges past) {edge : EdgeHandle}
    (hnew : ¬ History.EdgeLive edge past) (ends : DirPair NodeHandle) (data : Nat) :
    ReflectsEdges (⟨edge, ends⟩ :: edges) (.addEdge edge ends data :: past) := by
  have hne : ∀ e ∈ edges, e.edge ≠ edge := by
    rintro e he rfl
    exact hnew ((h.mem_iff e).1 he).1
  refine ⟨?_, fun e => ?_⟩
  · rw [List.map_cons, List.nodup_cons]
    refine ⟨fun hmem => ?_, h.nodup⟩
    obtain ⟨e, he, heq⟩ := List.mem_map.1 hmem
    exact hne e he heq
  · rw [List.mem_cons]
    simp only [History.EdgeLive, History.edgeEnd?]
    by_cases hedge : e.edge = edge
    · simp only [hedge, true_or, if_true, true_and, Option.some.injEq]
      constructor
      · rintro (rfl | he)
        · exact fun _ => rfl
        · exact absurd hedge (hne e he)
      · intro hends
        left
        rw [← hedge, DirPair.ext_get hends]
    · simp only [hedge, false_or, if_false]
      rw [← h.mem_iff e, or_iff_right]
      rintro rfl
      exact hedge rfl

/-- Edges reflect a history after one was removed from both. -/
theorem deleteEdge (h : ReflectsEdges (e :: edges) past) :
    ReflectsEdges edges (.removeEdge e.edge :: past) := by
  have hnodup := h.nodup
  rw [List.map_cons, List.nodup_cons] at hnodup
  refine ⟨hnodup.2, fun e' => ?_⟩
  simp only [History.EdgeLive, History.edgeEnd?]
  rw [and_assoc, ← h.mem_iff e', List.mem_cons]
  constructor
  · intro he'
    exact ⟨fun heq => hnodup.1 (heq ▸ List.mem_map_of_mem he'), .inr he'⟩
  · rintro ⟨hne, rfl | he'⟩
    · exact absurd rfl hne
    · exact he'

/-- A node leaves with all edges it is an end of. -/
theorem deleteNode (h : ReflectsEdges edges past) (node : NodeHandle) :
    ReflectsEdges (edges.filter fun e => e.ends.up != node && e.ends.down != node)
      (.removeNode node :: past) where
  nodup := (List.filter_sublist.map _).nodup h.nodup
  mem_iff e := by
    simp only [List.mem_filter, Bool.and_eq_true, bne_iff_ne, History.EdgeLive, History.edgeEnd?]
    rw [h.mem_iff e]
    constructor
    · rintro ⟨⟨hlive, hends⟩, hup, hdown⟩
      refine ⟨⟨fun dir => ?_, hlive⟩, hends⟩
      rw [hends, ne_eq, Option.some.injEq]
      cases dir with
      | up => exact hup
      | down => exact hdown
    · rintro ⟨⟨hne, hlive⟩, hends⟩
      refine ⟨⟨hlive, hends⟩, fun heq => hne .up ?_, fun heq => hne .down ?_⟩
      · rw [hends, ← heq]
        rfl
      · rw [hends, ← heq]
        rfl

/-- Edges reflect a history after an end of one was moved in both. -/
theorem setEnd (h : ReflectsEdges (e :: edges) past) (dir : Direction) (node : NodeHandle) :
    ReflectsEdges ({ e with ends := e.ends.set dir node } :: edges)
      (.moveEnd e.edge dir node :: past) := by
  have hnodup := h.nodup
  rw [List.map_cons, List.nodup_cons] at hnodup
  refine ⟨h.nodup, fun e' => ?_⟩
  have hold := h.mem_iff e'
  simp only [History.EdgeLive, History.edgeEnd?]
  by_cases hedge : e'.edge = e.edge
  · obtain ⟨hlive, hends⟩ := (h.mem_iff e).1 List.mem_cons_self
    have hnot : e' ∉ edges := fun hmem => hnodup.1 (hedge ▸ List.mem_map_of_mem hmem)
    rw [List.mem_cons, or_iff_left hnot, hedge, and_iff_right hlive]
    constructor
    · rintro rfl dir'
      by_cases hdir : dir' = dir
      · simp [hdir]
      · simp [hdir, hends, DirPair.get_set_of_ne _ _ (Ne.symm hdir)]
    · intro hends'
      have hset : e'.ends = e.ends.set dir node := by
        refine DirPair.ext_get fun dir' => ?_
        have hend := hends' dir'
        by_cases hdir : dir' = dir
        · simpa [hdir] using hend.symm
        · rw [DirPair.get_set_of_ne _ _ (Ne.symm hdir)]
          simpa [hdir, hends] using hend.symm
      rw [← hset, ← hedge]
  · simp only [hedge, false_and, if_false]
    rw [← hold, List.mem_cons, List.mem_cons]
    refine or_congr ⟨fun heq => ?_, fun heq => ?_⟩ Iff.rfl
    · exact absurd (congrArg ModelEdge.edge heq) hedge
    · exact absurd (congrArg ModelEdge.edge heq) hedge

end ReflectsEdges

/-! ### Models -/

/-- A model is what a history has left over. -/
structure Model.Reflects (model : Model) (past : History Nat Nat) : Prop where
  /-- No node is there twice. -/
  nodup_nodes : model.nodes.Nodup
  /-- The nodes are those that are live. -/
  mem_nodes : ∀ node, node ∈ model.nodes ↔ History.NodeLive node past
  /-- The edges. -/
  edges : ReflectsEdges model.edges past
  /-- No marker is there twice. -/
  nodup_markers : model.markers.Nodup
  /-- The markers are those in use. -/
  mem_markers : ∀ marker, marker ∈ model.markers ↔ marker ∈ History.markers past
  /-- The marked nodes. -/
  mem_marked : ∀ marker node, (marker, node) ∈ model.marked ↔
    marker ∈ model.markers ∧ node ∈ model.nodes ∧ History.Marked marker ⟨.node, node⟩ past

namespace Model.Reflects

variable {model : Model} {past : History Nat Nat} {node : NodeHandle} {edge : EdgeHandle}
  {marker : Marker}

/-- The empty model reflects the empty history. -/
theorem empty : ({} : Model).Reflects [] where
  nodup_nodes := List.nodup_nil
  mem_nodes node := by simp [History.NodeLive]
  edges := ⟨List.nodup_nil, fun e => by simp [History.EdgeLive]⟩
  nodup_markers := List.nodup_nil
  mem_markers marker := by simp [History.markers]
  mem_marked marker node := by simp

/-- A node is marked in the model exactly if it is in the history. -/
theorem isMarked_iff (h : model.Reflects past) (hm : marker ∈ model.markers)
    (hn : node ∈ model.nodes) :
    model.isMarked marker node = true ↔ History.Marked marker ⟨.node, node⟩ past := by
  rw [isMarked, List.contains_iff_mem, h.mem_marked, and_iff_right hm, and_iff_right hn]

/-! ### Nodes and edges -/

/-- The model reflects the history after a node was added to both. -/
theorem newNode (h : model.Reflects past) (hnew : ¬ History.NodeLive node past) (data : Nat) :
    { model with nodes := model.nodes ++ [node] }.Reflects (.addNode node data :: past) where
  nodup_nodes := by
    refine (List.perm_append_singleton _ _).nodup_iff.2 (List.nodup_cons.2 ⟨?_, h.nodup_nodes⟩)
    rwa [h.mem_nodes]
  mem_nodes node' := by
    rw [List.mem_append, List.mem_singleton, h.mem_nodes, or_comm]
    rfl
  edges := ⟨h.edges.nodup, h.edges.mem_iff⟩
  nodup_markers := h.nodup_markers
  mem_markers := h.mem_markers
  mem_marked marker node' := by
    rw [h.mem_marked, List.mem_append, List.mem_singleton]
    simp only [History.Marked, ne_eq, Sigma.mk.injEq, heq_eq_eq, true_and]
    by_cases hnode : node' = node
    · subst hnode
      simp [h.mem_nodes, hnew]
    · simp [hnode]

/-- The model reflects the history after an edge was added to both. -/
theorem newEdge (h : model.Reflects past) (hnew : ¬ History.EdgeLive edge past)
    (ends : DirPair NodeHandle) (data : Nat) :
    ({ model with edges := model.edges ++ [⟨edge, ends⟩] } : Model).Reflects
      (.addEdge edge ends data :: past) where
  nodup_nodes := h.nodup_nodes
  mem_nodes := h.mem_nodes
  edges := (h.edges.newEdge hnew ends data).perm (List.perm_append_singleton _ _).symm
  nodup_markers := h.nodup_markers
  mem_markers := h.mem_markers
  mem_marked marker node' := by
    rw [h.mem_marked]
    simp [History.Marked]

/-- The model reflects the history after a node was removed from both, with its edges and marks. -/
theorem deleteNode (h : model.Reflects past) (node : NodeHandle) :
    { model with
      nodes := model.nodes.filter (· != node)
      edges := model.edges.filter fun e => e.ends.up != node && e.ends.down != node
      marked := model.marked.filter (·.2 != node) }.Reflects (.removeNode node :: past) where
  nodup_nodes := h.nodup_nodes.filter _
  mem_nodes node' := by
    rw [List.mem_filter, h.mem_nodes, and_comm, bne_iff_ne]
    rfl
  edges := h.edges.deleteNode node
  nodup_markers := h.nodup_markers
  mem_markers := h.mem_markers
  mem_marked marker node' := by
    simp only [List.mem_filter, h.mem_marked, bne_iff_ne, History.Marked]
    constructor
    · rintro ⟨⟨hm, hn, hmarked⟩, hne⟩
      exact ⟨hm, ⟨hn, hne⟩, hmarked⟩
    · rintro ⟨hm, ⟨hn, hne⟩, hmarked⟩
      exact ⟨⟨hm, hn, hmarked⟩, hne⟩

/-- The model reflects the history after an edge was removed from both. -/
theorem deleteEdge (h : model.Reflects past) {i : Nat} {e : ModelEdge}
    (he : model.edge? i = some e) :
    { model with edges := replaceByLast model.edges (i % model.edges.length) }.Reflects
      (.removeEdge e.edge :: past) where
  nodup_nodes := h.nodup_nodes
  mem_nodes := h.mem_nodes
  edges := by
    obtain ⟨rest, hedges, hremoved, -⟩ := exists_of_pick he
    exact (h.edges.perm hedges).deleteEdge.perm hremoved.symm
  nodup_markers := h.nodup_markers
  mem_markers := h.mem_markers
  mem_marked := h.mem_marked

/-- The model reflects the history after an end of an edge was moved in both. -/
theorem setEnd (h : model.Reflects past) {i : Nat} {e : ModelEdge}
    (he : model.edge? i = some e) (dir : Direction) (node : NodeHandle) :
    (model.setEdge i { e with ends := e.ends.set dir node }).Reflects
      (.moveEnd e.edge dir node :: past) where
  nodup_nodes := h.nodup_nodes
  mem_nodes := h.mem_nodes
  edges := by
    obtain ⟨rest, hedges, -, hset⟩ := exists_of_pick he
    exact ((h.edges.perm hedges).setEnd dir node).perm (hset _).symm
  nodup_markers := h.nodup_markers
  mem_markers := h.mem_markers
  mem_marked := h.mem_marked

/-! ### Markers -/

/-- The model reflects the history after a marker was granted in both. -/
theorem newMarker (h : model.Reflects past) (hnew : marker ∉ History.markers past) :
    { model with markers := model.markers ++ [marker] }.Reflects
      (.grantMarker marker :: past) where
  nodup_nodes := h.nodup_nodes
  mem_nodes := h.mem_nodes
  edges := ⟨h.edges.nodup, h.edges.mem_iff⟩
  nodup_markers := by
    refine (List.perm_append_singleton _ _).nodup_iff.2 (List.nodup_cons.2 ⟨?_, h.nodup_markers⟩)
    rwa [h.mem_markers]
  mem_markers marker' := by
    rw [List.mem_append, List.mem_singleton, h.mem_markers, or_comm, History.markers,
      List.mem_cons]
  mem_marked marker' node := by
    rw [h.mem_marked, List.mem_append, List.mem_singleton]
    simp only [History.Marked]
    by_cases hmarker : marker' = marker
    · subst hmarker
      simp [h.mem_markers, hnew]
    · simp [hmarker]

/-- The model reflects the history after a marker was taken back in both, with its marks. -/
theorem freeMarker (h : model.Reflects past) (hnodup : (History.markers past).Nodup)
    (marker : Marker) :
    { model with
      markers := model.markers.filter (· != marker)
      marked := model.marked.filter (·.1 != marker) }.Reflects (.freeMarker marker :: past) where
  nodup_nodes := h.nodup_nodes
  mem_nodes := h.mem_nodes
  edges := ⟨h.edges.nodup, h.edges.mem_iff⟩
  nodup_markers := h.nodup_markers.filter _
  mem_markers marker' := by
    rw [List.mem_filter, h.mem_markers, and_comm, bne_iff_ne, History.markers,
      hnodup.mem_erase_iff]
  mem_marked marker' node := by
    simp only [List.mem_filter, h.mem_marked, bne_iff_ne, History.Marked]
    constructor
    · rintro ⟨⟨hm, hn, hmarked⟩, hne⟩
      exact ⟨⟨hm, hne⟩, hn, hmarked⟩
    · rintro ⟨⟨hm, hne⟩, hn, hmarked⟩
      exact ⟨⟨hm, hn, hmarked⟩, hne⟩

/-- The model reflects the history after a node was marked in both. -/
theorem mark (h : model.Reflects past) (hm : marker ∈ model.markers) (hn : node ∈ model.nodes) :
    (if model.isMarked marker node then model
      else { model with marked := (marker, node) :: model.marked }).Reflects
      (.mark ⟨.node, node⟩ marker :: past) := by
  have hself := h.isMarked_iff hm hn
  have hmarked : ∀ marker' node', History.Marked marker' ⟨.node, node'⟩
      (.mark ⟨.node, node⟩ marker :: past) ↔
      (marker', node') = (marker, node) ∨ History.Marked marker' ⟨.node, node'⟩ past := by
    intro marker' node'
    simp only [History.Marked, Sigma.mk.injEq, heq_eq_eq, true_and, Prod.mk.injEq]
    rw [and_comm]
  split
  · rename_i hwas
    refine ⟨h.nodup_nodes, h.mem_nodes, ⟨h.edges.nodup, h.edges.mem_iff⟩, h.nodup_markers,
      h.mem_markers, fun marker' node' => ?_⟩
    rw [h.mem_marked, hmarked, or_iff_right_of_imp]
    intro heq
    obtain ⟨rfl, rfl⟩ := Prod.mk.inj heq
    exact hself.1 hwas
  · refine ⟨h.nodup_nodes, h.mem_nodes, ⟨h.edges.nodup, h.edges.mem_iff⟩, h.nodup_markers,
      h.mem_markers, fun marker' node' => ?_⟩
    rw [List.mem_cons, h.mem_marked, hmarked]
    constructor
    · rintro (heq | ⟨hm', hn', hmark⟩)
      · obtain ⟨rfl, rfl⟩ := Prod.mk.inj heq
        exact ⟨hm, hn, .inl rfl⟩
      · exact ⟨hm', hn', .inr hmark⟩
    · rintro ⟨hm', hn', heq | hmark⟩
      · exact .inl heq
      · exact .inr ⟨hm', hn', hmark⟩

/-- The model reflects the history after a node was unmarked in both. -/
theorem unmark (h : model.Reflects past) (marker : Marker) (node : NodeHandle) :
    { model with marked := model.marked.filter (· != (marker, node)) }.Reflects
      (.unmark ⟨.node, node⟩ marker :: past) where
  nodup_nodes := h.nodup_nodes
  mem_nodes := h.mem_nodes
  edges := ⟨h.edges.nodup, h.edges.mem_iff⟩
  nodup_markers := h.nodup_markers
  mem_markers := h.mem_markers
  mem_marked marker' node' := by
    have hne : ¬ ((⟨.node, node'⟩ : AnyHandle) = ⟨.node, node⟩ ∧ marker' = marker) ↔
        (marker', node') ≠ (marker, node) := by
      simp only [Sigma.mk.injEq, heq_eq_eq, true_and, ne_eq, Prod.mk.injEq]
      rw [and_comm]
    simp only [List.mem_filter, h.mem_marked, bne_iff_ne, History.Marked]
    rw [hne]
    constructor
    · rintro ⟨⟨hm, hn, hmarked⟩, hne⟩
      exact ⟨hm, hn, hne, hmarked⟩
    · rintro ⟨hm, hn, hne, hmarked⟩
      exact ⟨⟨hm, hn, hmarked⟩, hne⟩

end Model.Reflects

end SlabGraph
