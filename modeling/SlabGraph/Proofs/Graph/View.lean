import SlabGraph.Graph.Basic
import SlabGraph.Proofs.Graph.Population

/-!
# Views of a Graph

A view is a graph without its storage: who the nodes and the edges are, which edges stand in
which list of which node and in what order, and the ledgers. Every operation that changes a
graph is, seen on the view, one of a few plain changes, and what is to be said about handles,
markers and degrees is said about these.

`View.Consistent` is the structural invariant in its plain form. The ends of edges are nodes,
and an edge stands in a list of a node exactly if the node is its end on that side. Each change
preserves it under the conditions that the operations check.

## Main definitions

* `View`, `View.Consistent`;
* `View.newNode`, `View.newEdge`, `View.prune`, `View.removeNode`, `View.retarget`.

## Main results

* `View.Consistent.newNode`, `Consistent.newEdge`, `Consistent.prune`,
  `Consistent.removeNode`, `Consistent.retarget`: the changes preserve consistency.
-/

namespace SlabGraph

/-- A graph without its storage. -/
@[ext]
structure View (N E : Type) where
  /-- The number of the graph. -/
  id : GraphId
  /-- The nodes. -/
  nodes : Population Unit N
  /-- The edges with their ends. -/
  edges : Population (DirPair Ptr) E
  /-- The edge lists of the nodes. -/
  inc : Ptr → Direction → List Ptr
  /-- The ledger of the markers. -/
  markers : TagLedger .marker
  /-- The ledger of the numerations. -/
  nums : TagLedger .numeration

namespace View

variable {N E : Type} {V : View N E}

/-- The structural invariant of a graph. -/
structure Consistent (V : View N E) : Prop where
  /-- The nodes. -/
  nodes : V.nodes.Consistent
  /-- The edges. -/
  edges : V.edges.Consistent
  /-- The ends of edges are nodes. -/
  ends : ∀ e b, V.edges.body e = some b → ∀ dir,
    (V.nodes.body (b.incidence.get dir)).isSome = true
  /-- An edge is in the `dir` list of the node at its `dir.rev` end, and in no other. -/
  inc_iff : ∀ n dir e, e ∈ V.inc n dir ↔
    ∃ b, V.edges.body e = some b ∧ b.incidence.get dir.rev = n

/-! ### Changes -/

/-- Replaces a list of a node. -/
def setInc (V : View N E) (n : Ptr) (dir : Direction) (xs : List Ptr) : View N E :=
  { V with inc := fun m d => if m = n ∧ d = dir then xs else V.inc m d }

/-- An edge is put in front of a list of a node, that of the edges with this `dir` end. -/
def link (V : View N E) (e : Ptr) (dir : Direction) (n : Ptr) : View N E :=
  V.setInc n dir.rev (e :: V.inc n dir.rev)

/-- An edge is taken off a list of a node, that of the edges with this `dir` end. -/
def unlink (V : View N E) (e : Ptr) (dir : Direction) (n : Ptr) : View N E :=
  V.setInc n dir.rev ((V.inc n dir.rev).filter (· != e))

/-- A node is added in a slot. -/
def newNode (V : View N E) (p : Ptr) (data : N) : View N E :=
  { V with nodes := V.nodes.add p ⟨V.nodes.next, (), .clean, data⟩ }

/-- The id of a node is used up. -/
def skipNode (V : View N E) : View N E := { V with nodes := V.nodes.skip }

/-- The id of an edge is used up. -/
def skipEdge (V : View N E) : View N E := { V with edges := V.edges.skip }

/-- An edge is added in a slot, in no list of a node yet. -/
def addEdge (V : View N E) (p : Ptr) (ends : DirPair Ptr) (data : E) : View N E :=
  { V with edges := V.edges.add p ⟨V.edges.next, ends, .clean, data⟩ }

/-- An edge is added in a slot, in front of the lists at its ends. -/
def newEdge (V : View N E) (p : Ptr) (ends : DirPair Ptr) (data : E) : View N E :=
  { V.addEdge p ends data with
    inc := fun n dir => if n = ends.get dir.rev then p :: V.inc n dir else V.inc n dir }

/-- Some edges are kept, and the others leave all lists. -/
def prune (V : View N E) (k : Ptr → Bool) : View N E :=
  { V with edges := V.edges.keep k, inc := fun n dir => (V.inc n dir).filter k }

/-- A node leaves with all edges it is an end of. -/
def removeNode (V : View N E) (n : Ptr) : View N E :=
  { V.prune fun e => !(V.inc n .down).contains e && !(V.inc n .up).contains e with
    nodes := V.nodes.keep (· != n) }

/-- What stands in the slot of a node is altered. -/
def writeNode (V : View N E) (n : Ptr) (k : Body Unit N → Body Unit N) : View N E :=
  { V with nodes := V.nodes.write n k }

/-- What stands in the slot of an edge is altered. -/
def writeEdge (V : View N E) (e : Ptr)
    (k : Body (DirPair Ptr) E → Body (DirPair Ptr) E) : View N E :=
  { V with edges := V.edges.write e k }

/-- The record of an edge gets another end. -/
def setEnd (V : View N E) (e : Ptr) (dir : Direction) (m : Ptr) : View N E :=
  V.writeEdge e fun b => { b with incidence := b.incidence.set dir m }

/-- An edge gets another end, and moves to the front of a list there. -/
def retarget (V : View N E) (e : Ptr) (dir : Direction) (m : Ptr) : View N E :=
  { V.setEnd e dir m with
    inc := fun n d =>
      if d = dir.rev then
        if n = m then e :: (V.inc n d).filter (· != e) else (V.inc n d).filter (· != e)
      else V.inc n d }

/-- All nodes and edges leave. -/
def clear (V : View N E) : View N E :=
  { V.prune (fun _ => false) with nodes := V.nodes.keep fun _ => false }

/-- The tags of all nodes and edges are altered. -/
def mapAreas (V : View N E) (f : TagArea → TagArea) : View N E :=
  { V with
    nodes := V.nodes.alter fun _ b => { b with area := f b.area }
    edges := V.edges.alter fun _ b => { b with area := f b.area } }

/-- The list of a node that was replaced. -/
theorem inc_setInc_self (n : Ptr) (dir : Direction) (xs : List Ptr) :
    (V.setInc n dir xs).inc n dir = xs := if_pos ⟨rfl, rfl⟩

/-- Replacing a list of a node leaves all other lists alone. -/
theorem inc_setInc_of_ne {n m : Ptr} {dir d : Direction} (xs : List Ptr)
    (h : ¬ (m = n ∧ d = dir)) : (V.setInc n dir xs).inc m d = V.inc m d := if_neg h

@[simp] theorem nodes_unlink (e n : Ptr) (dir : Direction) :
    (V.unlink e dir n).nodes = V.nodes := rfl

@[simp] theorem edges_unlink (e n : Ptr) (dir : Direction) :
    (V.unlink e dir n).edges = V.edges := rfl

@[simp] theorem nodes_setEnd (e m : Ptr) (dir : Direction) :
    (V.setEnd e dir m).nodes = V.nodes := rfl

@[simp] theorem inc_setEnd (e m : Ptr) (dir : Direction) :
    (V.setEnd e dir m).inc = V.inc := rfl

/-- The record of the edge has the new end. -/
theorem body_setEnd_self (e m : Ptr) (dir : Direction) :
    (V.setEnd e dir m).edges.body e =
      (V.edges.body e).map fun b => { b with incidence := b.incidence.set dir m } := by
  simp [setEnd, writeEdge, Population.body_write]

/-- Giving an edge another end neither takes nor frees a slot. -/
theorem body_setEnd_eq_none_iff (e m : Ptr) (dir : Direction) (q : Ptr) :
    (V.setEnd e dir m).edges.body q = none ↔ V.edges.body q = none := by
  have hsome : ((V.setEnd e dir m).edges.body q).isSome = (V.edges.body q).isSome :=
    Population.isSome_body_write e _ q
  rw [← Option.isNone_iff_eq_none, ← Option.isNone_iff_eq_none, ← Option.not_isSome,
    ← Option.not_isSome, hsome]

/-- A handle of an edge finds the record with the new end, or the record it found before. -/
theorem find?_setEnd (e m : Ptr) (dir : Direction) {x : EdgeHandle} {b : Body (DirPair Ptr) E}
    (hb : V.edges.find? V.id x = some b) :
    (V.setEnd e dir m).edges.find? V.id x =
      some (if x.slot = e then { b with incidence := b.incidence.set dir m } else b) := by
  refine (Population.find?_write ?_).trans ?_
  · exact fun _ => rfl
  · rw [hb]
    split <;> rfl

/-- A new edge is one that is added and linked at both ends. -/
theorem newEdge_eq (V : View N E) (p : Ptr) (ends : DirPair Ptr) (data : E) :
    V.newEdge p ends data =
      ((V.addEdge p ends data).link p .up (ends.get .up)).link p .down (ends.get .down) := by
  refine View.ext rfl rfl rfl ?_ rfl rfl
  funext n dir
  by_cases hn : n = ends.get dir.rev
  · subst hn
    cases dir <;> simp [newEdge, addEdge, link, setInc, Direction.rev]
  · cases dir <;> simp_all [newEdge, addEdge, link, setInc, Direction.rev]

/-- Keeping some edges, and then some of them, is keeping those that pass both times. -/
theorem prune_prune (V : View N E) (k l : Ptr → Bool) :
    (V.prune k).prune l = V.prune fun p => k p && l p := by
  unfold prune
  simp [Population.keep_keep, List.filter_filter, Bool.and_comm]

/-! ### The changes preserve consistency -/

namespace Consistent

/-- An edge on a list of a node has the node as its end. -/
theorem body_of_mem_inc (h : V.Consistent) {n e : Ptr} {dir : Direction}
    (he : e ∈ V.inc n dir) : ∃ b, V.edges.body e = some b ∧ b.incidence.get dir.rev = n :=
  (h.inc_iff n dir e).1 he

/-- An edge on a list of a node exists. -/
theorem isSome_of_mem_inc (h : V.Consistent) {n e : Ptr} {dir : Direction}
    (he : e ∈ V.inc n dir) : (V.edges.body e).isSome = true := by
  obtain ⟨b, hb, -⟩ := h.body_of_mem_inc he
  rw [hb]
  rfl

/-- Nothing stands in the lists of a free slot. -/
theorem inc_of_free (h : V.Consistent) {n : Ptr} (hn : V.nodes.body n = none)
    (dir : Direction) : V.inc n dir = [] := by
  refine List.eq_nil_iff_forall_not_mem.2 fun e he => ?_
  obtain ⟨b, hb, hend⟩ := h.body_of_mem_inc he
  have hlive := h.ends e b hb dir.rev
  simp [hend, hn] at hlive

/-- A slot without an edge is in no list. -/
theorem not_mem_inc_of_free (h : V.Consistent) {e : Ptr} (he : V.edges.body e = none) (n : Ptr)
    (dir : Direction) : e ∉ V.inc n dir := by
  intro hmem
  obtain ⟨b, hb, -⟩ := h.body_of_mem_inc hmem
  simp [he] at hb

/-- An edge is in one list for each direction. -/
theorem eq_of_mem_inc (h : V.Consistent) {n m e : Ptr} {dir : Direction} (hn : e ∈ V.inc n dir)
    (hm : e ∈ V.inc m dir) : n = m := by
  obtain ⟨b, hb, rfl⟩ := h.body_of_mem_inc hn
  obtain ⟨c, hc, rfl⟩ := h.body_of_mem_inc hm
  obtain rfl : b = c := Option.some.inj (hb.symm.trans hc)
  rfl

/-- A view stays consistent when the id of a node is used up. -/
theorem skipNode (h : V.Consistent) : V.skipNode.Consistent :=
  ⟨h.nodes.skip, h.edges, h.ends, h.inc_iff⟩

/-- A view stays consistent when the id of an edge is used up. -/
theorem skipEdge (h : V.Consistent) : V.skipEdge.Consistent :=
  ⟨h.nodes, h.edges.skip, h.ends, h.inc_iff⟩

/-- Taking an edge off a list changes nothing unless the node is the end of the edge. -/
theorem filter_inc (h : V.Consistent) {e n : Ptr} {b : Body (DirPair Ptr) E} {d : Direction}
    (hb : V.edges.body e = some b) (hn : b.incidence.get d.rev ≠ n) :
    (V.inc n d).filter (· != e) = V.inc n d := by
  refine List.filter_eq_self.2 fun q hq => ?_
  have hne : q ≠ e := by
    rintro rfl
    obtain ⟨c, hc, hend⟩ := h.body_of_mem_inc hq
    obtain rfl : b = c := Option.some.inj (hb.symm.trans hc)
    exact hn hend
  simpa using hne

/-- An edge that leaves all lists is one that is unlinked at both ends and taken out. -/
theorem prune_eq (h : V.Consistent) {e : Ptr} {b : Body (DirPair Ptr) E}
    (hb : V.edges.body e = some b) :
    V.prune (· != e) =
      { (V.unlink e .up (b.incidence.get .up)).unlink e .down (b.incidence.get .down) with
        edges := V.edges.keep (· != e) } := by
  refine View.ext rfl rfl rfl ?_ rfl rfl
  funext n dir
  by_cases hn : b.incidence.get dir.rev = n
  · subst hn
    cases dir <;> simp [View.prune, unlink, setInc, Direction.rev]
  · have hfilter := h.filter_inc hb hn
    have hn' := Ne.symm hn
    cases dir <;> simp_all [View.prune, unlink, setInc, Direction.rev]

/-- Retargeting is unlinking, replacing the end and linking. -/
theorem retarget_eq (h : V.Consistent) {e : Ptr} {b : Body (DirPair Ptr) E} {dir : Direction}
    (hb : V.edges.body e = some b) (m : Ptr) :
    V.retarget e dir m =
      ((V.unlink e dir (b.incidence.get dir)).setEnd e dir m).link e dir m := by
  refine View.ext rfl rfl rfl ?_ rfl rfl
  funext n d
  by_cases hd : d = dir.rev
  · subst hd
    by_cases hn : b.incidence.get dir = n
    · subst hn
      by_cases hm : b.incidence.get dir = m
      · simp [View.retarget, View.setEnd, View.writeEdge, link, unlink, setInc, hm]
      · simp [View.retarget, View.setEnd, View.writeEdge, link, unlink, setInc, hm]
    · have hfilter := h.filter_inc (d := dir.rev) hb (by simpa using hn)
      by_cases hm : n = m
      · subst hm
        simp [View.retarget, View.setEnd, View.writeEdge, link, unlink, setInc, hfilter, Ne.symm hn]
      · simp [View.retarget, View.setEnd, View.writeEdge, link, unlink, setInc, hfilter, hm,
          Ne.symm hn]
  · simp [View.retarget, View.setEnd, View.writeEdge, link, unlink, setInc, hd]

/-- A view stays consistent when a node is added in a free slot. -/
theorem newNode (h : V.Consistent) {p : Ptr} (data : N) (hp : V.nodes.body p = none) :
    (V.newNode p data).Consistent where
  nodes := h.nodes.add hp rfl
  edges := h.edges
  ends e b hb dir := by
    change ((V.nodes.add p _).body _).isSome = true
    by_cases hq : b.incidence.get dir = p
    · rw [hq, Population.body_add_self]
      rfl
    · rw [Population.body_add_of_ne _ hq]
      exact h.ends e b hb dir
  inc_iff := h.inc_iff

/-- A view stays consistent when an edge between nodes is added in a free slot. -/
theorem newEdge (h : V.Consistent) {p : Ptr} {ends : DirPair Ptr} (data : E)
    (hp : V.edges.body p = none)
    (hends : ∀ dir, (V.nodes.body (ends.get dir)).isSome = true) :
    (V.newEdge p ends data).Consistent where
  nodes := h.nodes
  edges := h.edges.add hp rfl
  ends e b hb dir := by
    change (V.edges.add p _).body e = some b at hb
    by_cases he : e = p
    · subst he
      rw [Population.body_add_self, Option.some.injEq] at hb
      rw [← hb]
      exact hends dir
    · rw [Population.body_add_of_ne _ he] at hb
      exact h.ends e b hb dir
  inc_iff n dir e := by
    change e ∈ (if n = ends.get dir.rev then p :: V.inc n dir else V.inc n dir) ↔
      ∃ b, (V.edges.add p _).body e = some b ∧ b.incidence.get dir.rev = n
    by_cases he : e = p
    · subst he
      have hnot := h.not_mem_inc_of_free hp n dir
      rw [Population.body_add_self]
      by_cases hn : n = ends.get dir.rev
      · simp [hn]
      · simp [hn, hnot, Ne.symm hn]
    · rw [Population.body_add_of_ne _ he, ← h.inc_iff n dir e]
      by_cases hn : n = ends.get dir.rev
      · rw [if_pos hn, List.mem_cons, or_iff_right he]
      · rw [if_neg hn]

/-- A view stays consistent when only some edges are kept. -/
theorem prune (h : V.Consistent) (k : Ptr → Bool) : (V.prune k).Consistent where
  nodes := h.nodes
  edges := h.edges.keep k
  ends e b hb dir := by
    change (if k e then V.edges.body e else none) = some b at hb
    cases hk : k e with
    | true => exact h.ends e b (by simpa [hk] using hb) dir
    | false => simp [hk] at hb
  inc_iff n dir e := by
    change e ∈ (V.inc n dir).filter k ↔
      ∃ b, (if k e then V.edges.body e else none) = some b ∧ b.incidence.get dir.rev = n
    rw [List.mem_filter, h.inc_iff n dir e]
    cases hk : k e with
    | true => simp
    | false => simp

/-- A view stays consistent when a node leaves with its edges. -/
theorem removeNode (h : V.Consistent) (n : Ptr) : (V.removeNode n).Consistent where
  nodes := h.nodes.keep _
  edges := (h.prune _).edges
  ends e b hb dir := by
    have hlive := (h.prune _).ends e b hb dir
    change ((V.nodes.keep (· != n)).body _).isSome = true
    change (V.nodes.body _).isSome = true at hlive
    have hne : b.incidence.get dir ≠ n := by
      intro heq
      change (if _ then V.edges.body e else none) = some b at hb
      split at hb
      · rename_i hk
        have hmem : e ∈ V.inc n dir.rev := (h.inc_iff n dir.rev e).2 ⟨b, hb, by simpa using heq⟩
        cases dir <;> simp_all [Direction.rev]
      · simp at hb
    rw [Population.body_keep, if_pos (by simpa using hne)]
    exact hlive
  inc_iff := (h.prune _).inc_iff

/-- A view stays consistent when everything leaves. -/
theorem clear (h : V.Consistent) : V.clear.Consistent where
  nodes := h.nodes.keep _
  edges := h.edges.keep _
  ends e b hb := by simp [View.clear, View.prune, Population.body_keep] at hb
  inc_iff n dir e := by simp [View.clear, View.prune, Population.body_keep]

/-- A view stays consistent when an edge gets another end that is a node. -/
theorem retarget (h : V.Consistent) {e : Ptr} {dir : Direction} {m : Ptr}
    (he : (V.edges.body e).isSome = true) (hm : (V.nodes.body m).isSome = true) :
    (V.retarget e dir m).Consistent where
  nodes := h.nodes
  edges := h.edges.write e fun _ => rfl
  ends q c hc d := by
    obtain ⟨b, hb, rfl⟩ := Option.map_eq_some_iff.1 hc
    have hold := h.ends q b hb d
    change (V.nodes.body (Body.incidence (if q = e then _ else b) |>.get d)).isSome = true
    -- only lists in the direction `dir.rev` change, and only by this edge
    by_cases hq : q = e
    · rw [if_pos hq]
      by_cases hd : dir = d
      · subst hd
        simpa using hm
      · simpa [DirPair.get_set_of_ne _ _ hd] using hold
    · rw [if_neg hq]
      exact hold
  inc_iff n d q := by
    obtain ⟨b, hb⟩ := Option.isSome_iff_exists.1 he
    have hbody : (V.retarget e dir m).edges.body q = (V.edges.body q).map fun b =>
      if q = e then { b with incidence := b.incidence.set dir m } else b := rfl
    have hinc : (V.retarget e dir m).inc n d = if d = dir.rev then
        if n = m then e :: (V.inc n d).filter (· != e) else (V.inc n d).filter (· != e)
      else V.inc n d := rfl
    have hold := h.inc_iff n d q
    rw [hbody, hinc]
    by_cases hq : q = e
    · subst hq
      rw [hb] at hold
      by_cases hd : d = dir.rev
      · subst hd
        by_cases hn : n = m
        · simp [hb, hn]
        · simp [hb, hn, Ne.symm hn]
      · have hdir : dir ≠ d.rev := fun heq => hd (by rw [heq, Direction.rev_rev])
        simpa [hb, hd, DirPair.get_set_of_ne _ _ hdir] using hold
    · have hfilter : q ∈ (V.inc n d).filter (· != e) ↔ q ∈ V.inc n d := by simp [hq]
      by_cases hd : d = dir.rev
      · by_cases hn : n = m
        · simp only [hd, hn, if_true, List.mem_cons, hq, false_or] at hfilter ⊢
          simpa [hq, hd, hn] using hold
        · simpa [hq, hd, hn] using hold
      · simpa [hq, hd] using hold

/-- A view stays consistent when bodies are altered that keep their ids and ends. -/
theorem alter (h : V.Consistent) {nodes : Population Unit N} {edges : Population (DirPair Ptr) E}
    (hnodes : nodes.Consistent) (hedges : edges.Consistent)
    (hnode : ∀ n, (nodes.body n).isSome = (V.nodes.body n).isSome)
    (hends : ∀ e, (edges.body e).map Body.incidence = (V.edges.body e).map Body.incidence) :
    ({ V with nodes, edges } : View N E).Consistent where
  nodes := hnodes
  edges := hedges
  ends e c hc dir := by
    have he := hends e
    rw [show edges.body e = some c from hc, Option.map_some] at he
    obtain ⟨b, hb, hsame⟩ := Option.map_eq_some_iff.1 he.symm
    rw [hnode, ← hsame]
    exact h.ends e b hb dir
  inc_iff n dir e := by
    rw [h.inc_iff]
    have he := hends e
    change _ ↔ ∃ b, edges.body e = some b ∧ b.incidence.get dir.rev = n
    cases hb : V.edges.body e with
    | none =>
        have hc : edges.body e = none := by simpa [hb] using he
        simp [hc]
    | some b =>
        rw [hb, Option.map_some] at he
        obtain ⟨c, hc, hsame⟩ := Option.map_eq_some_iff.1 he
        simp [hc, hsame]

/-- A view stays consistent when the record of a node is altered, but for its id. -/
theorem writeNode (h : V.Consistent) (n : Ptr) {k : Body Unit N → Body Unit N}
    (hk : ∀ b, (k b).uid = b.uid) : (V.writeNode n k).Consistent := by
  refine h.alter (h.nodes.write n hk) h.edges (fun m => ?_) fun _ => rfl
  rw [Population.isSome_body_write]

/-- A view stays consistent when the record of an edge is altered, but for its id and its ends. -/
theorem writeEdge (h : V.Consistent) (e : Ptr) {k : Body (DirPair Ptr) E → Body (DirPair Ptr) E}
    (hk : ∀ b, (k b).uid = b.uid) (hends : ∀ b, (k b).incidence = b.incidence) :
    (V.writeEdge e k).Consistent := by
  refine h.alter h.nodes (h.edges.write e hk) (fun _ => rfl) fun q => ?_
  rw [Population.body_write]
  by_cases hq : q = e
  · rw [if_pos hq, Option.map_map]
    congr 1
    funext b
    exact hends b
  · rw [if_neg hq]

/-- A view stays consistent when tags are altered. -/
theorem mapAreas (h : V.Consistent) (f : TagArea → TagArea) : (V.mapAreas f).Consistent := by
  refine h.alter (h.nodes.alter fun _ _ => rfl) (h.edges.alter fun _ _ => rfl) (fun n => ?_)
    fun e => ?_
  · rw [Population.body_alter, Option.isSome_map]
  · rw [Population.body_alter, Option.map_map]
    rfl

end Consistent

end View

end SlabGraph
