import SlabGraph.Proofs.Frame
import SlabGraph.Proofs.Graph.Shape
import SlabGraph.Proofs.Order

/-!
# Retargeting Edges

To move an end of an edge to a node is to say where the end is from now on. So it makes no
difference to say it twice, and of two such moves it makes no difference which comes first, except
when both put an edge in front of the same list: then the later one is the first of the list, and
this is all that tells the two orders apart (`Graph.RetargetsLawfully`).

The views of the two graphs are compared first. An end is taken off its old list wherever it is,
and taking two edges off a list commutes, so that neighbours, self-loops and lists that are the old
list of one edge and the new one of the other need no cases of their own. Since retargeting keeps
the shape of the pools, graphs of equal views are equal.

## Main definitions

* `Graph.RetargetsLawfully`.

## Main results

* `View.retarget_retarget_self`, `View.retarget_comm`: the laws on views;
* `World.setEnd_lawful`.
-/

namespace SlabGraph

variable {N E : Type}

/-! ### Views -/

namespace Population

variable {κ δ : Type}

/-- Altering what stands in two slots, in either order. -/
theorem write_comm (P : Population κ δ) {p q : Ptr} {k l : Body κ δ → Body κ δ}
    (h : p = q → ∀ b, k (l b) = l (k b)) :
    (P.write p k).write q l = (P.write q l).write p k := by
  have hbody : ((P.write p k).write q l).body = ((P.write q l).write p k).body := by
    funext s
    simp only [body_write]
    by_cases hp : s = p
    · by_cases hq : s = q
      · have hcomm := h (hp.symm.trans hq)
        cases P.body s <;> simp [hp ▸ hq, hp, hcomm]
      · simp [hp, hp ▸ hq]
    · simp [hp]
  exact congrArg (fun body => (⟨P.members, body, P.next, P.limit⟩ : Population κ δ)) hbody

/-- A change that makes no difference the second time is made twice as it is made once. -/
theorem write_write (P : Population κ δ) {p : Ptr} {k : Body κ δ → Body κ δ}
    (h : ∀ b, k (k b) = k b) : (P.write p k).write p k = P.write p k := by
  have hbody : ((P.write p k).write p k).body = (P.write p k).body := by
    funext s
    simp only [body_write]
    by_cases hs : s = p
    · cases P.body s <;> simp [hs, h]
    · simp [hs]
  exact congrArg (fun body => (⟨P.members, body, P.next, P.limit⟩ : Population κ δ)) hbody

end Population

namespace View

variable {V : View N E}

/-- What becomes of the lists when an edge gets another end: it leaves its list, and is at the front
of that of the new end. -/
theorem inc_retarget (e : Ptr) (dir : Direction) (m n : Ptr) (d : Direction) :
    (V.retarget e dir m).inc n d =
      if d = dir.rev then
        if n = m then e :: (V.inc n d).filter (· != e) else (V.inc n d).filter (· != e)
      else V.inc n d := rfl

/-- To say a second time where an end is changes nothing. -/
theorem retarget_retarget_self (V : View N E) (e : Ptr) (dir : Direction) (m : Ptr) :
    (V.retarget e dir m).retarget e dir m = V.retarget e dir m := by
  have hedges : ((V.retarget e dir m).retarget e dir m).edges = (V.retarget e dir m).edges :=
    Population.write_write V.edges fun b => by cases dir <;> rfl
  refine View.ext rfl rfl hedges ?_ rfl rfl
  funext n d
  rw [inc_retarget, inc_retarget]
  by_cases hd : d = dir.rev
  · by_cases hn : n = m <;> simp [hd, hn]
  · simp [hd]

/-- The ends of two edges, or the two ends of one, are told in either order. -/
theorem edges_retarget_comm (V : View N E) {x y : Ptr} {dx dy : Direction} (n m : Ptr)
    (hne : ¬ (x = y ∧ dx = dy)) :
    ((V.retarget x dx n).retarget y dy m).edges = ((V.retarget y dy m).retarget x dx n).edges := by
  refine Population.write_comm V.edges fun hxy b => ?_
  have hdir : dx ≠ dy := fun hdir => hne ⟨hxy, hdir⟩
  cases dx <;> cases dy <;> first | exact absurd rfl hdir | rfl

/-- Two moves that do not end in the same list commute. -/
theorem retarget_comm (V : View N E) {x y : Ptr} {dx dy : Direction} {n m : Ptr}
    (hne : ¬ (x = y ∧ dx = dy)) (hlist : ¬ (dx = dy ∧ n = m)) :
    (V.retarget x dx n).retarget y dy m = (V.retarget y dy m).retarget x dx n := by
  refine View.ext rfl rfl (V.edges_retarget_comm n m hne) ?_ rfl rfl
  funext k d
  simp only [inc_retarget]
  by_cases hd : d = dx.rev ∧ d = dy.rev
  · -- both are taken off the same lists, and at most one of them is put in front of this one
    obtain ⟨rfl, hrev⟩ := hd
    obtain rfl : dx = dy := by simpa using congrArg Direction.rev hrev
    have hxy : x ≠ y := fun hxy => hne ⟨hxy, rfl⟩
    have hnm : n ≠ m := fun hnm => hlist ⟨rfl, hnm⟩
    have hcomm := List.filter_comm (· != x) (· != y) (V.inc k dx.rev)
    by_cases hn : k = n
    · simp [hn, hnm, hn ▸ hcomm, hxy]
    · by_cases hm : k = m
      · simp [hm, Ne.symm hnm, hm ▸ hcomm, Ne.symm hxy]
      · simp [hn, hm, hcomm]
  · -- only one of them is moved between lists of this direction
    by_cases hx : d = dx.rev
    · have hy : d ≠ dy.rev := fun hy => hd ⟨hx, hy⟩
      simp only [if_pos hx, if_neg hy]
    · simp only [if_neg hx]

/-- Edges keep their handles when one of them gets another end. -/
theorem edgeAt_retarget (V : View N E) (e : Ptr) (dir : Direction) (m q : Ptr) :
    (V.retarget e dir m).edgeAt q = V.edgeAt q := by
  have hedge : ∀ q, (V.retarget e dir m).edgeAt q = V.edgeAt q :=
    edgeAt_of_write rfl rfl fun _ => rfl
  exact hedge q

/-- After two moves into one list the later one is its first. -/
theorem inc_retarget_retarget (V : View N E) {x y : Ptr} (hne : x ≠ y) (dir : Direction)
    (n : Ptr) :
    ((V.retarget x dir n).retarget y dir n).inc n dir.rev =
      y :: x :: ((V.inc n dir.rev).filter (· != x)).filter (· != y) := by
  simp [inc_retarget, hne]

/-- Two moves into one list, in either order, differ in this list only. -/
theorem inc_retarget_comm_of_ne (V : View N E) (x y : Ptr) (dir : Direction) {n k : Ptr}
    {d : Direction} (hlist : ¬ (k = n ∧ d = dir.rev)) :
    ((V.retarget x dir n).retarget y dir n).inc k d =
      ((V.retarget y dir n).retarget x dir n).inc k d := by
  simp only [inc_retarget]
  by_cases hd : d = dir.rev
  · have hk : k ≠ n := fun hk => hlist ⟨hk, hd⟩
    simp only [if_pos hd, if_neg hk]
    exact List.filter_comm _ _ _
  · simp only [if_neg hd]

end View

/-! ### Graphs -/

namespace Graph

/-- Moves an end of each of two edges, one after the other. -/
def setEnds (x : EdgeHandle) (dx : Direction) (n : NodeHandle) (y : EdgeHandle) (dy : Direction)
    (m : NodeHandle) : Action (Graph N E) Unit := do
  setEnd x dx n
  setEnd y dy m

/-- What the order and the number of the moves of ends of edges make out. -/
structure RetargetsLawfully (g : Graph N E) : Prop where
  /-- To move an end to where it is, after it was moved there, leaves the graph as it is. -/
  idempotent : ∀ (x : EdgeHandle) (dir : Direction) (n : NodeHandle),
    g.containsEdge x = true → g.containsNode n = true →
      ∃ g', setEnd x dir n g = .ok () g' ∧ setEnd x dir n g' = .ok () g'
  /-- Moves of two ends into two lists leave the same graph in either order. -/
  comm : ∀ (x y : EdgeHandle) (dx dy : Direction) (n m : NodeHandle),
    g.containsEdge x = true → g.containsEdge y = true →
    g.containsNode n = true → g.containsNode m = true →
    (x, dx) ≠ (y, dy) → ¬ (dx = dy ∧ n = m) →
      ∃ g', setEnds x dx n y dy m g = .ok () g' ∧ setEnds y dy m x dx n g = .ok () g'
  /-- Moves of two ends into one list leave the same graph but for the order of the two edges at
  the head of this list, where the later one is the first. -/
  race : ∀ (x y : EdgeHandle) (dir : Direction) (n : NodeHandle),
    g.containsEdge x = true → g.containsEdge y = true → g.containsNode n = true → x ≠ y →
      ∃ gxy gyx rest,
        setEnds x dir n y dir n g = .ok () gxy ∧ setEnds y dir n x dir n g = .ok () gyx ∧
        gxy.walkEdges n (.along dir.rev) = .ok (y :: x :: rest) ∧
        gyx.walkEdges n (.along dir.rev) = .ok (x :: y :: rest) ∧
        gxy.unordered n dir.rev = gyx.unordered n dir.rev

variable {g : Graph N E} {V : View N E}

/-- Moving an end and then another one, maybe of the same edge. -/
theorem Holds.setEnds_run (h : Holds g V) {x y : EdgeHandle} {n m : NodeHandle}
    {b c : Body (DirPair Ptr) E} {u v : Body Unit N} (hx : V.edges.find? V.id x = some b)
    (hy : V.edges.find? V.id y = some c) (hn : V.nodes.find? V.id n = some u)
    (hm : V.nodes.find? V.id m = some v) (dx dy : Direction) :
    ∃ g', setEnds x dx n y dy m g = .ok () g' ∧ g.SameShape g' ∧
      Holds g' ((V.retarget x.slot dx n.slot).retarget y.slot dy m.slot) := by
  obtain ⟨g₁, hrun₁, h₁⟩ := h.setEnd_run hx hn dx
  have hy₁ := View.find?_setEnd x.slot n.slot dx hy
  obtain ⟨g₂, hrun₂, h₂⟩ := h₁.setEnd_run hy₁ hm dy
  have hshape₁ := keeps_setEnd x dx n g
  have hshape₂ := keeps_setEnd y dy m g₁
  rw [Action.after_of_ok hrun₁] at hshape₁
  rw [Action.after_of_ok hrun₂] at hshape₂
  exact ⟨g₂, by simp [setEnds, hrun₁, hrun₂], hshape₁.trans hshape₂, h₂⟩

/-- In a graph that holds a view, retargeting twice is retargeting once, and two retargetings can be
swapped but for the order of one list, if both put their edge at its front. -/
theorem Holds.retargets_lawfully (h : Holds g V) : g.RetargetsLawfully where
  idempotent x dir n hx hn := by
    obtain ⟨b, hb⟩ := h.exists_edge hx
    obtain ⟨c, hc⟩ := h.exists_node hn
    obtain ⟨g₁, hrun₁, h₁⟩ := h.setEnd_run hb hc dir
    have hb₁ := View.find?_setEnd x.slot n.slot dir hb
    obtain ⟨g₂, hrun₂, h₂⟩ := h₁.setEnd_run hb₁ hc dir
    have hshape := keeps_setEnd x dir n g₁
    rw [Action.after_of_ok hrun₂] at hshape
    rw [View.retarget_retarget_self] at h₂
    obtain rfl : g₂ = g₁ := h₁.eq_of_shape h₂ hshape
    exact ⟨g₂, hrun₁, hrun₂⟩
  comm x y dx dy n m hx hy hn hm hne hlist := by
    obtain ⟨b, hb⟩ := h.exists_edge hx
    obtain ⟨c, hc⟩ := h.exists_edge hy
    obtain ⟨u, hu⟩ := h.exists_node hn
    obtain ⟨v, hv⟩ := h.exists_node hm
    obtain ⟨g₁, hrun₁, hshape₁, h₁⟩ := h.setEnds_run hb hc hu hv dx dy
    obtain ⟨g₂, hrun₂, hshape₂, h₂⟩ := h.setEnds_run hc hb hv hu dy dx
    -- equal slots would mean equal handles, which the assumptions exclude
    have hends : ¬ (x.slot = y.slot ∧ dx = dy) := fun hboth =>
      hne (Prod.ext (Population.eq_of_find? hb hc hboth.1) hboth.2)
    have hlists : ¬ (dx = dy ∧ n.slot = m.slot) := fun hboth =>
      hlist ⟨hboth.1, Population.eq_of_find? hu hv hboth.2⟩
    rw [View.retarget_comm V hends hlists] at h₁
    obtain rfl : g₂ = g₁ := h₁.eq_of_shape h₂ (hshape₁.symm.trans hshape₂)
    exact ⟨g₂, hrun₁, hrun₂⟩
  race x y dir n hx hy hn hne := by
    obtain ⟨b, hb⟩ := h.exists_edge hx
    obtain ⟨c, hc⟩ := h.exists_edge hy
    obtain ⟨u, hu⟩ := h.exists_node hn
    have hslot : x.slot ≠ y.slot := fun heq => hne (Population.eq_of_find? hb hc heq)
    obtain ⟨gxy, hrun₁, hshape₁, h₁⟩ := h.setEnds_run hb hc hu hu dir dir
    obtain ⟨gyx, hrun₂, hshape₂, h₂⟩ := h.setEnds_run hc hb hu hu dir dir
    have hedge : ∀ (e f : Ptr), ((V.retarget e dir n.slot).retarget f dir n.slot).edgeAt =
        V.edgeAt := fun e f => funext fun q => by
      rw [View.edgeAt_retarget, View.edgeAt_retarget]
    -- the two orders give views that differ in their incidence lists alone
    have hviews : (V.retarget x.slot dir n.slot).retarget y.slot dir n.slot =
        { (V.retarget y.slot dir n.slot).retarget x.slot dir n.slot with
          inc := ((V.retarget x.slot dir n.slot).retarget y.slot dir n.slot).inc } :=
      View.ext rfl rfl (V.edges_retarget_comm _ _ fun hboth => hslot hboth.1) rfl rfl rfl
    refine ⟨gxy, gyx, (((V.inc n.slot dir.rev).filter (· != x.slot)).filter
      (· != y.slot)).map V.edgeAt, hrun₁, hrun₂, ?_, ?_, ?_⟩
    · rw [h₁.walkAlong_run hu, V.inc_retarget_retarget hslot, hedge, List.map_cons,
        List.map_cons, View.edgeAt_slot hb, View.edgeAt_slot hc]
    · rw [h₂.walkAlong_run hu, V.inc_retarget_retarget (Ne.symm hslot), hedge, List.map_cons,
        List.map_cons, View.edgeAt_slot hb, View.edgeAt_slot hc, List.filter_comm]
    · rw [hviews] at h₁
      exact h₂.unordered_eq h₁ (hshape₂.symm.trans hshape₁) fun k d hlist =>
        V.inc_retarget_comm_of_ne x.slot y.slot dir hlist

end Graph

/-! ### Worlds -/

namespace World

/-- In all worlds, moving an end of an edge is idempotent, and moves of two ends commute, but for
the order of two edges that are put in front of the same list. -/
theorem setEnd_lawful (supply : IdSupply) (steps : List (Step N E)) :
    ∀ r ∈ ((start supply).run steps).graphs, r.graph.RetargetsLawfully := by
  intro r hr
  obtain ⟨V, h, -⟩ := registered_run supply steps r hr
  exact h.retargets_lawfully

/-- A world with two nodes. The first one has a self-loop and two parallel edges to the second
one, so that these are neighbours in the lists at both of their ends. -/
def withNeighbours : World Nat Nat :=
  let node (uid : Nat) : NodeHandle := ⟨⟨0⟩, uid, ⟨uid, 0⟩⟩
  (start {}).run [.create ⟨1, 1⟩, .call 0 (.newNode 5), .call 0 (.newNode 6),
    .call 0 (.newEdge (node 0) (node 0) 7), .call 0 (.newEdge (node 0) (node 1) 8),
    .call 0 (.newEdge (node 0) (node 1) 9)]

/-- The loop and its neighbour change places, the older of two neighbours moves to where it is and
the other one away, and both move into the list of the loop. -/
theorem setEnd_lawful_withNeighbours : ∃ h : 0 < withNeighbours.graphs.length,
    let g := withNeighbours.graphs[0].graph
    let loop : EdgeHandle := ⟨⟨0⟩, 0, ⟨0, 0⟩⟩
    let old : EdgeHandle := ⟨⟨0⟩, 1, ⟨1, 0⟩⟩
    let new : EdgeHandle := ⟨⟨0⟩, 2, ⟨2, 0⟩⟩
    let here : NodeHandle := ⟨⟨0⟩, 0, ⟨0, 0⟩⟩
    let there : NodeHandle := ⟨⟨0⟩, 1, ⟨1, 0⟩⟩
    (∃ g', Graph.setEnd old .down there g = .ok () g' ∧
      Graph.setEnd old .down there g' = .ok () g') ∧
    (∃ g', Graph.setEnds loop .down there old .down here g = .ok () g' ∧
      Graph.setEnds old .down here loop .down there g = .ok () g') ∧
    (∃ g', Graph.setEnds old .down there new .down here g = .ok () g' ∧
      Graph.setEnds new .down here old .down there g = .ok () g') ∧
    ∃ g₁ g₂ rest, Graph.setEnds old .down here new .down here g = .ok () g₁ ∧
      Graph.setEnds new .down here old .down here g = .ok () g₂ ∧
      g₁.walkEdges here .incoming = .ok (new :: old :: rest) ∧
      g₂.walkEdges here .incoming = .ok (old :: new :: rest) ∧
      g₁.unordered here .up = g₂.unordered here .up := by
  have h : 0 < withNeighbours.graphs.length := by decide +kernel
  have hedge : ∀ uid < 3,
      withNeighbours.graphs[0].graph.containsEdge ⟨⟨0⟩, uid, ⟨uid, 0⟩⟩ = true := by
    decide +kernel +revert
  have hnode : ∀ uid < 2,
      withNeighbours.graphs[0].graph.containsNode ⟨⟨0⟩, uid, ⟨uid, 0⟩⟩ = true := by
    decide +kernel +revert
  have hlaws := setEnd_lawful {} _ _ (List.getElem_mem h)
  refine ⟨h, ?_, ?_, ?_, ?_⟩
  · exact hlaws.idempotent _ _ _ (hedge 1 (by decide)) (hnode 1 (by decide))
  · exact hlaws.comm _ _ _ _ _ _ (hedge 0 (by decide)) (hedge 1 (by decide))
      (hnode 1 (by decide)) (hnode 0 (by decide)) (by decide) (by decide)
  · exact hlaws.comm _ _ _ _ _ _ (hedge 1 (by decide)) (hedge 2 (by decide))
      (hnode 1 (by decide)) (hnode 0 (by decide)) (by decide) (by decide)
  · exact hlaws.race _ _ .down _ (hedge 1 (by decide)) (hedge 2 (by decide))
      (hnode 0 (by decide)) (by decide)

end World

end SlabGraph
