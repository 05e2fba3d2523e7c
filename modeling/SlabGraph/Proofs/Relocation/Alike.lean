import SlabGraph.Proofs.Graph.Room
import SlabGraph.Proofs.Relocation.View
import SlabGraph.Proofs.Request

/-!
# Graphs That Are Alike

Two graphs are alike if the view of one is the view of the other with its entities in other slots
(`Graph.Alike`). What is asked of two such graphs has to be asked with handles of the same
entities (`View.Corresponds`). They find the same, or nothing, in both, and a handle that is not
live is refused with a fault that names the handle.

Of two actions, one on each graph, it will be shown that they succeed or fail together, answer the
same up to slots, and leave graphs that are alike (`Graph.SameRun`). Granting and releasing tags
look at ledgers and sweep stamps, and being alike is a relation that these operations keep.

## Main definitions

* `View.Places`, `View.Corresponds`, handles of one entity;
* `Graph.Mirrors`, `Graph.Alike`, `Graph.SameRun`.

## Main results

* `View.RelocatedBy.node_cases`, `RelocatedBy.edge_cases`, `RelocatedBy.area_cases`;
* `Graph.simulates_marker_alike`, `Graph.simulates_numeration_alike`.
-/

namespace SlabGraph

/-! ### Refused handles -/

namespace Handle

variable {kind : EntityKind}

/-- Handles of one entity are refused with the same fault, apart from their slots. -/
theorem unplaced_refusal {x x' : Handle kind} (h : x.unplaced = x'.unplaced) (graph : GraphId) :
    (x.refusal graph).unplaced = (x'.refusal graph).unplaced := by
  have hgraph := (unplaced_inj.1 h).1
  unfold refusal
  by_cases howner : x.graph = graph
  · rw [if_pos howner, if_pos (hgraph.symm.trans howner)]
    exact congrArg Fault.deleted h
  · rw [if_neg howner, if_neg fun heq => howner (hgraph.trans heq)]
    exact congrArg (Fault.foreign · graph) h

end Handle

/-! ### Handles of one entity -/

namespace View

variable {N E : Type} {kind : EntityKind}

/-- A handle is not at odds with a view. -/
def Places (V : View N E) : {kind : EntityKind} → Handle kind → Prop
  | .node, x => V.nodes.Places V.id x
  | .edge, x => V.edges.Places V.id x

/-- Two handles, one for each of two views, stand for one entity. -/
structure Corresponds (V V' : View N E) (x x' : Handle kind) : Prop where
  /-- They agree apart from their slots. -/
  unplaced : x.unplaced = x'.unplaced
  /-- The first one is not at odds with the first view. -/
  left : V.Places x
  /-- The second one is not at odds with the second view. -/
  right : V'.Places x'

variable {ρ : Relocation} {V V' : View N E}

namespace RelocatedBy

section

variable (h : V.RelocatedBy ρ V') (hc : V.Consistent) (hc' : V'.Consistent)

include h hc hc'

/-- Handles of one node both find it or both find nothing. -/
theorem node_cases {x x' : NodeHandle} (hx : V.Corresponds V' x x') :
    (V.nodes.find? V.id x = none ∧ V'.nodes.find? V'.id x' = none) ∨
    ∃ b, V.nodes.find? V.id x = some b ∧ V'.nodes.find? V'.id x' = some b ∧
      x'.slot = ρ.node x.slot := by
  have hright : V'.nodes.Places V.id x' := h.id ▸ hx.right
  have heq := h.nodes.find?_eq hc.nodes hc'.nodes hx.unplaced hx.left hright
  rw [h.id, heq]
  cases hb : V.nodes.find? V.id x with
  | none => exact .inl ⟨rfl, rfl⟩
  | some b => exact .inr ⟨b, rfl, rfl, h.nodes.slot_eq hx.unplaced hright hb⟩

/-- Handles of one edge both find it or both find nothing. -/
theorem edge_cases {x x' : EdgeHandle} (hx : V.Corresponds V' x x') :
    (V.edges.find? V.id x = none ∧ V'.edges.find? V'.id x' = none) ∨
    ∃ b, V.edges.find? V.id x = some b ∧
      V'.edges.find? V'.id x' = some (b.relocate (DirPair.map ρ.node)) ∧
      x'.slot = ρ.edge x.slot := by
  have hright : V'.edges.Places V.id x' := h.id ▸ hx.right
  have heq := h.edges.find?_eq hc.edges hc'.edges hx.unplaced hx.left hright
  rw [h.id, heq]
  cases hb : V.edges.find? V.id x with
  | none => exact .inl ⟨rfl, rfl⟩
  | some b => exact .inr ⟨b, rfl, rfl, h.edges.slot_eq hx.unplaced hright hb⟩

/-- Handles of one entity both find its stamps or both find nothing. Stamps may be replaced in both
views. -/
theorem area_cases {x x' : Handle kind} (hx : V.Corresponds V' x x') :
    (V.area? x = none ∧ V'.area? x' = none) ∨
    ∃ area, V.area? x = some area ∧ V'.area? x' = some area ∧
      ∀ area', (V.setArea area' x).RelocatedBy ρ (V'.setArea area' x') := by
  cases kind with
  | node =>
      rcases h.node_cases hc hc' hx with ⟨hnone, hnone'⟩ | ⟨b, hb, hb', hslot⟩
      · exact .inl ⟨congrArg (Option.map Body.area) hnone,
          congrArg (Option.map Body.area) hnone'⟩
      · refine .inr ⟨b.area, congrArg (Option.map Body.area) hb,
          congrArg (Option.map Body.area) hb', fun area' => ?_⟩
        rw [View.setArea, View.setArea, hslot]
        exact h.writeNode hc hc' (by simp [(Population.find?_eq_some_iff.1 hb).1]) _
  | edge =>
      rcases h.edge_cases hc hc' hx with ⟨hnone, hnone'⟩ | ⟨b, hb, hb', hslot⟩
      · exact .inl ⟨congrArg (Option.map Body.area) hnone,
          congrArg (Option.map Body.area) hnone'⟩
      · refine .inr ⟨b.area, congrArg (Option.map Body.area) hb,
          congrArg (Option.map Body.area) hb', fun area' => ?_⟩
        rw [View.setArea, View.setArea, hslot]
        exact h.writeEdge hc hc' (by simp [(Population.find?_eq_some_iff.1 hb).1]) fun _ => rfl

end

end RelocatedBy

/-- A live node stands where its handle says. -/
theorem Consistent.places_node (hc : V.Consistent) {x : NodeHandle} {b : Body Unit N}
    (hb : V.nodes.find? V.id x = some b) : V.Places x := hc.nodes.places_of_find? hb

end View

/-! ### Graphs that are alike -/

namespace Graph

variable {N E α : Type} {g g' g₁ g₁' : Graph N E} {V V' : View N E} {ρ : Relocation}

/-- Two graphs hold views of which the second is the first one relocated. -/
structure Mirrors (ρ : Relocation) (V V' : View N E) (g g' : Graph N E) : Prop where
  /-- The first graph. -/
  left : Holds g V
  /-- The second graph. -/
  right : Holds g' V'
  /-- The views. -/
  relocated : V.RelocatedBy ρ V'

/-- Two graphs are alike if they differ in the slots of their entities at most. -/
def Alike (g g' : Graph N E) : Prop := ∃ ρ V V', Mirrors ρ V V' g g'

namespace Mirrors

variable (m : Mirrors ρ V V' g g')

include m

/-- Graphs whose views are relocated are alike. -/
theorem alike : Alike g g' := ⟨ρ, V, V', m⟩

/-- Both graphs have the same number. -/
theorem id_eq : g'.id = g.id := by
  rw [← m.left.shown.id, ← m.right.shown.id, m.relocated.id]

/-- Nodes that correspond are found in neither graph, or in both with the same content. -/
theorem node_cases {x x' : NodeHandle} (hx : V.Corresponds V' x x') :
    (V.nodes.find? V.id x = none ∧ V'.nodes.find? V'.id x' = none) ∨
    ∃ b, V.nodes.find? V.id x = some b ∧ V'.nodes.find? V'.id x' = some b ∧
      x'.slot = ρ.node x.slot :=
  m.relocated.node_cases m.left.consistent m.right.consistent hx

/-- Edges that correspond are found in neither graph, or in both with the same content and with ends
that are matched. -/
theorem edge_cases {x x' : EdgeHandle} (hx : V.Corresponds V' x x') :
    (V.edges.find? V.id x = none ∧ V'.edges.find? V'.id x' = none) ∨
    ∃ b, V.edges.find? V.id x = some b ∧
      V'.edges.find? V'.id x' = some (b.relocate (DirPair.map ρ.node)) ∧
      x'.slot = ρ.edge x.slot :=
  m.relocated.edge_cases m.left.consistent m.right.consistent hx

/-- Entities that correspond have tags in neither graph, or the same ones in both, and these can be
replaced alike. -/
theorem area_cases {kind : EntityKind} {x x' : Handle kind} (hx : V.Corresponds V' x x') :
    (V.area? x = none ∧ V'.area? x' = none) ∨
    ∃ area, V.area? x = some area ∧ V'.area? x' = some area ∧
      ∀ area', (V.setArea area' x).RelocatedBy ρ (V'.setArea area' x') :=
  m.relocated.area_cases m.left.consistent m.right.consistent hx

/-- The nodes at an end of an edge match. -/
theorem edgeEnd_run {x x' : EdgeHandle} {b : Body (DirPair Ptr) E}
    (hb : V.edges.find? V.id x = some b)
    (hb' : V'.edges.find? V'.id x' = some (b.relocate (DirPair.map ρ.node))) (dir : Direction) :
    ∃ c, V.nodes.body (b.incidence.get dir) = some c ∧
      V'.nodes.body (ρ.node (b.incidence.get dir)) = some c ∧
      g.edgeEnd x dir = .ok ⟨V.id, c.uid, b.incidence.get dir⟩ ∧
      g'.edgeEnd x' dir = .ok ⟨V'.id, c.uid, ρ.node (b.incidence.get dir)⟩ := by
  obtain ⟨c, hc, hrun⟩ := m.left.edgeEnd_run hb dir
  obtain ⟨c', hc', hrun'⟩ := m.right.edgeEnd_run hb' dir
  have hend : (b.relocate (DirPair.map ρ.node)).incidence.get dir =
      ρ.node (b.incidence.get dir) := DirPair.get_map _ _ _
  rw [hend] at hc' hrun'
  have hbody := m.relocated.nodes.body _ c hc
  obtain rfl : c' = c := Option.some.inj (hc'.symm.trans hbody)
  exact ⟨c', hc, hbody, hrun, hrun'⟩

end Mirrors

/-- Two actions respond the same and leave graphs that are alike. -/
structure SameRun (x x' : Action (Graph N E) (Answer N E)) (g g' : Graph N E) : Prop where
  /-- The responses. -/
  response : Response.unplaced (x.outcome g).1 = Response.unplaced (x'.outcome g').1
  /-- The graphs that are left behind. -/
  graphs : Alike (x.after g) (x'.after g')

namespace SameRun

variable {x x' : Action (Graph N E) α} {answer answer' : α → Answer N E}

/-- Two calls that succeed run alike if their answers are the same up to slots and the graphs are
alike afterwards. -/
theorem of_ok {a a' : α} (hx : x g = .ok a g₁) (hx' : x' g' = .ok a' g₁')
    (hanswer : (answer a).unplaced = (answer' a').unplaced) (halike : Alike g₁ g₁') :
    SameRun (answer <$> x) (answer' <$> x') g g' where
  response := by simp [Action.outcome, hx, hx', Response.unplaced, hanswer]
  graphs := by
    rw [Action.after_map, Action.after_map, Action.after_of_ok hx, Action.after_of_ok hx']
    exact halike

/-- Two calls that fail run alike if their faults are the same up to slots and the graphs are alike
afterwards. -/
theorem of_error {e e' : Fault} (hx : x g = .error e g₁) (hx' : x' g' = .error e' g₁')
    (hfault : e.unplaced = e'.unplaced) (halike : Alike g₁ g₁') :
    SameRun (answer <$> x) (answer' <$> x') g g' where
  response := by simp [Action.outcome, hx, hx', Response.unplaced, hfault]
  graphs := by
    rw [Action.after_map, Action.after_map, Action.after_of_error hx, Action.after_of_error hx']
    exact halike

/-- Actions that go on as others do. -/
theorem of_eq {y y' z z' : Action (Graph N E) (Answer N E)} (hy : y g = z g₁) (hy' : y' g' = z' g₁')
    (h : SameRun z z' g₁ g₁') : SameRun y y' g g' := by
  have hout : y.outcome g = z.outcome g₁ := by simp [Action.outcome, hy]
  have hout' : y'.outcome g' = z'.outcome g₁' := by simp [Action.outcome, hy']
  refine ⟨?_, ?_⟩
  · rw [hout, hout']
    exact h.response
  · rw [Action.after, Action.after, hout, hout']
    exact h.graphs

/-- Hosts that are related by being alike. -/
theorem of_related (h : TagHost.Related Alike (x g) (x' g')) :
    SameRun (answer <$> x) (answer <$> x') g g' := by
  rcases h with ⟨a, h, h', hx, hx', halike⟩ | ⟨e, h, h', hx, hx', halike⟩
  · exact of_ok hx hx' rfl halike
  · exact of_error hx hx' rfl halike

end SameRun

/-! ### Tags -/

/-- Graphs that are alike grant and release the same markers, and are alike afterwards. -/
theorem simulates_marker_alike :
    TagHost.Simulates .marker (Alike (N := N) (E := E)) where
  ledger := by
    rintro g g' ⟨ρ, V, V', m⟩
    exact (m.right.shown.markers.symm.trans m.relocated.markers).trans m.left.shown.markers
  setLedger := by
    rintro g g' ⟨ρ, V, V', m⟩ markers
    refine ⟨ρ, { V with markers }, { V' with markers },
      Holds.simulates_marker.setLedger m.left markers,
      Holds.simulates_marker.setLedger m.right markers, { m.relocated with markers := rfl }⟩
  sweep := by
    rintro g g' ⟨ρ, V, V', m⟩
    refine ⟨ρ, _, _, Holds.simulates_marker.sweep m.left, Holds.simulates_marker.sweep m.right, ?_⟩
    simp only [TagHost.sweep, m.relocated.markers]
    exact m.relocated.mapAreas _

/-- Graphs that are alike grant and release the same numerations, and are alike afterwards. -/
theorem simulates_numeration_alike :
    TagHost.Simulates .numeration (Alike (N := N) (E := E)) where
  ledger := by
    rintro g g' ⟨ρ, V, V', m⟩
    exact (m.right.shown.nums.symm.trans m.relocated.nums).trans m.left.shown.nums
  setLedger := by
    rintro g g' ⟨ρ, V, V', m⟩ nums
    refine ⟨ρ, { V with nums }, { V' with nums },
      Holds.simulates_numeration.setLedger m.left nums,
      Holds.simulates_numeration.setLedger m.right nums, { m.relocated with nums := rfl }⟩
  sweep := by
    rintro g g' ⟨ρ, V, V', m⟩
    refine ⟨ρ, _, _, Holds.simulates_numeration.sweep m.left,
      Holds.simulates_numeration.sweep m.right, ?_⟩
    simp only [TagHost.sweep, m.relocated.nums]
    exact m.relocated.mapAreas _

end Graph

end SlabGraph
