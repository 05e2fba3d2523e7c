import SlabGraph.Graph.Cursor
import SlabGraph.Proofs.Structure

/-!
# Walks over the Edges of a Node

A walk meets the edges of its lists in their order: the incoming edges, the outgoing ones, or
the incoming edges and after them the outgoing ones (`Graph.Holds.walkEdges_run`). The walk over
both finds its node again as the successor of the last incoming edge, and the ends of edges are
what makes this the node that it started from.

A cursor that stands at an edge of a list moves on to the edge after it in the list. So the
positions of a walk are a list each of whose members leads to the next (`EdgeCursor.Leads`), which
is all that following them takes.

## Main definitions

* `EdgeCursor.Leads`;
* `View.edgeAt`, the handle of the edge in a slot;
* `View.cursors`, the cursors that a walk goes through, and `View.walkEdges`, its edges.

## Main results

* `Graph.Holds.firstIncident_run`, `Graph.Holds.nextIncident_run`;
* `Graph.Holds.leads`, `Graph.Holds.begin_run`: the cursors of a walk;
* `Graph.Holds.positions_run`, `Graph.Holds.walkEdges_run`.
-/

namespace SlabGraph

variable {N E : Type}

/-! ### Cursors each of which leads to the next -/

namespace EdgeCursor

/-- Each of some cursors stands at an edge and leads to the next, and the last one to `stop`, which
stands at none. -/
structure Leads (g : Graph N E) (stop : EdgeCursor) (cs : List EdgeCursor) : Prop where
  atEnd : stop.edge? = none
  edge : ∀ c ∈ cs, ∃ e, c.edge? = some e
  next : ∀ c ds, (c :: ds) <:+ cs → c.advance g = .ok (ds.head?.getD stop)

variable {g : Graph N E} {stop : EdgeCursor} {cs : List EdgeCursor}

/-- Cursors from one of them on lead to the same end. -/
theorem Leads.of_suffix {ds : List EdgeCursor} (h : Leads g stop cs) (hds : ds <:+ cs) :
    Leads g stop ds where
  atEnd := h.atEnd
  edge c hc := h.edge c (hds.subset hc)
  next c es hes := h.next c es (hes.trans hds)

/-- All cursors but the first one lead to the same end. -/
theorem Leads.tail {c : EdgeCursor} (h : Leads g stop (c :: cs)) : Leads g stop cs :=
  h.of_suffix (List.suffix_cons c cs)

/-- None of the cursors is the one at the end. -/
theorem Leads.ne_stop (h : Leads g stop cs) {c : EdgeCursor} (hc : c ∈ cs) : c ≠ stop := by
  rintro rfl
  obtain ⟨e, he⟩ := h.edge c hc
  cases he.symm.trans h.atEnd

/-- The positions from the first of them on, if they are no more than the iterator allows for. -/
theorem Leads.positions_run (h : Leads g stop cs) (hfuel : cs.length ≤ 2 * g.edges.count + 1) :
    (cs.head?.getD stop).positions g = .ok cs := by
  have hlive : ∀ ds, Leads g stop ds →
      (if (ds.head?.getD stop).isEnd then none else some (ds.head?.getD stop)) = ds.head? := by
    intro ds hds
    cases ds with
    | nil => simp [isEnd, hds.atEnd]
    | cons c ds =>
        obtain ⟨e, he⟩ := hds.edge c List.mem_cons_self
        simp [isEnd, he]
  simp only [positions, hlive cs h]
  refine follow_run (fun c ds hds => ?_) hfuel
  rw [h.next c ds hds]
  exact congrArg Except.ok (hlive ds (h.of_suffix hds).tail)

end EdgeCursor

namespace Walk

variable {g : Graph N E} {walk walk' : Walk} {e? : Option EdgeHandle}

/-- A step within a list leaves the walk as it is. -/
theorem eq_of_answer {y : Except Fault (Option EdgeHandle)}
    (h : (do return (← y, walk)) = Except.ok (e?, walk')) : walk' = walk := by
  cases y with
  | error e => cases h
  | ok o => cases h; rfl

/-- A walk begins on the way to its own end. -/
theorem atEnd_of_start {node : NodeHandle} (h : walk.start g node = .ok (e?, walk')) :
    walk'.atEnd = walk.atEnd := by
  cases walk with
  | incoming | outgoing => rw [eq_of_answer h]
  | both inPreds =>
      cases hfirst : g.firstIncident node .up with
      | error e => simp [start, hfirst] at h
      | ok o =>
          simp only [start, hfirst, ok_bind] at h
          cases o with
          | none => rw [eq_of_answer h]; rfl
          | some edge => cases h; rfl

/-- A walk goes on to its own end. -/
theorem atEnd_of_step {edge : EdgeHandle} (h : walk.step g edge = .ok (e?, walk')) :
    walk'.atEnd = walk.atEnd := by
  cases walk with
  | incoming | outgoing => rw [eq_of_answer h]
  | both inPreds =>
      cases inPreds with
      | false => rw [eq_of_answer h]
      | true =>
          cases hnext : g.nextIncident edge .up with
          | error e => simp [step, hnext] at h
          | ok o =>
              simp only [step, hnext, ok_bind] at h
              cases o with
              | some next => cases h; rfl
              | none =>
                  cases hend : g.edgeEnd edge .down with
                  | error e => simp [hend] at h
                  | ok node =>
                      simp only [hend, ok_bind] at h
                      rw [eq_of_answer h]
                      rfl

end Walk

/-! ### Handles of slots -/

namespace View

variable {V : View N E}

/-- The handle of the edge in a slot. -/
def edgeAt (V : View N E) (e : Ptr) : EdgeHandle := ⟨V.id, ((V.edges.body e).elim 0 Body.uid), e⟩

/-- The handle of the edge in a slot has its id. -/
theorem edgeAt_eq {e : Ptr} {b : Body (DirPair Ptr) E} (hb : V.edges.body e = some b) :
    V.edgeAt e = ⟨V.id, b.uid, e⟩ := by
  simp [edgeAt, hb]

/-- The handle of the edge in a slot finds the edge. -/
theorem find?_edgeAt {e : Ptr} {b : Body (DirPair Ptr) E} (hb : V.edges.body e = some b) :
    V.edges.find? V.id (V.edgeAt e) = some b :=
  Population.find?_eq_some_iff.2 ⟨hb, edgeAt_eq hb⟩

/-- An edge that a handle finds has this handle. -/
theorem edgeAt_slot {x : EdgeHandle} {b : Body (DirPair Ptr) E}
    (hb : V.edges.find? V.id x = some b) : V.edgeAt x.slot = x := by
  obtain ⟨hbody, hx⟩ := Population.find?_eq_some_iff.1 hb
  rw [edgeAt_eq hbody, ← hx]

/-- Different slots have different handles. -/
theorem edgeAt_injective : Function.Injective V.edgeAt :=
  fun _ _ heq => congrArg Handle.slot heq

/-- The cursor of a walk at the edge in a slot. -/
def cursorAt (V : View N E) (walk : Walk) (e : Ptr) : EdgeCursor := ⟨some (V.edgeAt e), walk⟩

/-- The cursors that a walk over the edges of a node goes through. -/
def cursors (V : View N E) (n : Ptr) : Walk → List EdgeCursor
  | .incoming => (V.inc n .up).map (V.cursorAt .incoming)
  | .outgoing => (V.inc n .down).map (V.cursorAt .outgoing)
  | .both _ => (V.inc n .up).map (V.cursorAt (.both true)) ++
      (V.inc n .down).map (V.cursorAt (.both false))

/-- The edges that a walk over the edges of a node meets. -/
def walkEdges (V : View N E) (n : Ptr) : Walk → List EdgeHandle
  | .incoming => (V.inc n .up).map V.edgeAt
  | .outgoing => (V.inc n .down).map V.edgeAt
  | .both _ => (V.inc n .up).map V.edgeAt ++ (V.inc n .down).map V.edgeAt

/-- The edges at which cursors stand are those they were made for. -/
theorem filterMap_cursorAt (walk : Walk) (es : List Ptr) :
    (es.map (V.cursorAt walk)).filterMap (·.edge?) = es.map V.edgeAt := by
  rw [List.filterMap_map, ← List.filterMap_eq_map]
  rfl

/-- All cursors of a walk have the same end. -/
theorem atEnd_of_mem_cursors {n : Ptr} {walk : Walk} {c : EdgeCursor}
    (hc : c ∈ V.cursors n walk) : c.walk.atEnd = walk.atEnd := by
  cases walk with
  | incoming | outgoing =>
      obtain ⟨e, -, rfl⟩ := List.mem_map.1 hc
      rfl
  | both inPreds =>
      rcases List.mem_append.1 hc with hc | hc
      · obtain ⟨e, -, rfl⟩ := List.mem_map.1 hc
        rfl
      · obtain ⟨e, -, rfl⟩ := List.mem_map.1 hc
        rfl

/-- A position of a walk is a cursor at an edge, or the one at the end. -/
theorem ofPosition_eq (e? : Option Ptr) (walk : Walk) :
    EdgeCursor.ofPosition (e?.map V.edgeAt, walk) =
      (e?.map (V.cursorAt walk)).getD (.atEnd walk) := by
  cases e? <;> rfl

end View

namespace Graph

variable {g : Graph N E} {V : View N E}

/-! ### Steps -/

/-- The first edge of a list of a node can be read. -/
theorem Holds.firstIncident_run (h : Holds g V) {node : NodeHandle} {b : Body Unit N}
    (hb : V.nodes.find? V.id node = some b) (dir : Direction) :
    g.firstIncident node dir = .ok ((V.inc node.slot dir).head?.map V.edgeAt) := by
  rw [h.shown.id] at hb
  obtain ⟨r, hrun, hr, -⟩ := h.shown.nodes.lookup_run hb
  have hhead := h.shown.heads _ r hr dir
  simp only [firstIncident, Graph.node, hrun, ok_bind, hhead]
  cases hinc : V.inc node.slot dir with
  | nil => rfl
  | cons e es =>
      have he : e ∈ V.inc node.slot dir := by simp [hinc]
      obtain ⟨c, hc, -⟩ := h.consistent.body_of_mem_inc he
      simp only [List.head?_cons, Roster.handle?, h.shown.edges.handle_run .edge hc,
        Option.map_some, View.edgeAt_eq hc, h.shown.id]
      rfl

/-- The edge after another one on a list of a node can be read. -/
theorem Holds.nextIncident_run (h : Holds g V) {n : Ptr} {dir : Direction} {as es : List Ptr}
    {e : Ptr} (hinc : V.inc n dir = as ++ e :: es) :
    g.nextIncident (V.edgeAt e) dir = .ok (es.head?.map V.edgeAt) := by
  have he : e ∈ V.inc n dir := by simp [hinc]
  obtain ⟨b, hb, hend⟩ := h.consistent.body_of_mem_inc he
  have hlive := h.consistent.ends e b hb dir.rev
  rw [hend] at hlive
  obtain ⟨node, hnode⟩ := h.shown.exists_node hlive
  have hnext := ((h.threaded_inc hnode dir).links as e es hinc).2
  have hfind := View.find?_edgeAt hb
  rw [h.shown.id] at hfind
  obtain ⟨r, hrun, hr, -⟩ := h.shown.edges.lookup_run hfind
  have hslot : (V.edgeAt e).slot = e := rfl
  rw [hslot] at hr
  rw [Pool.next_eq hr] at hnext
  simp only [nextIncident, nextInList, Graph.edge, hrun, ok_bind]
  rw [show r.links.nextAt (incidenceSlot dir) = .ok es.head? from hnext, ok_bind]
  cases es with
  | nil => rfl
  | cons q es =>
      have hq : q ∈ V.inc n dir := by simp [hinc]
      obtain ⟨c, hc, -⟩ := h.consistent.body_of_mem_inc hq
      simp only [List.head?_cons, Roster.handle?, h.shown.edges.handle_run .edge hc,
        Option.map_some, View.edgeAt_eq hc, h.shown.id]
      rfl

/-! ### Walks -/

/-- A walk begins with the first of its cursors. -/
theorem Holds.start_run (h : Holds g V) {node : NodeHandle} {b : Body Unit N}
    (hb : V.nodes.find? V.id node = some b) (walk : Walk) :
    ∃ (e? : Option Ptr) (walk' : Walk), walk.start g node = .ok (e?.map V.edgeAt, walk') ∧
      e?.map (V.cursorAt walk') = (V.cursors node.slot walk).head? := by
  have hfirst := h.firstIncident_run hb
  cases walk with
  | incoming =>
      exact ⟨(V.inc node.slot .up).head?, .incoming,
        by simp [Walk.start, hfirst, pure, Except.pure], by simp [View.cursors]⟩
  | outgoing =>
      exact ⟨(V.inc node.slot .down).head?, .outgoing,
        by simp [Walk.start, hfirst, pure, Except.pure], by simp [View.cursors]⟩
  | both inPreds =>
      cases hinc : V.inc node.slot .up with
      | nil =>
          exact ⟨(V.inc node.slot .down).head?, .both false,
            by simp [Walk.start, hfirst, hinc, pure, Except.pure], by simp [View.cursors, hinc]⟩
      | cons e es =>
          exact ⟨some e, .both true,
            by simp [Walk.start, hfirst, hinc, pure, Except.pure], by simp [View.cursors, hinc]⟩

/-- The step of a walk that stays in one list. -/
theorem Holds.step_run_of_list (h : Holds g V) {n : Ptr} {dir : Direction} {walk : Walk}
    (hwalk : ∀ edge, walk.step g edge = do return (← g.nextIncident edge dir, walk))
    {as cs : List EdgeCursor} {c : EdgeCursor}
    (hcs : (V.inc n dir).map (V.cursorAt walk) = as ++ c :: cs) :
    ∃ (e : Ptr) (e? : Option Ptr) (walk' : Walk), c.edge? = some (V.edgeAt e) ∧
      c.walk.step g (V.edgeAt e) = .ok (e?.map V.edgeAt, walk') ∧
      e?.map (V.cursorAt walk') = cs.head? := by
  obtain ⟨ds, es, hinc, -, hes⟩ := List.map_eq_append_iff.1 hcs
  obtain ⟨e, es, rfl, rfl, rfl⟩ := List.map_eq_cons_iff.1 hes
  refine ⟨e, es.head?, walk, rfl, ?_, List.head?_map.symm⟩
  rw [View.cursorAt, hwalk, h.nextIncident_run hinc]
  rfl

/-- After the last incoming edge a walk goes on to the first outgoing one. The node is found again
as the successor of the last incoming edge. -/
theorem Holds.step_run_of_last (h : Holds g V) {node : NodeHandle} {b : Body Unit N}
    (hb : V.nodes.find? V.id node = some b) {ds : List Ptr} {e : Ptr}
    (hinc : V.inc node.slot .up = ds ++ [e]) :
    (Walk.both true).step g (V.edgeAt e) =
      .ok ((V.inc node.slot .down).head?.map V.edgeAt, .both false) := by
  have he : e ∈ V.inc node.slot .up := by simp [hinc]
  obtain ⟨d, hd, hend⟩ := h.consistent.body_of_mem_inc he
  obtain ⟨c, hc, hrun⟩ := h.edgeEnd_run (View.find?_edgeAt hd) .down
  have hnode : (⟨V.id, c.uid, d.incidence.get .down⟩ : NodeHandle) = node := by
    obtain ⟨hb', hnode⟩ := Population.find?_eq_some_iff.1 hb
    rw [show d.incidence.get .down = node.slot from hend] at hc ⊢
    obtain rfl := Option.some.inj (hb'.symm.trans hc)
    exact hnode.symm
  rw [hnode] at hrun
  simp [Walk.step, h.nextIncident_run hinc, hrun, h.firstIncident_run hb, pure, Except.pure]

/-- From each of its cursors a walk goes on to the one after it. -/
theorem Holds.step_run (h : Holds g V) {node : NodeHandle} {b : Body Unit N}
    (hb : V.nodes.find? V.id node = some b) (walk : Walk) {as cs : List EdgeCursor}
    {c : EdgeCursor} (hcs : V.cursors node.slot walk = as ++ c :: cs) :
    ∃ (e : Ptr) (e? : Option Ptr) (walk' : Walk), c.edge? = some (V.edgeAt e) ∧
      c.walk.step g (V.edgeAt e) = .ok (e?.map V.edgeAt, walk') ∧
      e?.map (V.cursorAt walk') = cs.head? := by
  cases walk with
  | incoming => exact h.step_run_of_list (fun _ => rfl) hcs
  | outgoing => exact h.step_run_of_list (fun _ => rfl) hcs
  | both inPreds =>
      rcases List.append_eq_append_iff.1 hcs with ⟨bs, rfl, hdown⟩ | ⟨bs, hup, hrest⟩
      · exact h.step_run_of_list (fun _ => rfl) hdown
      · cases bs with
        | nil =>
            have hdown : _ = [] ++ c :: cs := hrest.symm
            exact h.step_run_of_list (fun _ => rfl) hdown
        | cons c' bs =>
            obtain ⟨rfl, rfl⟩ := List.cons_eq_cons.1 hrest
            obtain ⟨ds, es, hinc, -, hes⟩ := List.map_eq_append_iff.1 hup
            obtain ⟨e, es, rfl, rfl, rfl⟩ := List.map_eq_cons_iff.1 hes
            cases es with
            | cons q es =>
                have hnext := h.nextIncident_run hinc
                exact ⟨e, some q, .both true, rfl,
                  by simp [View.cursorAt, Walk.step, hnext, pure, Except.pure], rfl⟩
            | nil =>
                exact ⟨e, (V.inc node.slot .down).head?, .both false, rfl,
                  h.step_run_of_last hb hinc, by simp⟩

/-- The cursors of a walk lead from each to the next, and to the end. -/
theorem Holds.leads (h : Holds g V) {node : NodeHandle} {b : Body Unit N}
    (hb : V.nodes.find? V.id node = some b) (walk : Walk) :
    EdgeCursor.Leads g (.atEnd walk) (V.cursors node.slot walk) where
  atEnd := rfl
  edge c hc := by
    obtain ⟨as, bs, hcs⟩ := List.append_of_mem hc
    obtain ⟨e, -, -, hedge, -⟩ := h.step_run hb walk hcs
    exact ⟨_, hedge⟩
  next c ds hds := by
    obtain ⟨as, has⟩ := hds
    obtain ⟨e, e?, walk', hedge, hstep, hnext⟩ := h.step_run hb walk has.symm
    have hc : c ∈ V.cursors node.slot walk := by simp [← has]
    have hend : walk'.atEnd = walk.atEnd :=
      (Walk.atEnd_of_step hstep).trans (View.atEnd_of_mem_cursors hc)
    simp only [EdgeCursor.advance, hedge, hstep]
    change Except.ok (EdgeCursor.ofPosition (e?.map V.edgeAt, walk')) = _
    rw [View.ofPosition_eq, hnext, EdgeCursor.atEnd, hend, EdgeCursor.atEnd]

/-- A walk begins with the first of its cursors, or at its end. -/
theorem Holds.begin_run (h : Holds g V) {node : NodeHandle} {b : Body Unit N}
    (hb : V.nodes.find? V.id node = some b) (walk : Walk) :
    EdgeCursor.begin g node walk =
      .ok ((V.cursors node.slot walk).head?.getD (.atEnd walk)) := by
  obtain ⟨e?, walk', hstart, hhead⟩ := h.start_run hb walk
  simp only [EdgeCursor.begin, hstart]
  change Except.ok (EdgeCursor.ofPosition (e?.map V.edgeAt, walk')) = _
  rw [View.ofPosition_eq, hhead, EdgeCursor.atEnd, Walk.atEnd_of_start hstart, EdgeCursor.atEnd]

/-- A walk has no more steps than its fuel, since each edge has two ends. -/
theorem Holds.length_cursors_le (h : Holds g V) (n : Ptr) (walk : Walk) :
    (V.cursors n walk).length ≤ 2 * g.edges.count := by
  have hup := h.length_inc_le n .up
  have hdown := h.length_inc_le n .down
  cases walk with
  | incoming => simp only [View.cursors, List.length_map]; omega
  | outgoing => simp only [View.cursors, List.length_map]; omega
  | both inPreds => simp only [View.cursors, List.length_append, List.length_map]; omega

/-- The positions of a walk. -/
theorem Holds.positions_run (h : Holds g V) {node : NodeHandle} {b : Body Unit N}
    (hb : V.nodes.find? V.id node = some b) (walk : Walk) :
    ∃ c, EdgeCursor.begin g node walk = .ok c ∧
      c.positions g = .ok (V.cursors node.slot walk) :=
  ⟨_, h.begin_run hb walk,
    (h.leads hb walk).positions_run (Nat.le_succ_of_le (h.length_cursors_le _ walk))⟩

/-- A walk meets the edges of its lists in their order. -/
theorem Holds.walkEdges_run (h : Holds g V) {node : NodeHandle} {b : Body Unit N}
    (hb : V.nodes.find? V.id node = some b) (walk : Walk) :
    g.walkEdges node walk = .ok (V.walkEdges node.slot walk) := by
  obtain ⟨c, hbegin, hpositions⟩ := h.positions_run hb walk
  simp only [walkEdges, EdgeCursor.edges, hbegin, hpositions, ok_bind]
  cases walk <;>
    simp only [View.cursors, View.walkEdges, List.filterMap_append, View.filterMap_cursorAt] <;> rfl

end Graph

end SlabGraph
