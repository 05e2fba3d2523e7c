import SlabGraph.Graph.Tags
import SlabGraph.Proofs.Graph.Edit
import SlabGraph.Proofs.History.Deeds
import SlabGraph.Proofs.Tag.Host

/-!
# Tags on the View

A view is itself a host of both kinds of tag, and a graph simulates its view
(`Graph.Holds.simulates_marker`, `Graph.Holds.simulates_numeration`). The tags of an entity
are read and written through its handle, on the graph as on the view.

## Main definitions

* `Graph.contains`: whether a handle names a live entity.

## Main results

* the `TagHost` instances of `View`, and the two simulations;
* `View.area?_setArea_self`, `View.area?_setArea_of_ne`;
* `Graph.Holds.onArea_run`, `Graph.Holds.onArea_cases`.
-/

namespace SlabGraph

namespace View

variable {N E : Type} {V : View N E}

instance : TagHost (View N E) .marker where
  ledger := markers
  setLedger V markers := { V with markers }
  sweep V := V.mapAreas fun area => { area with marks := area.marks.scrub V.markers }

instance : TagHost (View N E) .numeration where
  ledger := nums
  setLedger V nums := { V with nums }
  sweep V := V.mapAreas fun area => { area with numbers := area.numbers.scrub V.nums }

instance : LawfulTagHost (View N E) .marker := ⟨fun _ _ => rfl, fun _ => rfl⟩

instance : LawfulTagHost (View N E) .numeration := ⟨fun _ _ => rfl, fun _ => rfl⟩

instance : LawfulTagHost (Graph N E) .marker := ⟨fun _ _ => rfl, fun _ => rfl⟩

instance : LawfulTagHost (Graph N E) .numeration := ⟨fun _ _ => rfl, fun _ => rfl⟩

/-- The tags of the entity that a handle names. -/
def area? (V : View N E) : {kind : EntityKind} → Handle kind → Option TagArea
  | .node, x => V.nodes.area? V.id x
  | .edge, x => V.edges.area? V.id x

/-- Replaces the tags of an entity. -/
def setArea (V : View N E) (area : TagArea) : {kind : EntityKind} → Handle kind → View N E
  | .node, x => V.writeNode x.slot fun b => { b with area }
  | .edge, x => V.writeEdge x.slot fun b => { b with area }

/-- The tags of an entity that were replaced. -/
theorem area?_setArea_self {kind : EntityKind} {x : Handle kind} (area : TagArea)
    (hx : (V.area? x).isSome = true) : (V.setArea area x).area? x = some area := by
  cases kind with
  | node => exact Population.area?_write_self area hx
  | edge => exact Population.area?_write_self area hx

/-- Replacing the tags of an entity leaves those of the others alone. -/
theorem area?_setArea_of_ne {kind kind' : EntityKind} {x : Handle kind} {y : Handle kind'}
    (area : TagArea) (hx : (V.area? x).isSome = true)
    (hne : (⟨kind', y⟩ : AnyHandle) ≠ ⟨kind, x⟩) : (V.setArea area x).area? y = V.area? y := by
  cases kind with
  | node =>
      cases kind' with
      | node => exact Population.area?_write_of_ne area hx fun heq => hne (by rw [heq])
      | edge => rfl
  | edge =>
      cases kind' with
      | node => rfl
      | edge => exact Population.area?_write_of_ne area hx fun heq => hne (by rw [heq])

/-- Altering all tags alters those of each entity. -/
theorem area?_mapAreas {kind : EntityKind} (f : TagArea → TagArea) (x : Handle kind) :
    (V.mapAreas f).area? x = (V.area? x).map f := by
  cases kind with
  | node => exact Population.area?_mapAreas f
  | edge => exact Population.area?_mapAreas f

/-- The ledger of the markers says nothing about the tags of entities. -/
theorem area?_setMarkers {kind : EntityKind} (l : TagLedger .marker) (x : Handle kind) :
    (TagHost.setLedger V l).area? x = V.area? x := by
  cases kind <;> rfl

/-- The ledger of the numerations says nothing about the tags of entities. -/
theorem area?_setNums {kind : EntityKind} (l : TagLedger .numeration) (x : Handle kind) :
    (TagHost.setLedger V l).area? x = V.area? x := by
  cases kind <;> rfl

/-! ### What other changes do to tags -/

/-- A new node has no tags, and the others keep theirs. -/
theorem area?_newNode {kind : EntityKind} {p : Ptr} (data : N) (hp : V.nodes.body p = none)
    (x : Handle kind) : (V.newNode p data).area? x =
      if (⟨kind, x⟩ : AnyHandle) = ⟨.node, ⟨V.id, V.nodes.next, p⟩⟩ then some .clean
      else V.area? x := by
  cases kind with
  | node =>
      refine (Population.area?_add _ hp).trans ?_
      simp only [Sigma.mk.injEq, heq_eq_eq, true_and]
      rfl
  | edge => rfl

/-- A new edge has no tags, and the others keep theirs. -/
theorem area?_newEdge {kind : EntityKind} {p : Ptr} (ends : DirPair Ptr) (data : E)
    (hp : V.edges.body p = none) (x : Handle kind) : (V.newEdge p ends data).area? x =
      if (⟨kind, x⟩ : AnyHandle) = ⟨.edge, ⟨V.id, V.edges.next, p⟩⟩ then some .clean
      else V.area? x := by
  cases kind with
  | node => rfl
  | edge =>
      refine (Population.area?_add _ hp).trans ?_
      simp only [Sigma.mk.injEq, heq_eq_eq, true_and]
      rfl

/-- Entities that are left over keep their tags. -/
theorem area?_of_removeNode {kind : EntityKind} {n : Ptr} {x : Handle kind} {area : TagArea}
    (h : (V.removeNode n).area? x = some area) : V.area? x = some area := by
  cases kind with
  | node => exact (Option.ite_none_right_eq_some.1 ((Population.area?_keep _).symm.trans h)).2
  | edge => exact (Option.ite_none_right_eq_some.1 ((Population.area?_keep _).symm.trans h)).2

/-- An entity that stays when only some edges are kept has the tags it had. -/
theorem area?_of_prune {kind : EntityKind} {k : Ptr → Bool} {x : Handle kind} {area : TagArea}
    (h : (V.prune k).area? x = some area) : V.area? x = some area := by
  cases kind with
  | node => exact h
  | edge => exact (Option.ite_none_right_eq_some.1 ((Population.area?_keep _).symm.trans h)).2

/-- No entity has tags once everything has left. -/
theorem area?_clear {kind : EntityKind} (x : Handle kind) : V.clear.area? x = none := by
  cases kind with
  | node => exact Population.area?_keep _
  | edge => exact Population.area?_keep _

/-- Retargeting an edge leaves all tags alone. -/
theorem area?_retarget {kind : EntityKind} (e : Ptr) (dir : Direction) (m : Ptr)
    (x : Handle kind) : (V.retarget e dir m).area? x = V.area? x := by
  cases kind with
  | node => rfl
  | edge => exact Population.area?_write (fun _ => rfl) fun _ => rfl

/-- Altering anything but the id and the tags of a node leaves all tags alone. -/
theorem area?_writeNode {kind : EntityKind} (n : Ptr) {k : Body Unit N → Body Unit N}
    (hk : ∀ b, (k b).uid = b.uid) (harea : ∀ b, (k b).area = b.area) (x : Handle kind) :
    (V.writeNode n k).area? x = V.area? x := by
  cases kind with
  | node => exact Population.area?_write hk harea
  | edge => rfl

/-- Altering anything but the id and the tags of an edge leaves all tags alone. -/
theorem area?_writeEdge {kind : EntityKind} (e : Ptr)
    {k : Body (DirPair Ptr) E → Body (DirPair Ptr) E} (hk : ∀ b, (k b).uid = b.uid)
    (harea : ∀ b, (k b).area = b.area) (x : Handle kind) :
    (V.writeEdge e k).area? x = V.area? x := by
  cases kind with
  | node => rfl
  | edge => exact Population.area?_write hk harea

/-- A view stays consistent when the tags of an entity are replaced. -/
theorem Consistent.setArea {kind : EntityKind} (h : V.Consistent) (area : TagArea)
    (x : Handle kind) : (V.setArea area x).Consistent := by
  cases kind with
  | node => exact h.writeNode _ fun _ => rfl
  | edge => exact h.writeEdge _ (fun _ => rfl) fun _ => rfl

end View

namespace Graph

variable {N E α : Type} {g : Graph N E} {V : View N E}

/-! ### The graph simulates its view -/

/-- A graph shows its view after the tags in both were altered. -/
theorem Shows.mapAreas (h : Shows g V) (f : TagArea → TagArea) :
    Shows (g.mapAreas f) (V.mapAreas f) := by
  refine ⟨h.id, h.nodes.mapAreas f, h.edges.mapAreas f, fun n r hr dir => ?_, fun n dir => ?_,
    h.apart, fun e dir he hloose => ?_, h.markers, h.nums⟩
  · obtain ⟨s, hs, rfl⟩ := Option.map_eq_some_iff.1 ((Pool.get?_map _ _ n).symm.trans hr)
    exact h.heads n s hs dir
  · refine (h.lists n dir).of_eq_on fun q _ => ?_
    exact congrFun (Roster.linkMap_mapAreas g.edges f _) q
  · rw [View.mapAreas, Population.body_alter, Option.isSome_map] at he
    exact (congrFun (Roster.linkMap_mapAreas g.edges f _) e).trans (h.loose e dir he hloose)

/-- A graph holds its view after the tags in both were altered. -/
theorem Holds.mapAreas (h : Holds g V) (f : TagArea → TagArea) :
    Holds (g.mapAreas f) (V.mapAreas f) :=
  ⟨h.shown.mapAreas f, h.consistent.mapAreas f⟩

/-- Ledgers that replace those of a graph replace those of its view. -/
theorem Holds.setLedgers (h : Holds g V) (markers : TagLedger .marker)
    (nums : TagLedger .numeration) : Holds { g with markers, nums } { V with markers, nums } where
  shown := ⟨h.shown.id, h.shown.nodes, h.shown.edges, h.shown.heads, h.shown.lists,
    h.shown.apart, h.shown.loose, rfl, rfl⟩
  consistent := ⟨h.consistent.nodes, h.consistent.edges, h.consistent.ends, h.consistent.inc_iff⟩

/-- A graph and a view that it holds grant and release the same markers. -/
theorem Holds.simulates_marker : TagHost.Simulates .marker (Holds (N := N) (E := E)) where
  ledger h := h.shown.markers
  setLedger {g V} h markers := by
    have h' := h.setLedgers markers g.nums
    rw [← h.shown.nums] at h'
    simpa only [TagHost.setLedger, h.shown.nums] using h'
  sweep {g V} h := by
    have h' := h.mapAreas fun area => { area with marks := area.marks.scrub g.markers }
    simp only [TagHost.sweep, h.shown.markers]
    exact h'

/-- A graph and a view that it holds grant and release the same numerations. -/
theorem Holds.simulates_numeration :
    TagHost.Simulates .numeration (Holds (N := N) (E := E)) where
  ledger h := h.shown.nums
  setLedger {g V} h nums := by
    have h' := h.setLedgers g.markers nums
    rw [← h.shown.markers] at h'
    simpa only [TagHost.setLedger, h.shown.markers] using h'
  sweep {g V} h := by
    have h' := h.mapAreas fun area => { area with numbers := area.numbers.scrub g.nums }
    simp only [TagHost.sweep, h.shown.nums]
    exact h'

/-! ### The tags of one entity -/

/-- A tag in use passes the check. -/
theorem checkTag_run {tagKind : TagKind} [TagHost (Graph N E) tagKind] {tag : Tag tagKind}
    (huse : (TagHost.ledger g : TagLedger tagKind).isLive tag = true) :
    g.checkTag tag = .ok () := if_pos huse

/-- Whether a handle names a live entity of a graph. -/
def contains (g : Graph N E) : {kind : EntityKind} → Handle kind → Bool
  | .node, x => g.containsNode x
  | .edge, x => g.containsEdge x

/-- A graph contains the entities that have tags in its view. -/
theorem Holds.contains_eq {kind : EntityKind} (h : Holds g V) (x : Handle kind) :
    g.contains x = (V.area? x).isSome := by
  cases kind with
  | node => exact (h.containsNode_eq x).trans Option.isSome_map.symm
  | edge => exact (h.containsEdge_eq x).trans Option.isSome_map.symm

/-- An entity of the graph has tags in the view. -/
theorem Holds.exists_area {kind : EntityKind} (h : Holds g V) {x : Handle kind}
    (hx : g.contains x = true) : ∃ area, V.area? x = some area := by
  rw [h.contains_eq] at hx
  exact Option.isSome_iff_exists.1 hx

/-- An entity stays live when its tags are replaced. -/
theorem Holds.contains_of_setArea {kind : EntityKind} {x : Handle kind} {area area' : TagArea}
    (h : Holds g (V.setArea area' x)) (hx : V.area? x = some area) : g.contains x = true := by
  rw [h.contains_eq, View.area?_setArea_self _ (by simp [hx])]
  rfl

/-- The tags of an entity can be read. -/
theorem Holds.area_run {kind : EntityKind} (h : Holds g V) {x : Handle kind} {area : TagArea}
    (hx : V.area? x = some area) : g.area x = .ok area := by
  cases kind with
  | node =>
      obtain ⟨b, hb, rfl⟩ := Option.map_eq_some_iff.1 hx
      rw [h.shown.id] at hb
      obtain ⟨r, hrun, -, rfl⟩ := h.shown.nodes.lookup_run hb
      simp [Graph.area, Graph.node, hrun, Record.body, pure, Except.pure]
  | edge =>
      obtain ⟨b, hb, rfl⟩ := Option.map_eq_some_iff.1 hx
      rw [h.shown.id] at hb
      obtain ⟨r, hrun, -, rfl⟩ := h.shown.edges.lookup_run hb
      simp [Graph.area, Graph.edge, hrun, Record.body, pure, Except.pure]

/-- The tags of what is not in the graph cannot be read, and the fault says why. -/
theorem Holds.area_refused {kind : EntityKind} (h : Holds g V) {x : Handle kind}
    (hx : V.area? x = none) : g.area x = .error (x.refusal g.id) := by
  cases kind with
  | node => simp [Graph.area, h.node_refused (Option.map_eq_none_iff.1 hx)]
  | edge => simp [Graph.area, h.edge_refused (Option.map_eq_none_iff.1 hx)]

/-- The tags of an entity can be replaced. -/
theorem Holds.setArea_run {kind : EntityKind} (h : Holds g V) {x : Handle kind}
    (hx : (V.area? x).isSome = true) (area : TagArea) :
    ∃ g', setArea area x g = .ok () g' ∧ Holds g' (V.setArea area x) := by
  have hc := h.consistent.setArea area x
  cases kind with
  | node =>
      simp only [View.area?, Population.area?, Option.isSome_map] at hx
      obtain ⟨b, hb⟩ := Option.isSome_iff_exists.1 hx
      rw [h.shown.id] at hb
      obtain ⟨r, hrun, hr, rfl⟩ := h.shown.nodes.lookup_run hb
      let s : NodeRecord N := { r with area }
      refine ⟨{ g with nodes := g.nodes.setRecord x.slot s }, ?_,
        h.shown.writeNode hr rfl rfl rfl rfl, hc⟩
      simp [setArea, Graph.node, hrun, s]
  | edge =>
      simp only [View.area?, Population.area?, Option.isSome_map] at hx
      obtain ⟨b, hb⟩ := Option.isSome_iff_exists.1 hx
      rw [h.shown.id] at hb
      obtain ⟨r, hrun, hr, rfl⟩ := h.shown.edges.lookup_run hb
      let s : EdgeRecord E := { r with area }
      refine ⟨{ g with edges := g.edges.setRecord x.slot s }, ?_,
        h.shown.writeEdge hr rfl rfl rfl, hc⟩
      simp [setArea, Graph.edge, hrun, s]

/-- A change of the tags of an entity that is possible is carried out. -/
theorem Holds.onArea_run {kind : EntityKind} (h : Holds g V) {x : Handle kind} {area : TagArea}
    (hx : V.area? x = some area) {change : TagArea → Except Fault (α × TagArea)} {answer : α}
    {area' : TagArea} (hchange : change area = .ok (answer, area')) :
    ∃ g', onArea x change g = .ok answer g' ∧ Holds g' (V.setArea area' x) := by
  obtain ⟨g', hrun, h'⟩ := h.setArea_run (x := x) (by simp [hx]) area'
  exact ⟨g', by simp [onArea, h.area_run hx, hchange, hrun], h'⟩

/-- A change of tags is made on the view, or it is refused and changes nothing. -/
theorem Holds.onArea_cases {kind : EntityKind} (h : Holds g V) (x : Handle kind)
    (change : TagArea → Except Fault (α × TagArea)) :
    (∃ area answer g', V.area? x = some area ∧ change area = .ok answer ∧
      onArea x change g = .ok answer.1 g' ∧ Holds g' (V.setArea answer.2 x)) ∨
    ∃ e, onArea x change g = .error e g := by
  cases hx : V.area? x with
  | none => exact .inr ⟨x.refusal g.id, by simp [onArea, h.area_refused hx]⟩
  | some area =>
      cases hchange : change area with
      | error e => exact .inr ⟨e, by simp [onArea, h.area_run hx, hchange]⟩
      | ok answer =>
          obtain ⟨g', hrun, h'⟩ := h.onArea_run hx hchange
          exact .inl ⟨area, answer, g', rfl, hchange, hrun, h'⟩

end Graph

end SlabGraph
