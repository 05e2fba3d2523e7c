import SlabGraph.Proofs.Graph.Tags

/-!
# Moves of a View

`Move V deeds V'` lists, once and for all, what a call can do to a view: which change of the
view it is, under which condition, and which deeds it adds to the history. A refused call is
no move, or one without deeds: an id is used up, or the values of tags have started over.
A longer operation is a sequence of moves (`Moves`). The changes of tags are listed apart
(`TagMove`), since they leave all else alone.

What is to be shown of all runs is shown of each move, and then holds of every sequence of
them (`Moves.preserves`).

## Main definitions

* `TagMove`, `Move`, `Moves`;
* `Retagged`: views that differ in tags only;
* `Structural`: views that do not.

## Main results

* `TagMove.retagged`: changes of tags leave all else alone;
* `Move.tags_or_structural`: all other moves leave tags alone;
* `Move.consistent`, `Moves.preserves`.
-/

namespace SlabGraph

variable {N E : Type}

/-- A change of tags with the deeds it stands for. -/
inductive TagMove (V : View N E) : History N E → View N E → Prop
  | grantMarker {marker : Marker} {V' : View N E}
      (run : TagHost.grant .marker V = .ok marker V') : TagMove V [.grantMarker marker] V'
  | refuseMarker {e : Fault} {V' : View N E}
      (run : TagHost.grant .marker V = .error e V') : TagMove V [] V'
  | freeMarker {marker : Marker} {V' : View N E}
      (run : TagHost.release marker V = .ok () V') : TagMove V [.freeMarker marker] V'
  | sweepMarkers : TagMove V [] (TagHost.sweep .marker V)
  | mark {kind : EntityKind} (x : Handle kind) (marker : Marker) {area : TagArea}
      (inUse : V.markers.isLive marker = true) (live : V.area? x = some area) :
      TagMove V [.mark ⟨kind, x⟩ marker]
        (V.setArea { area with marks := (area.marks.mark marker).2 } x)
  | unmark {kind : EntityKind} (x : Handle kind) (marker : Marker) {area : TagArea}
      (inUse : V.markers.isLive marker = true) (live : V.area? x = some area) :
      TagMove V [.unmark ⟨kind, x⟩ marker]
        (V.setArea { area with marks := (area.marks.unmark marker).2 } x)
  | grantNum {num : Numeration} {V' : View N E}
      (run : TagHost.grant .numeration V = .ok num V') : TagMove V [.grantNum num] V'
  | refuseNum {e : Fault} {V' : View N E}
      (run : TagHost.grant .numeration V = .error e V') : TagMove V [] V'
  | freeNum {num : Numeration} {V' : View N E}
      (run : TagHost.release num V = .ok () V') : TagMove V [.freeNum num] V'
  | sweepNums : TagMove V [] (TagHost.sweep .numeration V)
  | setNumber {kind : EntityKind} (x : Handle kind) (num : Numeration) (value : Int)
      {area : TagArea} {numbers : Numbers} (inUse : V.nums.isLive num = true)
      (live : V.area? x = some area) (fits : area.numbers.setNumber num value = .ok numbers) :
      TagMove V [.setNumber ⟨kind, x⟩ num value.toNat] (V.setArea { area with numbers } x)
  | unnumber {kind : EntityKind} (x : Handle kind) (num : Numeration) {area : TagArea}
      (inUse : V.nums.isLive num = true) (live : V.area? x = some area) :
      TagMove V [.unnumber ⟨kind, x⟩ num]
        (V.setArea { area with numbers := (area.numbers.unnumber num).2 } x)

/-- A change of a view with the deeds it stands for. -/
inductive Move (V : View N E) : History N E → View N E → Prop
  /-- The id of a node is used up. -/
  | skipNode : Move V [] V.skipNode
  /-- The id of an edge is used up. -/
  | skipEdge : Move V [] V.skipEdge
  | addNode (p : Ptr) (data : N) (free : V.nodes.body p = none) :
      Move V [.addNode ⟨V.id, V.nodes.next, p⟩ data] (V.newNode p data)
  | addEdge (p : Ptr) (pred succ : NodeHandle) (data : E) {a b : Body Unit N}
      (up : V.nodes.find? V.id pred = some a) (down : V.nodes.find? V.id succ = some b)
      (free : V.edges.body p = none) :
      Move V [.addEdge ⟨V.id, V.edges.next, p⟩ ⟨pred, succ⟩ data]
        (V.newEdge p ⟨pred.slot, succ.slot⟩ data)
  | removeNode (node : NodeHandle) {b : Body Unit N}
      (live : V.nodes.find? V.id node = some b) :
      Move V [.removeNode node] (V.removeNode node.slot)
  | removeEdge (edge : EdgeHandle) {b : Body (DirPair Ptr) E}
      (live : V.edges.find? V.id edge = some b) :
      Move V [.removeEdge edge] (V.prune (· != edge.slot))
  | clear : Move V [.clear] V.clear
  | moveEnd (edge : EdgeHandle) (dir : Direction) (node : NodeHandle)
      {b : Body (DirPair Ptr) E} {c : Body Unit N} (live : V.edges.find? V.id edge = some b)
      (target : V.nodes.find? V.id node = some c) :
      Move V [.moveEnd edge dir node] (V.retarget edge.slot dir node.slot)
  | writeNode (node : NodeHandle) (f : N → N) {b : Body Unit N}
      (live : V.nodes.find? V.id node = some b) :
      Move V [.writeNode node (f b.data)]
        (V.writeNode node.slot fun b => { b with data := f b.data })
  | writeEdge (edge : EdgeHandle) (f : E → E) {b : Body (DirPair Ptr) E}
      (live : V.edges.find? V.id edge = some b) :
      Move V [.writeEdge edge (f b.data)]
        (V.writeEdge edge.slot fun b => { b with data := f b.data })
  /-- Tags are changed. -/
  | tags {deeds : History N E} {V' : View N E} (change : TagMove V deeds V') : Move V deeds V'

/-- A sequence of moves with all its deeds, the latest first. -/
inductive Moves (V : View N E) : History N E → View N E → Prop
  | none : Moves V [] V
  | after {deeds deeds' : History N E} {V' V'' : View N E} :
      Moves V deeds V' → Move V' deeds' V'' → Moves V (deeds' ++ deeds) V''

namespace Moves

variable {V V' V'' : View N E} {deeds deeds' : History N E}

/-- One move is a sequence of moves. -/
theorem single (h : Move V deeds V') : Moves V deeds V' := by
  simpa using Moves.none.after h

/-- Two sequences of moves in a row are one. -/
theorem trans (h : Moves V deeds V') (h' : Moves V' deeds' V'') :
    Moves V (deeds' ++ deeds) V'' := by
  induction h' with
  | none => exact h
  | after _ hmove ih =>
      rw [List.append_assoc]
      exact ih.after hmove

end Moves

/-! ### Moves of tags -/

/-- Two views agree in all but the tags of their entities and the ledgers. -/
structure Retagged (V V' : View N E) : Prop where
  id : V'.id = V.id
  inc : V'.inc = V.inc
  nodes : ∃ f : Ptr → TagArea → TagArea,
    V'.nodes = V.nodes.alter fun p b => { b with area := f p b.area }
  edges : ∃ f : Ptr → TagArea → TagArea,
    V'.edges = V.edges.alter fun p b => { b with area := f p b.area }

namespace Retagged

variable {V V' V'' : View N E}

/-- A view agrees with itself. -/
theorem refl (V : View N E) : Retagged V V where
  id := rfl
  inc := rfl
  nodes := ⟨fun _ area => area, by simp [Population.alter]⟩
  edges := ⟨fun _ area => area, by simp [Population.alter]⟩

/-- Changing tags twice changes tags only. -/
theorem trans (h : Retagged V V') (h' : Retagged V' V'') : Retagged V V'' where
  id := h'.id.trans h.id
  inc := h'.inc.trans h.inc
  nodes := by
    obtain ⟨f, hf⟩ := h.nodes
    obtain ⟨f', hf'⟩ := h'.nodes
    refine ⟨fun p area => f' p (f p area), ?_⟩
    rw [hf', hf]
    simp [Population.alter, Function.comp_def]
  edges := by
    obtain ⟨f, hf⟩ := h.edges
    obtain ⟨f', hf'⟩ := h'.edges
    refine ⟨fun p area => f' p (f p area), ?_⟩
    rw [hf', hf]
    simp [Population.alter, Function.comp_def]

/-- Replacing the tags of an entity changes tags only. -/
theorem setArea {kind : EntityKind} (V : View N E) (area : TagArea) (x : Handle kind) :
    Retagged V (V.setArea area x) := by
  have hwrite : ∀ {κ δ : Type} (P : Population κ δ) (p : Ptr),
      (P.write p fun b => { b with area }) = P.alter fun q b =>
        { b with area := if q = p then area else b.area } := by
    intro κ δ P p
    unfold Population.write
    congr 1
    funext q b
    by_cases hq : q = p <;> simp [hq]
  cases kind with
  | node => exact ⟨rfl, rfl, ⟨_, hwrite V.nodes x.slot⟩, (refl V).edges⟩
  | edge => exact ⟨rfl, rfl, (refl V).nodes, ⟨_, hwrite V.edges x.slot⟩⟩

/-- Altering all tags changes tags only. -/
theorem mapAreas (V : View N E) (f : TagArea → TagArea) : Retagged V (V.mapAreas f) :=
  ⟨rfl, rfl, ⟨fun _ => f, rfl⟩, ⟨fun _ => f, rfl⟩⟩

/-- Replacing both ledgers changes tags only. -/
theorem setLedgers (V : View N E) (markers : TagLedger .marker) (nums : TagLedger .numeration) :
    Retagged V { V with markers, nums } :=
  ⟨rfl, rfl, (refl V).nodes, (refl V).edges⟩

/-- Replacing the ledger of the markers changes tags only. -/
theorem setMarkers (V : View N E) (l : TagLedger .marker) : Retagged V (TagHost.setLedger V l) :=
  setLedgers V l V.nums

/-- Replacing the ledger of the numerations changes tags only. -/
theorem setNums (V : View N E) (l : TagLedger .numeration) :
    Retagged V (TagHost.setLedger V l) :=
  setLedgers V V.markers l

/-- Granting a marker changes tags only, also if it is refused. -/
theorem grantMarker (V : View N E) : Retagged V ((TagHost.grant .marker).after V) :=
  TagHost.grant_preserves refl trans setMarkers (fun V => mapAreas V _) V

/-- Granting a numeration changes tags only, also if it is refused. -/
theorem grantNum (V : View N E) : Retagged V ((TagHost.grant .numeration).after V) :=
  TagHost.grant_preserves refl trans setNums (fun V => mapAreas V _) V

/-- Taking a marker back changes tags only. -/
theorem freeMarker (V : View N E) (marker : Marker) :
    Retagged V ((TagHost.release marker).after V) :=
  TagHost.release_preserves refl setMarkers V marker

/-- Taking a numeration back changes tags only. -/
theorem freeNum (V : View N E) (num : Numeration) :
    Retagged V ((TagHost.release num).after V) :=
  TagHost.release_preserves refl setNums V num

/-- A view stays consistent when only tags change. -/
theorem consistent (h : Retagged V V') (hc : V.Consistent) : V'.Consistent := by
  obtain ⟨f, hf⟩ := h.nodes
  obtain ⟨f', hf'⟩ := h.edges
  have hc' : ({ V with nodes := V'.nodes, edges := V'.edges } : View N E).Consistent := by
    rw [hf, hf']
    refine hc.alter (hc.nodes.alter fun _ _ => rfl) (hc.edges.alter fun _ _ => rfl)
      (fun n => ?_) fun e => ?_
    · rw [Population.body_alter, Option.isSome_map]
    · rw [Population.body_alter, Option.map_map]
      rfl
  refine ⟨hc'.nodes, hc'.edges, hc'.ends, fun n dir e => ?_⟩
  rw [h.inc]
  exact hc'.inc_iff n dir e

end Retagged

namespace TagMove

variable {V V' : View N E} {deeds : History N E}

/-- A change of tags leaves all else alone. -/
theorem retagged (h : TagMove V deeds V') : Retagged V V' := by
  cases h with
  | grantMarker run => exact Action.after_of_ok run ▸ Retagged.grantMarker V
  | refuseMarker run => exact Action.after_of_error run ▸ Retagged.grantMarker V
  | freeMarker run => exact Action.after_of_ok run ▸ Retagged.freeMarker V _
  | sweepMarkers => exact Retagged.mapAreas V _
  | mark x marker inUse live => exact Retagged.setArea V _ x
  | unmark x marker inUse live => exact Retagged.setArea V _ x
  | grantNum run => exact Action.after_of_ok run ▸ Retagged.grantNum V
  | refuseNum run => exact Action.after_of_error run ▸ Retagged.grantNum V
  | freeNum run => exact Action.after_of_ok run ▸ Retagged.freeNum V _
  | sweepNums => exact Retagged.mapAreas V _
  | setNumber x num value inUse live fits => exact Retagged.setArea V _ x
  | unnumber x num inUse live => exact Retagged.setArea V _ x

/-- A move about tags leaves deeds on tags. -/
theorem onTags (h : TagMove V deeds V') : ∀ deed ∈ deeds, deed.onTags = true := by
  cases h <;> simp [Deed.onTags]

end TagMove

/-! ### Consistency -/

/-- A move leads from a consistent view to a consistent view. -/
theorem Move.consistent {V V' : View N E} {deeds : History N E} (hmove : Move V deeds V')
    (h : V.Consistent) : V'.Consistent := by
  cases hmove with
  | skipNode => exact h.skipNode
  | skipEdge => exact h.skipEdge
  | addNode p data free => exact h.newNode data free
  | addEdge p pred succ data up down free =>
      refine h.newEdge data free fun dir => ?_
      cases dir with
      | up => simp [DirPair.get, (Population.find?_eq_some_iff.1 up).1]
      | down => simp [DirPair.get, (Population.find?_eq_some_iff.1 down).1]
  | removeNode node live => exact h.removeNode node.slot
  | removeEdge edge live => exact h.prune _
  | clear => exact h.clear
  | moveEnd edge dir node live target =>
      exact h.retarget (by simp [(Population.find?_eq_some_iff.1 live).1])
        (by simp [(Population.find?_eq_some_iff.1 target).1])
  | writeNode node f live => exact h.writeNode node.slot fun _ => rfl
  | writeEdge edge f live => exact h.writeEdge edge.slot (fun _ => rfl) fun _ => rfl
  | tags change => exact change.retagged.consistent h

/-- No move changes the number of a graph. -/
theorem Move.id_eq {V V' : View N E} {deeds : History N E} (hmove : Move V deeds V') :
    V'.id = V.id := by
  cases hmove with
  | tags change => exact change.retagged.id
  | _ => rfl

/-- Moves leave the number of a graph alone. -/
theorem Moves.id_eq {V V' : View N E} {deeds : History N E} (h : Moves V deeds V') :
    V'.id = V.id := by
  induction h with
  | none => rfl
  | after _ hmove ih => exact hmove.id_eq.trans ih

/-! ### Moves that are not about tags -/

/-- A change that is not about tags: the entities that are left over keep their tags, and new
ones have none. -/
structure Structural (V : View N E) (deeds : History N E) (V' : View N E) : Prop where
  /-- The ledger of the markers. -/
  markers : V'.markers = V.markers
  /-- The ledger of the numerations. -/
  nums : V'.nums = V.nums
  /-- No deed is about tags. -/
  offTags : ∀ deed ∈ deeds, deed.onTags = false
  /-- The tags of the entities. -/
  areas : ∀ {kind : EntityKind} (x : Handle kind) (area : TagArea), V'.area? x = some area →
    ((∃ deed ∈ deeds, deed.adds = some ⟨kind, x⟩) ∧ area = .clean) ∨
    ((∀ deed ∈ deeds, deed.adds ≠ some ⟨kind, x⟩) ∧ V.area? x = some area)

namespace Structural

variable {V V' : View N E} {deeds : History N E}

/-- A change that adds nothing. -/
theorem of_area? (hmarkers : V'.markers = V.markers) (hnums : V'.nums = V.nums)
    (hdeeds : ∀ deed ∈ deeds, deed.onTags = false ∧ deed.adds = none)
    (hareas : ∀ {kind : EntityKind} (x : Handle kind) (area : TagArea),
      V'.area? x = some area → V.area? x = some area) : Structural V deeds V' where
  markers := hmarkers
  nums := hnums
  offTags deed hdeed := (hdeeds deed hdeed).1
  areas x area hx := .inr ⟨fun deed hdeed => by simp [(hdeeds deed hdeed).2], hareas x area hx⟩

/-- A change that adds one entity. -/
theorem of_new {deed : Deed N E} {new : AnyHandle} (hmarkers : V'.markers = V.markers)
    (hnums : V'.nums = V.nums) (hdeed : deed.onTags = false) (hadds : deed.adds = some new)
    (hareas : ∀ {kind : EntityKind} (x : Handle kind),
      V'.area? x = if (⟨kind, x⟩ : AnyHandle) = new then some .clean else V.area? x) :
    Structural V [deed] V' where
  markers := hmarkers
  nums := hnums
  offTags deed' hdeed' := List.mem_singleton.1 hdeed' ▸ hdeed
  areas {kind} x area hx := by
    rw [hareas] at hx
    by_cases hnew : (⟨kind, x⟩ : AnyHandle) = new
    · rw [if_pos hnew] at hx
      exact .inl ⟨⟨deed, List.mem_singleton_self deed, by rw [hadds, hnew]⟩,
        (Option.some.inj hx).symm⟩
    · rw [if_neg hnew] at hx
      refine .inr ⟨fun deed' hdeed' heq => hnew ?_, hx⟩
      rw [List.mem_singleton.1 hdeed', hadds] at heq
      exact (Option.some.inj heq).symm

end Structural

/-- A move is about tags, or it is not. -/
theorem Move.tags_or_structural {V V' : View N E} {deeds : History N E}
    (hmove : Move V deeds V') : TagMove V deeds V' ∨ Structural V deeds V' := by
  cases hmove with
  | tags change => exact .inl change
  | addNode p data free =>
      exact .inr (.of_new rfl rfl rfl rfl fun x => View.area?_newNode data free x)
  | addEdge p pred succ data up down free =>
      exact .inr (.of_new rfl rfl rfl rfl fun x => View.area?_newEdge _ data free x)
  | skipNode =>
      refine .inr (.of_area? rfl rfl (by simp) fun {kind} x area hx => ?_)
      cases kind <;> exact hx
  | skipEdge =>
      refine .inr (.of_area? rfl rfl (by simp) fun {kind} x area hx => ?_)
      cases kind <;> exact hx
  | removeNode node live =>
      exact .inr (.of_area? rfl rfl (by simp [Deed.onTags, Deed.adds])
        fun _ _ => View.area?_of_removeNode)
  | removeEdge edge live =>
      exact .inr (.of_area? rfl rfl (by simp [Deed.onTags, Deed.adds])
        fun _ _ => View.area?_of_prune)
  | clear =>
      refine .inr (.of_area? rfl rfl (by simp [Deed.onTags, Deed.adds]) fun x area hx => ?_)
      rw [View.area?_clear] at hx
      cases hx
  | moveEnd edge dir node live target =>
      refine .inr (.of_area? rfl rfl (by simp [Deed.onTags, Deed.adds]) fun x area hx => ?_)
      rwa [View.area?_retarget] at hx
  | writeNode node f live =>
      refine .inr (.of_area? rfl rfl (by simp [Deed.onTags, Deed.adds]) fun x area hx => ?_)
      rw [View.area?_writeNode] at hx
      exacts [hx, fun _ => rfl, fun _ => rfl]
  | writeEdge edge f live =>
      refine .inr (.of_area? rfl rfl (by simp [Deed.onTags, Deed.adds]) fun x area hx => ?_)
      rw [View.area?_writeEdge] at hx
      exacts [hx, fun _ => rfl, fun _ => rfl]

/-! ### New entities -/

/-- The id that the next entity of a kind gets. -/
def View.next (V : View N E) : EntityKind → Nat
  | .node => V.nodes.next
  | .edge => V.edges.next

/-- The ids of the entities were given out. -/
theorem View.Consistent.uid_lt_next {V : View N E} (hc : V.Consistent) {kind : EntityKind}
    {x : Handle kind} (hx : (V.area? x).isSome = true) : x.uid < V.next kind := by
  cases kind with
  | node =>
      obtain ⟨b, hb⟩ := Option.isSome_iff_exists.1 (Option.isSome_map.symm.trans hx)
      obtain ⟨hbody, heq⟩ := Population.find?_eq_some_iff.1 hb
      rw [heq]
      exact hc.nodes.uid_lt _ b hbody
  | edge =>
      obtain ⟨b, hb⟩ := Option.isSome_iff_exists.1 (Option.isSome_map.symm.trans hx)
      obtain ⟨hbody, heq⟩ := Population.find?_eq_some_iff.1 hb
      rw [heq]
      exact hc.edges.uid_lt _ b hbody

/-- Changing tags gives out no id. -/
theorem Retagged.next {V V' : View N E} (h : Retagged V V') (kind : EntityKind) :
    V'.next kind = V.next kind := by
  obtain ⟨f, hf⟩ := h.nodes
  obtain ⟨f', hf'⟩ := h.edges
  cases kind with
  | node => exact (congrArg Population.next hf).trans rfl
  | edge => exact (congrArg Population.next hf').trans rfl

/-- Changing tags neither adds nor removes an entity. -/
theorem Retagged.isSome_area? {V V' : View N E} (h : Retagged V V') {kind : EntityKind}
    (x : Handle kind) : (V'.area? x).isSome = (V.area? x).isSome := by
  obtain ⟨f, hf⟩ := h.nodes
  obtain ⟨f', hf'⟩ := h.edges
  cases kind with
  | node =>
      change (V'.nodes.area? V'.id x).isSome = (V.nodes.area? V.id x).isSome
      rw [hf, h.id, Population.isSome_area?_alter]
      exact fun _ _ => rfl
  | edge =>
      change (V'.edges.area? V'.id x).isSome = (V.edges.area? V.id x).isSome
      rw [hf', h.id, Population.isSome_area?_alter]
      exact fun _ _ => rfl

/-- Ids are not taken back, and an entity that is added gets an id that was not given out. -/
theorem Move.next_le {V V' : View N E} {deeds : History N E} (hmove : Move V deeds V')
    (kind : EntityKind) : V.next kind ≤ V'.next kind ∧
      ∀ deed ∈ deeds, ∀ x : Handle kind, deed.adds = some ⟨kind, x⟩ → V.next kind ≤ x.uid := by
  cases hmove with
  | tags change =>
      refine ⟨(change.retagged.next kind).ge, fun deed hdeed x hadds => ?_⟩
      rw [Deed.adds_of_onTags (change.onTags deed hdeed)] at hadds
      cases hadds
  | skipNode => cases kind <;> simp [View.next, View.skipNode, Population.skip]
  | skipEdge => cases kind <;> simp [View.next, View.skipEdge, Population.skip]
  | addNode p data free =>
      cases kind with
      | node => simp [View.next, View.newNode, Population.add, Deed.adds]
      | edge => simp [View.next, View.newNode, Deed.adds]
  | addEdge p pred succ data up down free =>
      cases kind with
      | node => simp [View.next, View.newEdge, View.addEdge, Deed.adds]
      | edge => simp [View.next, View.newEdge, View.addEdge, Population.add, Deed.adds]
  | _ => cases kind <;> exact ⟨Nat.le_refl _, by simp [Deed.adds]⟩

/-- An id that was given out is not given out again. -/
theorem Moves.not_adds_of_lt {V V' : View N E} {deeds : History N E} (h : Moves V deeds V')
    {kind : EntityKind} {x : Handle kind} (hx : x.uid < V.next kind) :
    x.uid < V'.next kind ∧ ∀ deed ∈ deeds, deed.adds ≠ some ⟨kind, x⟩ := by
  induction h with
  | none => exact ⟨hx, by simp⟩
  | after _ hmove ih =>
      obtain ⟨hle, hadds⟩ := hmove.next_le kind
      refine ⟨Nat.lt_of_lt_of_le ih.1 hle, fun deed hdeed heq => ?_⟩
      rcases List.mem_append.1 hdeed with hdeed | hdeed
      · exact absurd ih.1 (Nat.not_lt.2 (hadds deed hdeed x heq))
      · exact ih.2 deed hdeed heq

/-- An entity that is there now and was not there before was added. -/
theorem Moves.adds_of_area? {V V' : View N E} {deeds : History N E} (h : Moves V deeds V')
    {kind : EntityKind} {x : Handle kind} {area : TagArea} (hold : (V.area? x).isSome = false)
    (hnew : V'.area? x = some area) : ∃ deed ∈ deeds, deed.adds = some ⟨kind, x⟩ := by
  induction h generalizing area with
  | none =>
      rw [hnew] at hold
      cases hold
  | @after deeds deeds' V' V'' _ hmove ih =>
      have hbefore : ∀ area', V'.area? x = some area' →
          ∃ deed ∈ deeds' ++ deeds, deed.adds = some ⟨kind, x⟩ := by
        intro area' hx
        obtain ⟨deed, hdeed, hadds⟩ := ih hx
        exact ⟨deed, List.mem_append_right _ hdeed, hadds⟩
      rcases hmove.tags_or_structural with change | hs
      · have hsome := change.retagged.isSome_area? x
        rw [hnew] at hsome
        obtain ⟨area', hx⟩ := Option.isSome_iff_exists.1 hsome.symm
        exact hbefore area' hx
      · rcases hs.areas x area hnew with ⟨⟨deed, hdeed, hadds⟩, -⟩ | ⟨-, hx⟩
        · exact ⟨deed, List.mem_append_left _ hdeed, hadds⟩
        · exact hbefore area hx

/-! ### What moves preserve -/

/-- What every move preserves holds after any sequence of moves. -/
theorem Moves.preserves {V V' : View N E} {deeds past : History N E}
    {I : View N E → History N E → Prop} (h : Moves V deeds V') (hc : V.Consistent)
    (hmove : ∀ {V V' : View N E} {deeds past : History N E}, V.Consistent → I V past →
      Move V deeds V' → I V' (deeds ++ past))
    (hI : I V past) : V'.Consistent ∧ I V' (deeds ++ past) := by
  induction h with
  | none => exact ⟨hc, hI⟩
  | after _ hnext ih =>
      rw [List.append_assoc]
      exact ⟨hnext.consistent ih.1, hmove ih.1 ih.2 hnext⟩

end SlabGraph
