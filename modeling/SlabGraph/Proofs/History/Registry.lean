import SlabGraph.Proofs.History.World

/-!
# Views and Histories

A view and a history agree about handles (`View.Registered`): a handle finds something in the
view exactly if the history says that its entity is live, what it finds is what was stored
last, and the ends of an edge are the nodes it was last given. The handles that were issued
have ids that the view has given out, later ones greater ids than earlier ones, and so no
handle is ever issued twice.

All of this is preserved by each move (`View.Registered.move`). Nodes and edges are treated
alike, as populations whose members were issued handles (`Population.Registered`).

## Main results

* `View.Registered.move`, `View.Registered.retag`.
-/

namespace SlabGraph

/-! ### Populations -/

/-- A population agrees with a record of the handles that were issued: whether their entities
are live, and what was stored last. -/
structure Population.Registered {kind : EntityKind} {κ δ : Type} (P : Population κ δ)
    (graph : GraphId) (live : Handle kind → Prop) (data? : Handle kind → Option δ)
    (issued : List (Handle kind)) : Prop where
  /-- Live handles, and no others, find something. -/
  live_iff : ∀ h, (P.find? graph h).isSome = true ↔ live h
  /-- They find what was stored last. -/
  data : ∀ h b, P.find? graph h = some b → data? h = some b.data
  /-- Issued handles have ids that were given out. -/
  issued_lt : ∀ h ∈ issued, h.graph = graph ∧ h.uid < P.next
  /-- Later handles have greater ids. -/
  newest_first : issued.Pairwise fun a b => b.uid < a.uid

namespace Population.Registered

variable {kind : EntityKind} {κ δ : Type} {P : Population κ δ} {graph : GraphId}
  {live : Handle kind → Prop} {data? : Handle kind → Option δ} {issued : List (Handle kind)}

/-- A population without members agrees with an empty record. -/
theorem nobody (graph : GraphId) (limit : Nat) :
    (Population.nobody limit : Population κ δ).Registered graph (fun _ : Handle kind => False)
      (fun _ => none) [] where
  live_iff h := by simp
  data h b hb := by simp at hb
  issued_lt h hh := by cases hh
  newest_first := List.Pairwise.nil

/-- What a population agrees with may be said in other words. -/
theorem congr {live' : Handle kind → Prop} (h : P.Registered graph live data? issued)
    (hlive : ∀ x, live x ↔ live' x) : P.Registered graph live' data? issued where
  live_iff x := (h.live_iff x).trans (hlive x)
  data := h.data
  issued_lt := h.issued_lt
  newest_first := h.newest_first

/-- The handle of a live entity finds it. -/
theorem exists_body (h : P.Registered graph live data? issued) {x : Handle kind} (hx : live x) :
    ∃ b, P.find? graph x = some b :=
  Option.isSome_iff_exists.1 ((h.live_iff x).2 hx)

/-- A slot that is free holds nothing that is live. -/
theorem not_live_of_free (h : P.Registered graph live data? issued) {x : Handle kind}
    (hx : P.body x.slot = none) : ¬ live x := by
  rw [← h.live_iff, find?_of_free hx]
  exact Bool.false_ne_true

/-- There are as many members as live handles. -/
theorem length_eq (h : P.Registered graph live data? issued) (hc : P.Consistent)
    {xs : List (Handle kind)} (hnodup : xs.Nodup) (hmem : ∀ x, x ∈ xs ↔ live x) :
    P.members.length = xs.length := by
  have hslots : (xs.map Handle.slot).Nodup := by
    refine hnodup.map_on fun x hx y hy heq => ?_
    obtain ⟨b, hb⟩ := h.exists_body ((hmem x).1 hx)
    obtain ⟨c, hc⟩ := h.exists_body ((hmem y).1 hy)
    exact Population.eq_of_find? hb hc heq
  have hperm : P.members.Perm (xs.map Handle.slot) := by
    refine (List.perm_ext_iff_of_nodup hc.nodup hslots).2 fun p => ?_
    rw [hc.mem_iff, List.mem_map]
    constructor
    · intro hp
      obtain ⟨b, hb⟩ := Option.isSome_iff_exists.1 hp
      let x : Handle kind := ⟨graph, b.uid, p⟩
      have hx : P.find? graph x = some b := find?_eq_some_iff.2 ⟨hb, rfl⟩
      exact ⟨x, (hmem x).2 ((h.live_iff x).1 (by simp [hx])), rfl⟩
    · rintro ⟨x, hx, rfl⟩
      obtain ⟨b, hb⟩ := h.exists_body ((hmem x).1 hx)
      simp [(find?_eq_some_iff.1 hb).1]
  rw [hperm.length_eq, List.length_map]

/-- Adding a member makes its handle live, and issues it. -/
theorem add (h : P.Registered graph live data? issued) {p : Ptr} {b : Body κ δ}
    (hp : P.body p = none) (hb : b.uid = P.next) :
    (P.add p b).Registered graph (fun x => x = ⟨graph, P.next, p⟩ ∨ live x)
      (fun x => if x = ⟨graph, P.next, p⟩ then some b.data else data? x)
      (⟨graph, P.next, p⟩ :: issued) where
  live_iff x := by
    rw [isSome_find?_add b hp, hb, h.live_iff]
  data x c hc := by
    rw [find?_add b hp, hb] at hc
    by_cases hx : x = ⟨graph, P.next, p⟩
    · rw [if_pos hx] at hc ⊢
      rw [Option.some.inj hc]
    · rw [if_neg hx] at hc ⊢
      exact h.data x c hc
  issued_lt x hx := by
    rcases List.mem_cons.1 hx with rfl | hx
    · exact ⟨rfl, Nat.lt_succ_self _⟩
    · exact ⟨(h.issued_lt x hx).1, Nat.lt_succ_of_lt (h.issued_lt x hx).2⟩
  newest_first := List.pairwise_cons.2 ⟨fun x hx => (h.issued_lt x hx).2, h.newest_first⟩

/-- When some members are kept, the handles of these are live, and no others. -/
theorem keep (h : P.Registered graph live data? issued) (k : Ptr → Bool) :
    (P.keep k).Registered graph (fun x => k x.slot = true ∧ live x) data? issued where
  live_iff x := by
    rw [find?_keep]
    cases hk : k x.slot with
    | true => simpa using h.live_iff x
    | false => simp
  data x b hb := by
    rw [find?_keep] at hb
    cases hk : k x.slot with
    | true => exact h.data x b (by simpa [hk] using hb)
    | false => simp [hk] at hb
  issued_lt := h.issued_lt
  newest_first := h.newest_first

/-- Altering anything but ids and payloads makes no difference. -/
theorem alter (h : P.Registered graph live data? issued) {f : Ptr → Body κ δ → Body κ δ}
    (huid : ∀ p b, (f p b).uid = b.uid) (hdata : ∀ p b, (f p b).data = b.data) :
    (P.alter f).Registered graph live data? issued where
  live_iff x := by
    rw [find?_alter huid, Option.isSome_map]
    exact h.live_iff x
  data x b hb := by
    rw [find?_alter huid] at hb
    obtain ⟨c, hc, rfl⟩ := Option.map_eq_some_iff.1 hb
    rw [hdata]
    exact h.data x c hc
  issued_lt := h.issued_lt
  newest_first := h.newest_first

/-- Altering the payload of an entity stores it there. -/
theorem write (h : P.Registered graph live data? issued) {x : Handle kind} {b : Body κ δ}
    (hx : P.find? graph x = some b) {k : Body κ δ → Body κ δ} (hk : ∀ c, (k c).uid = c.uid) :
    (P.write x.slot k).Registered graph live
      (fun y => if y = x then some (k b).data else data? y) issued where
  live_iff y := by
    rw [isSome_find?_write hk, h.live_iff]
  data y c hc := by
    rw [find?_write hk] at hc
    by_cases hyx : y = x
    · subst hyx
      rw [if_pos rfl, hx] at hc
      rw [if_pos rfl, ← Option.some.inj hc]
    · rw [if_neg hyx]
      by_cases hslot : y.slot = x.slot
      · rw [if_pos hslot] at hc
        obtain ⟨d, hd, -⟩ := Option.map_eq_some_iff.1 hc
        exact absurd (eq_of_find? hd hx hslot) hyx
      · rw [if_neg hslot] at hc
        exact h.data y c hc
  issued_lt := h.issued_lt
  newest_first := h.newest_first

/-- Using up an id makes no difference. -/
theorem skip (h : P.Registered graph live data? issued) :
    P.skip.Registered graph live data? issued where
  live_iff := h.live_iff
  data := h.data
  issued_lt x hx := ⟨(h.issued_lt x hx).1, Nat.lt_succ_of_lt (h.issued_lt x hx).2⟩
  newest_first := h.newest_first

end Population.Registered

/-! ### Views -/

variable {N E : Type} {V V' : View N E} {past : History N E}

/-- A view agrees with a history. -/
structure View.Registered (V : View N E) (past : History N E) : Prop where
  /-- The nodes. -/
  nodes : V.nodes.Registered V.id (History.NodeLive · past) (History.nodeData? · past)
    (History.nodesIssued past)
  /-- The edges. -/
  edges : V.edges.Registered V.id (History.EdgeLive · past) (History.edgeData? · past)
    (History.edgesIssued past)
  /-- The ends of edges are the nodes that they were last given, which are live. -/
  ends : ∀ edge b, V.edges.find? V.id edge = some b → ∀ dir, ∃ node c,
    History.edgeEnd? edge dir past = some node ∧ node.slot = b.incidence.get dir ∧
    V.nodes.find? V.id node = some c

namespace View.Registered

/-- A blank view agrees with the empty history. -/
theorem blank (id : GraphId) (nodeRoom edgeRoom : Nat) (markers : TagLedger .marker)
    (nums : TagLedger .numeration) :
    (View.blank id nodeRoom edgeRoom markers nums : View N E).Registered [] where
  nodes := .nobody id nodeRoom
  edges := .nobody id edgeRoom
  ends edge b hb dir := by simp [View.blank] at hb

/-- A view that differs in tags only agrees with the same history. -/
theorem retag (h : V.Registered past) (hretagged : Retagged V V') : V'.Registered past := by
  obtain ⟨f, hnodes⟩ := hretagged.nodes
  obtain ⟨f', hedges⟩ := hretagged.edges
  refine ⟨?_, ?_, fun edge b hb dir => ?_⟩
  · rw [hnodes, hretagged.id]
    exact h.nodes.alter (fun _ _ => rfl) fun _ _ => rfl
  · rw [hedges, hretagged.id]
    exact h.edges.alter (fun _ _ => rfl) fun _ _ => rfl
  · rw [hedges, hretagged.id, Population.find?_alter] at hb
    swap
    · exact fun _ _ => rfl
    obtain ⟨b₀, hb₀, rfl⟩ := Option.map_eq_some_iff.1 hb
    obtain ⟨node, c, hend, hslot, hc⟩ := h.ends edge b₀ hb₀ dir
    refine ⟨node, { c with area := f node.slot c.area }, hend, hslot, ?_⟩
    rw [hnodes, hretagged.id, Population.find?_alter, hc]
    · rfl
    · exact fun _ _ => rfl

/-- Deeds on tags say nothing about handles. -/
theorem tags (h : V.Registered past) {deeds : History N E}
    (hdeeds : ∀ deed ∈ deeds, deed.onTags = true) : V.Registered (deeds ++ past) := by
  induction deeds with
  | nil => exact h
  | cons deed deeds ih =>
      have hrest := ih fun deed' hdeed' => hdeeds deed' (List.mem_cons_of_mem deed hdeed')
      have hdeed := hdeeds deed List.mem_cons_self
      cases deed with
      | addNode | addEdge | removeNode | removeEdge | clear | moveEnd | writeNode | writeEdge =>
          cases hdeed
      | _ => exact ⟨hrest.nodes, hrest.edges, hrest.ends⟩

/-- A view agrees with its history when a node is added. -/
theorem newNode (h : V.Registered past) {p : Ptr} (data : N) (hp : V.nodes.body p = none) :
    (V.newNode p data).Registered (.addNode ⟨V.id, V.nodes.next, p⟩ data :: past) where
  nodes := h.nodes.add hp rfl
  edges := h.edges
  ends edge b hb dir := by
    obtain ⟨node, c, hend, hslot, hc⟩ := h.ends edge b hb dir
    refine ⟨node, c, hend, hslot, ?_⟩
    have hne : node ≠ ⟨V.id, V.nodes.next, p⟩ := by
      rintro rfl
      rw [(Population.find?_eq_some_iff.1 hc).1] at hp
      cases hp
    simp only [View.newNode]
    rw [Population.find?_add _ hp, if_neg hne, hc]

/-- A view agrees with its history when an edge between live nodes is added. -/
theorem newEdge (h : V.Registered past) {p : Ptr} {pred succ : NodeHandle} (data : E)
    {a b : Body Unit N} (hup : V.nodes.find? V.id pred = some a)
    (hdown : V.nodes.find? V.id succ = some b) (hp : V.edges.body p = none) :
    (V.newEdge p ⟨pred.slot, succ.slot⟩ data).Registered
      (.addEdge ⟨V.id, V.edges.next, p⟩ ⟨pred, succ⟩ data :: past) where
  nodes := h.nodes
  edges := h.edges.add hp rfl
  ends edge c hc dir := by
    change (V.edges.add p _).find? V.id edge = some c at hc
    rw [Population.find?_add _ hp] at hc
    simp only [History.edgeEnd?]
    by_cases hedge : edge = ⟨V.id, V.edges.next, p⟩
    · rw [if_pos hedge] at hc ⊢
      obtain rfl := Option.some.inj hc
      cases dir with
      | up => exact ⟨pred, a, rfl, rfl, hup⟩
      | down => exact ⟨succ, b, rfl, rfl, hdown⟩
    · rw [if_neg hedge] at hc ⊢
      exact h.ends edge c hc dir

/-- A view agrees with its history when an edge is removed. -/
theorem removeEdge (h : V.Registered past) {edge : EdgeHandle} {b : Body (DirPair Ptr) E}
    (hb : V.edges.find? V.id edge = some b) :
    (V.prune (· != edge.slot)).Registered (.removeEdge edge :: past) where
  nodes := h.nodes
  edges := by
    refine (h.edges.keep (· != edge.slot)).congr fun x => and_congr_left fun hx => ?_
    obtain ⟨c, hc⟩ := h.edges.exists_body hx
    rw [bne_iff_ne]
    exact not_congr ⟨Population.eq_of_find? hc hb, congrArg Handle.slot⟩
  ends x c hc dir := by
    change (V.edges.keep _).find? V.id x = some c at hc
    rw [Population.find?_keep] at hc
    exact h.ends x c (by simpa using (Option.ite_none_right_eq_some.1 hc).2) dir

/-- Whether a node was last made an end of a live edge. -/
theorem edgeEnd?_eq_iff (h : V.Registered past) {edge : EdgeHandle}
    {b : Body (DirPair Ptr) E} (hb : V.edges.find? V.id edge = some b) {node : NodeHandle}
    {c : Body Unit N} (hc : V.nodes.find? V.id node = some c) (dir : Direction) :
    History.edgeEnd? edge dir past = some node ↔ b.incidence.get dir = node.slot := by
  obtain ⟨node', c', hend, hslot, hc'⟩ := h.ends edge b hb dir
  rw [hend, ← hslot]
  exact ⟨fun heq => by rw [Option.some.inj heq],
    fun heq => by rw [Population.eq_of_find? hc' hc heq]⟩

/-- A view agrees with its history when a node is removed with its edges. -/
theorem removeNode (h : V.Registered past) (hc : V.Consistent) {node : NodeHandle}
    {b : Body Unit N} (hb : V.nodes.find? V.id node = some b) :
    (V.removeNode node.slot).Registered (.removeNode node :: past) := by
  have hmem : ∀ (edge : EdgeHandle) c, V.edges.find? V.id edge = some c → ∀ dir,
      edge.slot ∈ V.inc node.slot dir.rev ↔ c.incidence.get dir = node.slot := by
    intro edge c hedge dir
    have hbody := (Population.find?_eq_some_iff.1 hedge).1
    rw [hc.inc_iff]
    simp [hbody]
  -- an edge stays exactly if neither of its ends is the node
  have hkeep : ∀ (edge : EdgeHandle) c, V.edges.find? V.id edge = some c →
      ((!(V.inc node.slot .down).contains edge.slot &&
        !(V.inc node.slot .up).contains edge.slot) = true ↔
      ∀ dir, c.incidence.get dir ≠ node.slot) := by
    intro edge c hedge
    have hup := hmem edge c hedge .up
    have hdown := hmem edge c hedge .down
    simp only [Direction.rev] at hup hdown
    simp only [Bool.and_eq_true, Bool.not_eq_true', List.contains_eq_mem, decide_eq_false_iff_not,
      hup, hdown]
    exact ⟨fun hne dir => by cases dir; exacts [hne.1, hne.2], fun hne => ⟨hne .up, hne .down⟩⟩
  refine ⟨?_, ?_, fun edge c hedge dir => ?_⟩
  · refine (h.nodes.keep (· != node.slot)).congr fun x => and_congr_left fun hx => ?_
    obtain ⟨a, ha⟩ := h.nodes.exists_body hx
    rw [bne_iff_ne]
    exact not_congr ⟨Population.eq_of_find? ha hb, congrArg Handle.slot⟩
  · refine (h.edges.keep _).congr fun x => and_congr_left fun hx => ?_
    obtain ⟨c, hedge⟩ := h.edges.exists_body hx
    rw [hkeep x c hedge]
    exact forall_congr' fun dir => not_congr (h.edgeEnd?_eq_iff hedge hb dir).symm
  · change (V.edges.keep _).find? V.id edge = some c at hedge
    rw [Population.find?_keep] at hedge
    obtain ⟨hk, hedge⟩ := Option.ite_none_right_eq_some.1 hedge
    obtain ⟨node', a, hend, hslot, ha⟩ := h.ends edge c hedge dir
    refine ⟨node', a, hend, hslot, ?_⟩
    change (V.nodes.keep _).find? V.id node' = some a
    have hne : node'.slot ≠ node.slot := by
      rw [hslot]
      exact (hkeep edge c hedge).1 hk dir
    rw [Population.find?_keep, if_pos (by simpa using hne), ha]

/-- A view agrees with its history when everything is removed. -/
theorem clear (h : V.Registered past) : V.clear.Registered (.clear :: past) where
  nodes := (h.nodes.keep fun _ => false).congr fun x => by simp [History.NodeLive]
  edges := (h.edges.keep fun _ => false).congr fun x => by simp [History.EdgeLive]
  ends edge b hb := by
    change (V.edges.keep fun _ => false).find? V.id edge = some b at hb
    simp [Population.find?_keep] at hb

/-- A view agrees with its history when an edge is retargeted to a live node. -/
theorem retarget (h : V.Registered past) {edge : EdgeHandle} {node : NodeHandle}
    {b : Body (DirPair Ptr) E} {c : Body Unit N} (hb : V.edges.find? V.id edge = some b)
    (hc : V.nodes.find? V.id node = some c) (dir : Direction) :
    (V.retarget edge.slot dir node.slot).Registered (.moveEnd edge dir node :: past) where
  nodes := h.nodes
  edges := h.edges.alter (fun p b => by by_cases hp : p = edge.slot <;> simp [hp])
    fun p b => by by_cases hp : p = edge.slot <;> simp [hp]
  ends x d hd dir' := by
    change (V.edges.write edge.slot _).find? V.id x = some d at hd
    rw [Population.find?_write] at hd
    swap
    · exact fun _ => rfl
    simp only [History.edgeEnd?]
    by_cases hx : x = edge
    · subst hx
      rw [if_pos rfl, hb] at hd
      obtain rfl := Option.some.inj hd
      by_cases hdir : dir' = dir
      · subst hdir
        exact ⟨node, c, by simp, by simp, hc⟩
      · obtain ⟨node', a, hend, hslot, ha⟩ := h.ends x b hb dir'
        refine ⟨node', a, by simp [hdir, hend], ?_, ha⟩
        rw [hslot, DirPair.get_set_of_ne _ _ (Ne.symm hdir)]
    · rw [if_neg fun hboth => hx hboth.1]
      by_cases hslot : x.slot = edge.slot
      · rw [if_pos hslot] at hd
        obtain ⟨d', hd', -⟩ := Option.map_eq_some_iff.1 hd
        exact absurd (Population.eq_of_find? hd' hb hslot) hx
      · rw [if_neg hslot] at hd
        exact h.ends x d hd dir'

/-- A view agrees with its history when the payload of a node is written. -/
theorem writeNode (h : V.Registered past) {node : NodeHandle} {b : Body Unit N}
    (hb : V.nodes.find? V.id node = some b) (f : N → N) :
    (V.writeNode node.slot fun b => { b with data := f b.data }).Registered
      (.writeNode node (f b.data) :: past) where
  nodes := h.nodes.write hb fun _ => rfl
  edges := h.edges
  ends edge c hc dir := by
    obtain ⟨node', a, hend, hslot, ha⟩ := h.ends edge c hc dir
    have hsome : ((V.nodes.write node.slot fun b => { b with data := f b.data }).find? V.id
        node').isSome = true := by
      rw [Population.find?_write, ha]
      · by_cases hn : node'.slot = node.slot <;> simp [hn]
      · exact fun _ => rfl
    obtain ⟨a', ha'⟩ := Option.isSome_iff_exists.1 hsome
    exact ⟨node', a', hend, hslot, ha'⟩

/-- A view agrees with its history when the payload of an edge is written. -/
theorem writeEdge (h : V.Registered past) {edge : EdgeHandle} {b : Body (DirPair Ptr) E}
    (hb : V.edges.find? V.id edge = some b) (f : E → E) :
    (V.writeEdge edge.slot fun b => { b with data := f b.data }).Registered
      (.writeEdge edge (f b.data) :: past) where
  nodes := h.nodes
  edges := h.edges.write hb fun _ => rfl
  ends x c hc dir := by
    change (V.edges.write edge.slot _).find? V.id x = some c at hc
    rw [Population.find?_write] at hc
    swap
    · exact fun _ => rfl
    by_cases hslot : x.slot = edge.slot
    · rw [if_pos hslot] at hc
      obtain ⟨d, hd, rfl⟩ := Option.map_eq_some_iff.1 hc
      exact h.ends x d hd dir
    · rw [if_neg hslot] at hc
      exact h.ends x c hc dir

/-- Every move keeps a view in agreement with its history. -/
theorem move (hc : V.Consistent) (h : V.Registered past) {deeds : History N E}
    (hmove : Move V deeds V') : V'.Registered (deeds ++ past) := by
  cases hmove with
  | skipNode => exact ⟨h.nodes.skip, h.edges, h.ends⟩
  | skipEdge => exact ⟨h.nodes, h.edges.skip, h.ends⟩
  | addNode p data free => exact h.newNode data free
  | addEdge p pred succ data up down free => exact h.newEdge data up down free
  | removeNode node live => exact h.removeNode hc live
  | removeEdge edge live => exact h.removeEdge live
  | clear => exact h.clear
  | moveEnd edge dir node live target => exact h.retarget live target dir
  | writeNode node f live => exact h.writeNode live f
  | writeEdge edge f live => exact h.writeEdge live f
  | tags change => exact (h.retag change.retagged).tags change.onTags

end View.Registered

end SlabGraph
