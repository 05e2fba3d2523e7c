import SlabGraph.Proofs.History.World
import SlabGraph.Proofs.Walk

/-!
# Attachments

An end of an edge is attached to a node when the edge is added, and again whenever the end is
moved, also to the node it was at before. The history says when this happened last
(`History.lastAttached`), and the edges in a list of a node stand in this order, the one that was
attached last in front (`View.AttachedInOrder`).

Every move preserves the order. Attaching puts an edge in front, and it is the latest deed of
all. Any other move takes edges out at most, and is no attachment.

## Main definitions

* `Deed.attaches`, `History.lastAttached`, `View.AttachedInOrder`.

## Main results

* `View.AttachedInOrder.move`.
-/

namespace SlabGraph

variable {N E : Type}

/-! ### Attaching an end -/

/-- Whether a deed attaches the `dir` end of an edge to a node. -/
def Deed.attaches (edge : EdgeHandle) (dir : Direction) : Deed N E → Bool
  | .addEdge added _ _ => edge == added
  | .moveEnd moved dir' _ => edge == moved && dir == dir'
  | _ => false

/-- The place in the history of the last deed that attached the `dir` end of an edge, where the
first deed of all has place 1. -/
def History.lastAttached (edge : EdgeHandle) (dir : Direction) : History N E → Nat
  | [] => 0
  | deed :: past =>
    if deed.attaches edge dir then past.length + 1 else History.lastAttached edge dir past

namespace History

variable {edge : EdgeHandle} {dir : Direction} {deed : Deed N E} {deeds past : History N E}

/-- The last attachment has a place in the history. -/
theorem lastAttached_le (edge : EdgeHandle) (dir : Direction) (past : History N E) :
    lastAttached edge dir past ≤ past.length := by
  induction past with
  | nil => exact Nat.le_refl 0
  | cons deed past ih =>
      rw [lastAttached, List.length_cons]
      split
      · exact Nat.le_refl _
      · exact Nat.le_succ_of_le ih

/-- A deed that attaches an end of an edge is the last one to do so. -/
theorem lastAttached_cons_of_attaches (h : deed.attaches edge dir = true) :
    lastAttached edge dir (deed :: past) = past.length + 1 := if_pos h

/-- Another deed does not change when the end was attached last. -/
theorem lastAttached_cons_of_not (h : deed.attaches edge dir = false) :
    lastAttached edge dir (deed :: past) = lastAttached edge dir past :=
  if_neg (by simp [h])

/-- Deeds that do not attach the end of an edge leave the place where it is. -/
theorem lastAttached_append (h : ∀ deed ∈ deeds, deed.attaches edge dir = false) :
    lastAttached edge dir (deeds ++ past) = lastAttached edge dir past := by
  induction deeds with
  | nil => rfl
  | cons deed deeds ih =>
      rw [List.cons_append, lastAttached_cons_of_not (h deed List.mem_cons_self)]
      exact ih fun deed' hdeed' => h deed' (List.mem_cons_of_mem deed hdeed')

end History

/-- A deed about tags attaches nothing. -/
theorem Deed.attaches_of_onTags {deed : Deed N E} (h : deed.onTags = true) (edge : EdgeHandle)
    (dir : Direction) : deed.attaches edge dir = false := by
  cases deed <;> first | rfl | cases h

/-! ### The order of the lists -/

namespace View

variable {V V' : View N E} {past past' : History N E}

/-- The handle of the edge in a slot depends on its id and on the graph. -/
theorem edgeAt_congr {e : Ptr} (hid : V'.id = V.id)
    (huid : (V'.edges.body e).map Body.uid = (V.edges.body e).map Body.uid) :
    V'.edgeAt e = V.edgeAt e := by
  have helim : ∀ o : Option (Body (DirPair Ptr) E), o.elim 0 Body.uid = (o.map Body.uid).getD 0 :=
    fun o => by cases o <;> rfl
  rw [edgeAt, edgeAt, hid, helim, helim, huid]

/-- Altering an edge in place does not change its handle. -/
theorem edgeAt_of_write {p : Ptr} {k : Body (DirPair Ptr) E → Body (DirPair Ptr) E}
    (hid : V'.id = V.id) (hedges : V'.edges = V.edges.write p k)
    (hk : ∀ b, (k b).uid = b.uid) (e : Ptr) : V'.edgeAt e = V.edgeAt e := by
  refine edgeAt_congr hid ?_
  rw [hedges, Population.body_write]
  split
  · rw [Option.map_map]
    exact congrArg (Option.map · _) (funext hk)
  · rfl

/-- In each list of a node, edges that were attached later stand before those that were
attached earlier. -/
def AttachedInOrder (V : View N E) (past : History N E) : Prop :=
  ∀ n dir, (V.inc n dir).Pairwise fun e f =>
    History.lastAttached (V.edgeAt f) dir.rev past <
      History.lastAttached (V.edgeAt e) dir.rev past

namespace AttachedInOrder

/-- A blank view has no lists that could be out of order. -/
theorem blank (id : GraphId) (nodeRoom edgeRoom : Nat) (markers : TagLedger .marker)
    (nums : TagLedger .numeration) :
    (View.blank id nodeRoom edgeRoom markers nums : View N E).AttachedInOrder [] :=
  fun _ _ => List.Pairwise.nil

/-- Edges may leave the lists, as long as those that stay keep their handles and are not
attached anew. -/
theorem of_sublist (h : V.AttachedInOrder past)
    (hinc : ∀ n dir, (V'.inc n dir).Sublist (V.inc n dir))
    (hedge : ∀ n dir, ∀ e ∈ V'.inc n dir, V'.edgeAt e = V.edgeAt e)
    (hlast : ∀ edge dir, History.lastAttached edge dir past' =
      History.lastAttached edge dir past) : V'.AttachedInOrder past' := by
  intro n dir
  refine ((h n dir).sublist (hinc n dir)).imp_of_mem fun {e f} he hf hlt => ?_
  rw [hedge n dir e he, hedge n dir f hf, hlast, hlast]
  exact hlt

/-- Changing tags leaves the order of attachments alone. -/
theorem retag (h : V.AttachedInOrder past) (hretagged : Retagged V V') :
    V'.AttachedInOrder past := by
  obtain ⟨f, hedges⟩ := hretagged.edges
  refine h.of_sublist (fun n dir => ?_) (fun n dir e _ => ?_) fun _ _ => rfl
  · rw [hretagged.inc]
  · refine edgeAt_congr hretagged.id ?_
    rw [hedges, Population.body_alter, Option.map_map]
    rfl

/-- Edges are taken out of the graph. -/
theorem prune (h : V.AttachedInOrder past) (k : Ptr → Bool) :
    (V.prune k).AttachedInOrder past := by
  refine h.of_sublist (fun n dir => List.filter_sublist) (fun n dir e he => ?_) fun _ _ => rfl
  refine edgeAt_congr rfl ?_
  change (if k e then V.edges.body e else none).map _ = _
  rw [if_pos (List.mem_filter.1 he).2]

/-- An edge is altered in place. -/
theorem writeEdge (h : V.AttachedInOrder past) (p : Ptr)
    {k : Body (DirPair Ptr) E → Body (DirPair Ptr) E} (hk : ∀ b, (k b).uid = b.uid) :
    (V.writeEdge p k).AttachedInOrder past := by
  have hedge : ∀ e, (V.writeEdge p k).edgeAt e = V.edgeAt e := edgeAt_of_write rfl rfl hk
  exact h.of_sublist (fun _ _ => List.Sublist.refl _) (fun _ _ e _ => hedge e) fun _ _ => rfl

/-- Deeds that attach nothing. -/
theorem later (h : V.AttachedInOrder past) {deeds : History N E}
    (hdeeds : ∀ edge dir, ∀ deed ∈ deeds, deed.attaches edge dir = false) :
    V.AttachedInOrder (deeds ++ past) :=
  h.of_sublist (fun _ _ => List.Sublist.refl _) (fun _ _ _ _ => rfl)
    fun edge dir => History.lastAttached_append (hdeeds edge dir)

/-- One deed that attaches nothing. -/
theorem next (h : V.AttachedInOrder past) {deed : Deed N E}
    (hdeed : ∀ edge dir, deed.attaches edge dir = false) : V.AttachedInOrder (deed :: past) :=
  h.later fun edge dir _ hmem => List.mem_singleton.1 hmem ▸ hdeed edge dir

/-- A list with an edge in front that was attached by the latest deed, and behind it edges that
were not. -/
theorem cons (h : V.AttachedInOrder past) (V' : View N E) (e n : Ptr) (dir : Direction)
    {deed : Deed N E} {xs : List Ptr} (hxs : xs.Sublist (V.inc n dir))
    (hedge : ∀ q ∈ xs, V'.edgeAt q = V.edgeAt q)
    (hnew : deed.attaches (V'.edgeAt e) dir.rev = true)
    (hold : ∀ q ∈ xs, deed.attaches (V'.edgeAt q) dir.rev = false) :
    (e :: xs).Pairwise fun p q => History.lastAttached (V'.edgeAt q) dir.rev (deed :: past) <
      History.lastAttached (V'.edgeAt p) dir.rev (deed :: past) := by
  refine List.pairwise_cons.2 ⟨fun q hq => ?_, ?_⟩
  · rw [History.lastAttached_cons_of_attaches hnew,
      History.lastAttached_cons_of_not (hold q hq)]
    exact Nat.lt_succ_of_le (History.lastAttached_le _ _ past)
  · refine ((h n dir).sublist hxs).imp_of_mem fun {p q} hp hq hlt => ?_
    rw [History.lastAttached_cons_of_not (hold p hp),
      History.lastAttached_cons_of_not (hold q hq), hedge p hp, hedge q hq]
    exact hlt

/-- A new edge is in front of both its lists, and was attached last. -/
theorem newEdge (h : V.AttachedInOrder past) (hc : V.Consistent) {p : Ptr}
    (ends : DirPair NodeHandle) (data : E) (hp : V.edges.body p = none) :
    (V.newEdge p ⟨ends.up.slot, ends.down.slot⟩ data).AttachedInOrder
      (.addEdge ⟨V.id, V.edges.next, p⟩ ends data :: past) := by
  have hbody : (V.newEdge p ⟨ends.up.slot, ends.down.slot⟩ data).edges.body p =
      some ⟨V.edges.next, ⟨ends.up.slot, ends.down.slot⟩, .clean, data⟩ :=
    Population.body_add_self p _
  have hself := edgeAt_eq hbody
  have hedge : ∀ q, q ≠ p →
      (V.newEdge p ⟨ends.up.slot, ends.down.slot⟩ data).edgeAt q = V.edgeAt q := fun q hq =>
    edgeAt_congr rfl (congrArg _ (Population.body_add_of_ne _ hq))
  have hne : ∀ n dir, ∀ q ∈ V.inc n dir, q ≠ p := fun n dir q hq heq =>
    hc.not_mem_inc_of_free hp n dir (heq ▸ hq)
  have hold : ∀ n dir, ∀ q ∈ V.inc n dir,
      (Deed.addEdge ⟨V.id, V.edges.next, p⟩ ends data : Deed N E).attaches
        ((V.newEdge p ⟨ends.up.slot, ends.down.slot⟩ data).edgeAt q) dir.rev = false := by
    intro n dir q hq
    rw [Deed.attaches, beq_eq_false_iff_ne]
    exact fun heq => hne n dir q hq (congrArg Handle.slot heq)
  intro n dir
  have hlist := h.cons (V.newEdge p ⟨ends.up.slot, ends.down.slot⟩ data) p n dir
    (List.Sublist.refl (V.inc n dir)) (fun q hq => hedge q (hne n dir q hq))
    (by rw [hself]; exact beq_self_eq_true _) (hold n dir)
  change (if _ then p :: V.inc n dir else V.inc n dir).Pairwise _
  split
  · exact hlist
  · exact (List.pairwise_cons.1 hlist).2

/-- A retargeted edge is in front of its new list, and was attached last. -/
theorem retarget (h : V.AttachedInOrder past) (edge : EdgeHandle) (dir : Direction)
    (node : NodeHandle) {b : Body (DirPair Ptr) E}
    (hb : V.edges.find? V.id edge = some b) :
    (V.retarget edge.slot dir node.slot).AttachedInOrder (.moveEnd edge dir node :: past) := by
  have hedge : ∀ q, (V.retarget edge.slot dir node.slot).edgeAt q = V.edgeAt q :=
    edgeAt_of_write rfl rfl fun _ => rfl
  have hself : V.edgeAt edge.slot = edge := by
    obtain ⟨hbody, heq⟩ := Population.find?_eq_some_iff.1 hb
    rw [edgeAt_eq hbody, ← heq]
  intro n d
  change (if _ then (if _ then _ else _) else V.inc n d).Pairwise _
  -- no list of the other direction changes, nor what was attached to it last
  by_cases hd : d = dir.rev
  · subst hd
    have hne : ∀ q ∈ (V.inc n dir.rev).filter (· != edge.slot), V.edgeAt q ≠ edge :=
      fun q hq heq => bne_iff_ne.1 (List.mem_filter.1 hq).2 (congrArg Handle.slot heq)
    have hsub : ((V.inc n dir.rev).filter (· != edge.slot)).Sublist (V.inc n dir.rev) :=
      List.filter_sublist
    have hlist := h.cons (V.retarget edge.slot dir node.slot) edge.slot n dir.rev hsub
      (fun q _ => hedge q)
      (show (Deed.moveEnd edge dir node : Deed N E).attaches _ _ = true by
        simp [Deed.attaches, hedge, hself])
      fun q hq => by simp [Deed.attaches, hedge, hne q hq]
    rw [if_pos rfl]
    split
    · exact hlist
    · exact (List.pairwise_cons.1 hlist).2
  · rw [if_neg hd]
    have hdir : (d.rev == dir) = false := by
      rw [beq_eq_false_iff_ne]
      exact fun heq => hd (by rw [← heq, Direction.rev_rev])
    refine (h n d).imp fun {e f} hlt => ?_
    rw [History.lastAttached_cons_of_not (by simp [Deed.attaches, hdir]),
      History.lastAttached_cons_of_not (by simp [Deed.attaches, hdir]), hedge, hedge]
    exact hlt

/-- Every move keeps the lists in order. -/
theorem move (hc : V.Consistent) (h : V.AttachedInOrder past) {deeds : History N E}
    (hmove : Move V deeds V') : V'.AttachedInOrder (deeds ++ past) := by
  cases hmove with
  | skipNode | skipEdge => exact h
  | addNode p data free => exact AttachedInOrder.next (V := V.newNode p data) h fun _ _ => rfl
  | addEdge p pred succ data up down free =>
      exact h.newEdge hc ⟨pred, succ⟩ data free
  | removeNode node live =>
      exact AttachedInOrder.next (V := V.removeNode node.slot) (h.prune _) fun _ _ => rfl
  | removeEdge edge live => exact (h.prune _).next fun _ _ => rfl
  | clear => exact AttachedInOrder.next (V := V.clear) (h.prune _) fun _ _ => rfl
  | moveEnd edge dir node live target => exact h.retarget edge dir node live
  | writeNode node f live =>
      exact AttachedInOrder.next
        (V := V.writeNode node.slot fun b => { b with data := f b.data }) h fun _ _ => rfl
  | writeEdge edge f live =>
      exact (h.writeEdge (k := fun b => { b with data := f b.data }) edge.slot
        fun _ => rfl).next fun _ _ => rfl
  | tags change =>
      exact (h.retag change.retagged).later fun edge dir deed hdeed =>
        Deed.attaches_of_onTags (change.onTags deed hdeed) edge dir

end AttachedInOrder

end View

end SlabGraph
