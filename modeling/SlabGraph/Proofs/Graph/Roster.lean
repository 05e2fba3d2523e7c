import SlabGraph.Graph.Roster
import SlabGraph.Proofs.Graph.Population
import SlabGraph.Proofs.Pool.Allocation

/-!
# What a Roster Shows

`Roster.Shows f graph roster P` relates a roster to a population: the list through the
records is the list of members, both counters are its length, every record belongs to
`graph`, and the records without their links are the bodies. Of the incidence of a record
only `f` of it is shown, since the heads that a node keeps belong to the edge lists and not
to the node.

Each operation of a roster is then one change of the population. A record that is created or
removed takes its links of the other slots with it and disturbs no others, which is what the
edge lists need to know (`Created.other`, `Removed.other`).

## Main results

* `Roster.shows_new`;
* `Roster.Shows.create_run`, `Roster.Shows.remove_run`, `Roster.Shows.clear_run`;
* `Roster.Shows.lookup_run`, `Roster.Shows.lookup_refused`: what a handle leads to;
* `Roster.Shows.setRecord`, `Roster.Shows.mapAreas`: writing records in place.
-/

namespace SlabGraph

instance {slots : Nat} {ι δ : Type} : LawfulLinked (Record slots ι δ) Ptr slots :=
  ⟨fun _ _ => rfl⟩

/-- The slot of the list of all entities, as one of the slots of a record. -/
def allIndex (slots : Nat) [NeZero slots] : Fin slots := ⟨allSlot, Nat.pos_of_neZero slots⟩

/-- The slot of the `dir` lists of nodes, as one of the slots of an edge. -/
def incidenceIndex (dir : Direction) : Fin 3 :=
  ⟨incidenceSlot dir, by cases dir <;> decide⟩

/-- The lists of the nodes are linked in other slots than the list of all edges. -/
theorem incidenceIndex_ne_all (dir : Direction) : incidenceIndex dir ≠ allIndex 3 := by
  cases dir <;> decide

/-- The two lists of a node are linked in different slots. -/
theorem incidenceIndex_inj {dir dir' : Direction} :
    incidenceIndex dir = incidenceIndex dir' ↔ dir = dir' := by
  cases dir <;> cases dir' <;> decide

/-- The fault with which a graph refuses a handle that is not live. -/
def Handle.refusal {kind : EntityKind} (x : Handle kind) (graph : GraphId) : Fault :=
  if x.graph = graph then .deleted x else .foreign x graph

namespace Record

variable {slots : Nat} {ι κ δ : Type}

/-- A record as it is apart from its links. -/
def bare (r : Record slots ι δ) : Record slots ι δ := { r with links := .unlinked }

/-- What a record holds beside its links. -/
def body (f : ι → κ) (r : Record slots ι δ) : Body κ δ := ⟨r.uid, f r.incidence, r.area, r.data⟩

/-- What a record says apart from its links is the same without them. -/
theorem body_bare (f : ι → κ) (r : Record slots ι δ) : r.bare.body f = r.body f := rfl

/-- What does not depend on links is the same for records that agree apart from them. -/
theorem map_of_bare {β : Type} {g : Record slots ι δ → β} (hg : ∀ r, g r.bare = g r)
    {o u : Option (Record slots ι δ)} (h : o.map bare = u.map bare) : o.map g = u.map g := by
  have hcomp : g ∘ bare = g := funext hg
  rw [← hcomp, ← Option.map_map, ← Option.map_map, h]

end Record

namespace Roster

variable {slots : Nat} {ι κ δ : Type} {f : ι → κ} {graph : GraphId}
  {roster : Roster slots ι δ} {P : Population κ δ}

/-! ### Links that a write leaves alone -/

/-- Writing a record leaves all links as they are. -/
theorem linkMap_setRecord {p : Ptr} {r r' : Record slots ι δ}
    (hr : roster.pool.get? p = some r) (hlinks : r'.links = r.links) (slot : Fin slots) :
    Chain.linkMap (roster.setRecord p r').pool slot = Chain.linkMap roster.pool slot := by
  funext q
  refine Pool.linkMap_congr ?_
  by_cases hq : q = p
  · subst hq
    simp [Roster.setRecord, Pool.get?_replace_self hr, hr, Linked.links, hlinks]
  · simp [Roster.setRecord, Pool.get?_replace_of_ne _ hq]

/-- Altering the tags of all records leaves all links as they are. -/
theorem linkMap_mapAreas (roster : Roster slots ι δ) (g : TagArea → TagArea) (slot : Fin slots) :
    Chain.linkMap (roster.pool.map fun r => { r with area := g r.area }) slot =
      Chain.linkMap roster.pool slot := by
  funext q
  refine Pool.linkMap_congr ?_
  rw [Pool.get?_map, Option.map_map]
  rfl

/-- An allocated record comes without neighbours, and the links of the others stay. -/
theorem linkMap_of_allocated {pool pool' : Pool (Record slots ι δ)} {p : Ptr}
    {r : Record slots ι δ} (h : Pool.Allocated pool p r pool') (hlinks : r.links = .unlinked)
    (slot : Fin slots) (q : Ptr) :
    Chain.linkMap pool' slot q =
      if q = p then some (none, none) else Chain.linkMap pool slot q := by
  by_cases hq : q = p
  · have hget : pool'.get? q = some r := by rw [h.get?, if_pos hq]
    have hrow : (Linked.links r : Links Ptr slots) = .unlinked := hlinks
    rw [if_pos hq, Pool.linkMap_eq_some_of_get? hget, hrow, Links.pair_unlinked]
  · rw [if_neg hq]
    exact Pool.linkMap_congr (by rw [h.get?, if_neg hq])

/-- A deallocated record has no links, and those of the others stay. -/
theorem linkMap_of_deallocated {pool pool' : Pool (Record slots ι δ)} {p : Ptr}
    (h : Pool.Deallocated pool p pool') (slot : Fin slots) (q : Ptr) :
    Chain.linkMap pool' slot q = if q = p then none else Chain.linkMap pool slot q := by
  by_cases hq : q = p
  · have hnone : (Chain.linkMap pool' slot q).isSome = false := by
      rw [Pool.isSome_linkMap, h.get?, if_pos hq]
      rfl
    simpa [hq] using hnone
  · rw [if_neg hq]
    exact Pool.linkMap_congr (by rw [h.get?, if_neg hq])

/-! ### Shown populations -/

variable [NeZero slots]

/-- A roster holds a population. -/
structure Shows (f : ι → κ) (graph : GraphId) (roster : Roster slots ι δ)
    (P : Population κ δ) : Prop where
  /-- The pool of records. -/
  pool : roster.pool.Sound
  /-- The list of all entities. -/
  list : LinkMap.IsList (Chain.linkMap roster.pool (allIndex slots)) P.members
  /-- Its head. -/
  head : roster.first.unpack = P.members.head?
  /-- The number of entities. -/
  count : roster.count = P.members.length
  /-- The number of live records. -/
  live : roster.pool.live = P.members.length
  /-- The id of the next entity. -/
  next : roster.nextUid = P.next
  /-- How many entities there is room for. -/
  limit : P.limit = maxChunks * roster.pool.capacity.entries
  /-- The records belong to the graph. -/
  graph : ∀ p r, roster.pool.get? p = some r → r.graph = graph
  /-- The records hold the bodies. -/
  body : ∀ p, (roster.pool.get? p).map (Record.body f) = P.body p

/-- A new roster shows a population without members. -/
theorem shows_new (f : ι → κ) (graph : GraphId) (capacity : Capacity) :
    Shows f graph (new capacity : Roster slots ι δ)
      (.nobody (maxChunks * capacity.entries)) where
  pool := Pool.sound_new capacity
  list := LinkMap.isList_nil _
  head := by simp [new, Population.nobody]
  count := rfl
  live := rfl
  next := rfl
  limit := rfl
  graph p r hr := by simp [new, Pool.get?_new] at hr
  body p := by simp [new, Pool.get?_new, Population.nobody]

namespace Shows

/-- The slots in which something stands are those of the live records. -/
theorem isSome_body (h : Shows f graph roster P) (p : Ptr) :
    (P.body p).isSome = (roster.pool.get? p).isSome := by
  rw [← h.body p, Option.isSome_map]

/-- What stands in a slot is what a live record says. -/
theorem exists_record (h : Shows f graph roster P) {p : Ptr} {b : Body κ δ}
    (hb : P.body p = some b) : ∃ r, roster.pool.get? p = some r ∧ r.body f = b := by
  rw [← h.body p] at hb
  exact Option.map_eq_some_iff.1 hb

/-- What a live record says stands in its slot. -/
theorem body_of_record (h : Shows f graph roster P) {p : Ptr} {r : Record slots ι δ}
    (hr : roster.pool.get? p = some r) : P.body p = some (r.body f) := by
  rw [← h.body p, hr, Option.map_some]

/-- There is no live record exactly where nothing stands. -/
theorem get?_eq_none (h : Shows f graph roster P) {p : Ptr} :
    roster.pool.get? p = none ↔ P.body p = none := by
  rw [← h.body p, Option.map_eq_none_iff]

/-- A record that was there before, apart from its links, belongs to the graph. -/
theorem graph_of_bare (h : Shows f graph roster P) {o : Option (Record slots ι δ)} {q : Ptr}
    {r : Record slots ι δ} (hbare : o.map Record.bare = (roster.pool.get? q).map Record.bare)
    (hr : o = some r) : r.graph = graph := by
  have hgraph := Record.map_of_bare (g := Record.graph) (fun _ => rfl) hbare
  rw [hr, Option.map_some] at hgraph
  obtain ⟨r', hr', hsame⟩ := Option.map_eq_some_iff.1 hgraph.symm
  rw [← hsame]
  exact h.graph q r' hr'

/-- What a roster shows depends on the links of the list of all entities, on the bodies and on
the graphs of the records. -/
theorem congr {roster' : Roster slots ι δ} {P' : Population κ δ} (h : Shows f graph roster P)
    (hshape : Pool.SameShape roster.pool roster'.pool)
    (hmap : ∀ p, Chain.linkMap roster'.pool (allIndex slots) p =
      Chain.linkMap roster.pool (allIndex slots) p)
    (hfirst : roster'.first = roster.first) (hcount : roster'.count = roster.count)
    (hnext : roster'.nextUid = roster.nextUid)
    (hmembers : P'.members = P.members) (hnext' : P'.next = P.next)
    (hlimit : P'.limit = P.limit)
    (hgraph : ∀ p, (roster'.pool.get? p).map Record.graph = (roster.pool.get? p).map Record.graph)
    (hbody : ∀ p, (roster'.pool.get? p).map (Record.body f) = P'.body p) :
    Shows f graph roster' P' where
  pool := h.pool.congr hshape
  list := by
    rw [hmembers]
    exact h.list.of_eq_on fun p _ => hmap p
  head := by rw [hfirst, hmembers, h.head]
  count := by rw [hcount, hmembers, h.count]
  live := by rw [hshape.live, hmembers, h.live]
  next := by rw [hnext, hnext', h.next]
  limit := by rw [hlimit, hshape.capacity, h.limit]
  graph p r hr := by
    have hp := hgraph p
    rw [hr, Option.map_some] at hp
    obtain ⟨r', hr', hsame⟩ := Option.map_eq_some_iff.1 hp.symm
    rw [← hsame]
    exact h.graph p r' hr'
  body := hbody

/-- Links of the other slots are not shown. -/
theorem of_relinked {pool' : Pool (Record slots ι δ)} (h : Shows f graph roster P)
    (hrelinked : Chain.Relinked roster.pool pool')
    (hmap : Chain.linkMap pool' (allIndex slots) = Chain.linkMap roster.pool (allIndex slots)) :
    Shows f graph { roster with pool := pool' } P := by
  refine h.congr (Pool.SameShape.of_relinked hrelinked) (fun p => congrFun hmap p) rfl rfl rfl
    rfl rfl rfl (fun p => ?_) fun p => ?_
  · exact Pool.get?_map_of_relinked (fun _ _ => rfl) hrelinked p
  · rw [← h.body p]
    exact Pool.get?_map_of_relinked (fun _ _ => rfl) hrelinked p

/-- Writing a record in place alters its body. -/
theorem setRecord {p : Ptr} {r s : Record slots ι δ} {k : Body κ δ → Body κ δ}
    (h : Shows f graph roster P) (hr : roster.pool.get? p = some r)
    (hlinks : s.links = r.links) (hgraph : s.graph = r.graph)
    (hbody : s.body f = k (r.body f)) :
    Shows f graph (roster.setRecord p s) (P.write p k) := by
  have hget : ∀ {β : Type} (g : Record slots ι δ → β) (q : Ptr), g s = g r →
      ((roster.setRecord p s).pool.get? q).map g = (roster.pool.get? q).map g := by
    intro β g q hg
    by_cases hq : q = p
    · subst hq
      simp [Roster.setRecord, Pool.get?_replace_self hr, hr, hg]
    · simp [Roster.setRecord, Pool.get?_replace_of_ne _ hq]
  refine h.congr (Pool.sameShape_replace _ _ _) (fun q => ?_) rfl rfl rfl rfl rfl rfl
    (fun q => hget _ q hgraph) fun q => ?_
  · exact Pool.linkMap_congr (hget _ q hlinks)
  · rw [Population.body_write, ← h.body q]
    by_cases hq : q = p
    · subst hq
      simp [Roster.setRecord, Pool.get?_replace_self hr, hr, hbody]
    · simp [Roster.setRecord, Pool.get?_replace_of_ne _ hq, hq]

/-- The tags of all records are altered as those of all bodies are. -/
theorem mapAreas (h : Shows f graph roster P) (g : TagArea → TagArea) :
    Shows f graph { roster with pool := roster.pool.map fun r => { r with area := g r.area } }
      (P.alter fun _ b => { b with area := g b.area }) := by
  have hget : ∀ {β : Type} (k : Record slots ι δ → β) (q : Ptr),
      (∀ r, k { r with area := g r.area } = k r) →
      ((roster.pool.map fun r => { r with area := g r.area }).get? q).map k =
        (roster.pool.get? q).map k := by
    intro β k q hk
    rw [Pool.get?_map, Option.map_map]
    congr 1
    funext r
    exact hk r
  refine h.congr (Pool.sameShape_map _ _) (fun q => ?_) rfl rfl rfl rfl rfl rfl
    (fun q => hget _ q fun _ => rfl) fun q => ?_
  · exact Pool.linkMap_congr (hget _ q fun _ => rfl)
  · rw [Population.body_alter, ← h.body q, Pool.get?_map, Option.map_map, Option.map_map]
    rfl

end Shows

/-! ### Creating -/

/-- A roster whose next id is used up shows the population whose next id is. -/
theorem Shows.skip (h : Shows f graph roster P) :
    Shows f graph { roster with nextUid := P.next + 1 } P.skip where
  pool := h.pool
  list := h.list
  head := h.head
  count := h.count
  live := h.live
  next := rfl
  limit := h.limit
  graph := h.graph
  body := h.body

/-- A member was added to a roster. -/
structure Created (f : ι → κ) (graph : GraphId) (roster : Roster slots ι δ)
    (P : Population κ δ) (incidence : ι) (data : δ) (p : Ptr) (roster' : Roster slots ι δ) :
    Prop where
  /-- The roster shows the new member. -/
  shown : Shows f graph roster' (P.add p ⟨P.next, f incidence, .clean, data⟩)
  /-- The slot was free. -/
  fresh : P.body p = none
  /-- Other records are as before. -/
  bare : ∀ q, (roster'.pool.get? q).map Record.bare =
    if q = p then some (.fresh graph P.next incidence data)
    else (roster.pool.get? q).map Record.bare
  /-- The links of the other slots are as before. -/
  other : ∀ j, j ≠ allIndex slots → ∀ q, Chain.linkMap roster'.pool j q =
    if q = p then some (none, none) else Chain.linkMap roster.pool j q

/-- The bodies after a record was added. -/
theorem Shows.body_of_added (h : Shows f graph roster P) {pool : Pool (Record slots ι δ)}
    {p : Ptr} {incidence : ι} {data : δ}
    (hbare : ∀ q, (pool.get? q).map Record.bare =
      if q = p then some (.fresh graph P.next incidence data)
      else (roster.pool.get? q).map Record.bare) (q : Ptr) :
    (pool.get? q).map (Record.body f) =
      (P.add p ⟨P.next, f incidence, .clean, data⟩).body q := by
  have hq := hbare q
  by_cases hqp : q = p
  · subst hqp
    have hfresh : Record.fresh graph P.next incidence data =
        (Record.fresh graph P.next incidence data : Record slots ι δ).bare := rfl
    rw [if_pos rfl, hfresh] at hq
    rw [Population.body_add_self]
    exact Record.map_of_bare (u := some _) (Record.body_bare f) hq
  · rw [if_neg hqp] at hq
    rw [Population.body_add_of_ne _ hqp, ← h.body q]
    exact Record.map_of_bare (Record.body_bare f) hq

/-- Creating adds a member, unless the ids have run out or the pool is full. With a full pool
the id is used up. -/
theorem Shows.create_run (h : Shows f graph roster P) (hP : P.Consistent) (incidence : ι)
    (data : δ) :
    (∃ p roster', create graph incidence data roster = .ok p roster' ∧
      Created f graph roster P incidence data p roster') ∨
    (create graph incidence data roster = .error .overflow roster ∧ uidLimit ≤ P.next + 1) ∨
    (create graph incidence data roster =
        .error .tooManyChunks { roster with nextUid := P.next + 1 } ∧
      P.members.length = P.limit) := by
  by_cases hroom : P.next + 1 < uidLimit
  swap
  · exact .inr (.inl ⟨by simp [create, h.next, hroom], Nat.not_lt.1 hroom⟩)
  rcases h.pool.construct_run fun _ => .fresh graph P.next incidence data with
    ⟨p, pool, hrun, halloc⟩ | ⟨hrun, hfull⟩
  swap
  · exact .inr (.inr ⟨by simp [create, h.next, hroom, onPool, hrun],
      by rw [← h.live, hfull, h.limit]⟩)
  left
  have hnone : P.body p = none := h.get?_eq_none.1 halloc.fresh
  have hp : p ∉ P.members := by simp [hP.mem_iff, hnone]
  -- the record comes without neighbours, and no other record was touched
  have hmap := linkMap_of_allocated halloc rfl
  have hlist : LinkMap.IsList (Chain.linkMap pool (allIndex slots)) P.members := by
    refine h.list.of_eq_on fun q hq => ?_
    rw [hmap, if_neg fun heq : q = p => hp (heq ▸ hq)]
  obtain ⟨head, pool', hpush, hhead, hedit⟩ :=
    Chain.pushFront_run hlist h.head (by rw [hmap, if_pos rfl]) hp
  have hpush' : Chain.pushFront p allSlot roster.first pool = .ok head pool' := hpush
  have hbare : ∀ q, (pool'.get? q).map Record.bare =
      if q = p then some (.fresh graph P.next incidence data)
      else (roster.pool.get? q).map Record.bare := by
    intro q
    rw [Pool.get?_map_of_relinked (fun _ _ => rfl) hedit.relinked, halloc.get?]
    split <;> rfl
  have hshape := Pool.SameShape.of_relinked hedit.relinked
  refine ⟨p, { pool := pool', first := head, count := roster.count + 1, nextUid := P.next + 1 },
    by simp [create, h.next, hroom, onPool, hrun, hpush'], ?_, hnone, hbare, fun j hj q => by
      rw [hedit.other j hj, hmap]⟩
  refine ⟨halloc.sound.congr hshape, hedit.list, hhead, ?_, ?_, rfl, ?_, fun q r hr => ?_,
    h.body_of_added hbare⟩
  · simp [Population.add, h.count]
  · simp [Population.add, hshape.live, halloc.live, h.live]
  · simp [Population.add, hshape.capacity, halloc.capacity, h.limit]
  · have hq := hbare q
    by_cases hqp : q = p
    · rw [if_pos hqp, hr, Option.map_some, Option.some.injEq] at hq
      exact congrArg Record.graph hq
    · rw [if_neg hqp] at hq
      exact h.graph_of_bare hq hr

/-! ### Removing -/

/-- A member was taken out of a roster. -/
structure Removed (f : ι → κ) (graph : GraphId) (roster : Roster slots ι δ)
    (P : Population κ δ) (p : Ptr) (roster' : Roster slots ι δ) : Prop where
  /-- The roster shows the other members. -/
  shown : Shows f graph roster' (P.keep (· != p))
  /-- Other records are as before. -/
  bare : ∀ q, (roster'.pool.get? q).map Record.bare =
    if q = p then none else (roster.pool.get? q).map Record.bare
  /-- The links of the other slots are as before. -/
  other : ∀ j, j ≠ allIndex slots → ∀ q, Chain.linkMap roster'.pool j q =
    if q = p then none else Chain.linkMap roster.pool j q

/-- The bodies after a record was taken out. -/
theorem Shows.body_of_kept (h : Shows f graph roster P) {pool : Pool (Record slots ι δ)} {p : Ptr}
    (hbare : ∀ q, (pool.get? q).map Record.bare =
      if q = p then none else (roster.pool.get? q).map Record.bare) (q : Ptr) :
    (pool.get? q).map (Record.body f) = (P.keep (· != p)).body q := by
  have hq := hbare q
  rw [Population.body_keep]
  by_cases hqp : q = p
  · rw [if_pos hqp, Option.map_eq_none_iff] at hq
    simp [hqp ▸ hq, hqp]
  · rw [if_neg hqp] at hq
    rw [if_pos (by simpa using hqp), ← h.body q]
    exact Record.map_of_bare (Record.body_bare f) hq

/-- Removing takes a member out. Answers its record. -/
theorem Shows.remove_run (h : Shows f graph roster P) (hP : P.Consistent) {p : Ptr}
    {b : Body κ δ} (hb : P.body p = some b) :
    ∃ r roster', remove p roster = .ok r roster' ∧ r.body f = b ∧
      Removed f graph roster P p roster' := by
  have hp : p ∈ P.members := hP.mem_of_body hb
  obtain ⟨head, pool, hunlink, hhead, hself, hedit⟩ := Chain.unlink_run h.list h.head hp
  have hunlink' : Chain.unlink p allSlot roster.first roster.pool = .ok head pool := hunlink
  have hshape := Pool.SameShape.of_relinked hedit.relinked
  have hold : ∀ q, (pool.get? q).map Record.bare = (roster.pool.get? q).map Record.bare :=
    Pool.get?_map_of_relinked (fun _ _ => rfl) hedit.relinked
  obtain ⟨r₀, hr₀, hbody⟩ := h.exists_record hb
  obtain ⟨r, hr, hrbare⟩ : ∃ r, pool.get? p = some r ∧ r.bare = r₀.bare := by
    have hp' := hold p
    rw [hr₀, Option.map_some] at hp'
    exact Option.map_eq_some_iff.1 hp'
  obtain ⟨pool', hdealloc, hfree⟩ := (h.pool.congr hshape).dealloc_run hr
  -- no member stands twice on the list, so taking it off is a filter
  have herase : P.members.erase p = P.members.filter (· != p) := hP.erase_eq_filter p
  have hlen : (P.members.filter (· != p)).length + 1 = P.members.length := by
    have hpos := List.length_pos_of_mem hp
    rw [← herase, List.length_erase_of_mem hp]
    omega
  rw [herase] at hhead hedit
  have hcount := h.count
  have hlive : pool'.live + 1 = P.members.length := by rw [hfree.live, hshape.live, h.live]
  have hbare : ∀ q, (pool'.get? q).map Record.bare =
      if q = p then none else (roster.pool.get? q).map Record.bare := by
    intro q
    rw [hfree.get?, ← hold]
    split <;> rfl
  have hmap := linkMap_of_deallocated hfree
  refine ⟨r, { roster with pool := pool', first := head, count := roster.count - 1 }, ?_, ?_, ?_,
    hbare, fun j hj q => by rw [hmap, hedit.other j hj]⟩
  · have hne : roster.count ≠ 0 := by omega
    simp [remove, onPool, hunlink', hne, hdealloc]
  · rw [← hbody, ← Record.body_bare, hrbare, Record.body_bare]
  refine ⟨hfree.sound, ?_, hhead, ?_, ?_, h.next, ?_, fun q s hs => ?_, h.body_of_kept hbare⟩
  · refine hedit.list.of_eq_on fun q hq => ?_
    rw [hmap, if_neg (by simpa using (List.mem_filter.1 hq).2)]
  · change roster.count - 1 = (P.members.filter (· != p)).length
    omega
  · change pool'.live = (P.members.filter (· != p)).length
    omega
  · simp [Population.keep, hfree.capacity, hshape.capacity, h.limit]
  · have hq := hbare q
    by_cases hqp : q = p
    · simp [hqp, hfree.get?] at hs
    · rw [if_neg hqp] at hq
      exact h.graph_of_bare hq hs

/-- Clearing takes all members out. -/
theorem Shows.clear_run (h : Shows f graph roster P) :
    ∃ roster', clear roster = .ok () roster' ∧
      Shows f graph roster' (P.keep fun _ => false) ∧ ∀ p, roster'.pool.get? p = none := by
  obtain ⟨pool', hrun, hsound, hlive, hcap, hget⟩ := Pool.clear_run roster.pool
  refine ⟨{ roster with pool := pool', first := .empty, count := 0 },
    by simp [clear, onPool, hrun], ?_, hget⟩
  refine ⟨hsound, ?_, ?_, ?_, ?_, h.next, ?_, fun p r hr => ?_, fun p => ?_⟩
  · simp [Population.keep, LinkMap.isList_nil]
  · simp [Population.keep]
  · simp [Population.keep]
  · simp [Population.keep, hlive]
  · simp [Population.keep, hcap, h.limit]
  · simp [hget] at hr
  · simp [hget, Population.body_keep]

/-! ### Handles -/

namespace Shows

/-- A handle finds the record in its slot exactly if it finds the body. -/
theorem find?_map {kind : EntityKind} (h : Shows f graph roster P) (handle : Handle kind) :
    (roster.find? graph handle).map (Record.body f) = P.find? graph handle := by
  unfold find? Population.find?
  by_cases howner : handle.graph = graph
  · rw [if_pos howner, if_pos howner, ← h.body]
    cases roster.pool.get? handle.slot with
    | none => rfl
    | some r =>
        by_cases huid : r.uid = handle.uid <;> simp [Option.filter, Record.body, huid]
  · rw [if_neg howner, if_neg howner]
    rfl

/-- A handle finds a record exactly if it finds something in the population. -/
theorem isSome_find? {kind : EntityKind} (h : Shows f graph roster P) (handle : Handle kind) :
    (roster.find? graph handle).isSome = (P.find? graph handle).isSome := by
  rw [← h.find?_map, Option.isSome_map]

/-- A handle that finds something leads to its slot. -/
theorem resolve_run {kind : EntityKind} (h : Shows f graph roster P) {handle : Handle kind}
    {b : Body κ δ} (hb : P.find? graph handle = some b) :
    roster.resolve graph handle = .ok handle.slot := by
  have howner : handle.graph = graph := by rw [(Population.find?_eq_some_iff.1 hb).2]
  have hsome := h.isSome_find? handle
  rw [hb, Option.isSome_some] at hsome
  have hnone : (roster.find? graph handle).isNone = false := by
    rw [← Option.not_isSome, hsome]
    rfl
  simp [resolve, howner, hnone]

/-- A handle that finds nothing leads to no slot, and the fault says why. -/
theorem resolve_refused {kind : EntityKind} (h : Shows f graph roster P) {handle : Handle kind}
    (hb : P.find? graph handle = none) :
    roster.resolve graph handle = .error (handle.refusal graph) := by
  have hnone : (roster.find? graph handle).isSome = false := by rw [h.isSome_find?, hb]; rfl
  by_cases howner : handle.graph = graph
  · simp [resolve, Handle.refusal, howner, Option.isSome_eq_false_iff.1 hnone]
  · simp [resolve, Handle.refusal, howner]

/-- A handle that finds something leads to a record that says the same. -/
theorem lookup_run {kind : EntityKind} (h : Shows f graph roster P) {handle : Handle kind}
    {b : Body κ δ} (hb : P.find? graph handle = some b) :
    ∃ r, roster.lookup graph handle = .ok r ∧ roster.pool.get? handle.slot = some r ∧
      r.body f = b := by
  obtain ⟨r, hr, hbody⟩ := h.exists_record (Population.find?_eq_some_iff.1 hb).1
  exact ⟨r, by simp [lookup, h.resolve_run hb, record, Pool.read_of_get? hr], hr, hbody⟩

/-- A handle that finds nothing leads to no record, and the fault says why. -/
theorem lookup_refused {kind : EntityKind} (h : Shows f graph roster P) {handle : Handle kind}
    (hb : P.find? graph handle = none) :
    roster.lookup graph handle = .error (handle.refusal graph) := by
  simp [lookup, h.resolve_refused hb]

/-- The handle that is built for a slot has the id of what stands there. -/
theorem handle_run (kind : EntityKind) (h : Shows f graph roster P) {p : Ptr} {b : Body κ δ}
    (hb : P.body p = some b) : roster.handle kind graph p = .ok ⟨graph, b.uid, p⟩ := by
  obtain ⟨r, hr, rfl⟩ := h.exists_record hb
  simp [handle, record, Pool.read_of_get? hr, Record.body, pure, Except.pure]

end Shows

end Roster

end SlabGraph
