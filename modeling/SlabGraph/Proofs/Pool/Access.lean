import SlabGraph.Pool.Contents
import SlabGraph.Proofs.Chain.Storage

/-!
# Access to a Pool

What a pool holds is read off by `Pool.get?`. This module says how the writes that keep
every entry in its place change it, and that arrays of linked records and pools of linked
records are lawful chain storages.

Such writes leave the *shape* of a pool alone: which entries are free, the free chains, the
list of chunks with space and all counts. `Pool.SameShape` compares two pools in this
respect, and the invariant of a pool will depend on nothing else.

## Main results

* `Pool.get?_replace_self`, `Pool.get?_replace_of_ne`, `Pool.get?_map`;
* `Pool.sameShape_replace`, `Pool.sameShape_mapAccum`, `Pool.SameShape.of_relinked`;
* the `LawfulChainStorage` instances.
-/

namespace SlabGraph

/-! ### Records that embed links -/

/-- The laws of records that embed links. -/
class LawfulLinked (R P : Type) (slots : Nat) [Linked R P slots] : Prop where
  /-- Links read back as they were written. -/
  links_withLinks (r : R) (l : Links P slots) : Linked.links (Linked.withLinks r l) = l

instance {P : Type} {slots : Nat} : LawfulLinked (Links P slots) P slots := ⟨fun _ _ => rfl⟩

instance {α : Type} : LawfulLinked (Chunk α) ChunkIndex 1 := ⟨fun _ _ => rfl⟩

section

variable {R : Type} {top slots : Nat} [Linked R (Index top) slots]

/-- The links of a member of an array are those of the record at its index, unless that is the
reserved one. -/
theorem links_array_eq_ok_iff {s : Array R} {i : Index top} {l : Links (Index top) slots} :
    ChainStorage.links s i = .ok l ↔
      i.val ≠ top ∧ ∃ r, s[i.val]? = some r ∧ Linked.links r = l := by
  simp only [ChainStorage.links]
  by_cases htop : i.val = top
  · simp [htop]
  · cases h : s[i.val]? with
    | none => simp [htop]
    | some r => simp [htop]

/-- The items of an array are a lawful storage. -/
instance [LawfulLinked R (Index top) slots] : LawfulChainStorage (Array R) (Index top) slots where
  ne_reserved h := by
    intro heq
    exact (links_array_eq_ok_iff.1 h).1 (congrArg Index.val heq)
  links_setLinks_self {s i l l'} h := by
    obtain ⟨htop, r, hr, -⟩ := links_array_eq_ok_iff.1 h
    refine links_array_eq_ok_iff.2 ⟨htop, Linked.withLinks r l', ?_, ?_⟩
    · simp [ChainStorage.setLinks, Array.getElem?_modify, hr]
    · exact LawfulLinked.links_withLinks r l'
  links_setLinks_of_ne {s i j l l'} _ hne := by
    have hval : i.val ≠ j.val := fun h => hne (by cases i; cases j; simp_all)
    simp [ChainStorage.links, ChainStorage.setLinks, Array.getElem?_modify, hval]

end

/-! ### Chunks -/

/-- The position after a free entry on the free chain. -/
def Entry.next? {α : Type} : Entry α → Option Nat
  | free next => some next
  | busy _ => none

/-- An entry is the place it has on the free chain, or the value it holds. -/
theorem Entry.eq_of_parts {α : Type} {e e' : Entry α} (hnext : e'.next? = e.next?)
    (hvalue : e'.value? = e.value?) : e' = e := by
  cases e with
  | free next => cases e' with
    | free next' => exact congrArg Entry.free (Option.some.inj hnext)
    | busy v' => cases hnext
  | busy v => cases e' with
    | free next' => cases hnext
    | busy v' => exact congrArg Entry.busy (Option.some.inj hvalue)

namespace Chunk

variable {α : Type}

/-- The position after a free position on the free chain. -/
def next? (c : Chunk α) (pos : Nat) : Option Nat := c.entries[pos]?.bind Entry.next?

/-- A chunk holds a value at the positions of its busy entries. -/
theorem get?_eq_some_iff {c : Chunk α} {pos : Nat} {v : α} :
    c.get? pos = some v ↔ c.entries[pos]? = some (.busy v) := by
  unfold get?
  cases h : c.entries[pos]? with
  | none => simp
  | some e => cases e <;> simp [Entry.value?]

/-- A chunk has a next free position at the positions of its free entries. -/
theorem next?_eq_some_iff {c : Chunk α} {pos next : Nat} :
    c.next? pos = some next ↔ c.entries[pos]? = some (.free next) := by
  unfold next?
  cases h : c.entries[pos]? with
  | none => simp
  | some e => cases e <;> simp [Entry.next?]

/-- Two chunks agree in all but the values they hold. -/
structure SameShape (c d : Chunk α) : Prop where
  size : d.entries.size = c.entries.size
  next? : ∀ pos, d.next? pos = c.next? pos
  freeEntry : d.freeEntry = c.freeEntry
  busy : d.busy = c.busy
  links : d.links = c.links

/-- A chunk has its own shape. -/
theorem SameShape.refl (c : Chunk α) : SameShape c c := ⟨rfl, fun _ => rfl, rfl, rfl, rfl⟩

/-- Having the same shape is transitive. -/
theorem SameShape.trans {c d e : Chunk α} (h : SameShape c d) (h' : SameShape d e) :
    SameShape c e where
  size := h'.size.trans h.size
  next? pos := (h'.next? pos).trans (h.next? pos)
  freeEntry := h'.freeEntry.trans h.freeEntry
  busy := h'.busy.trans h.busy
  links := h'.links.trans h.links

/-- Having the same shape is symmetric. -/
theorem SameShape.symm {c d : Chunk α} (h : SameShape c d) : SameShape d c :=
  ⟨h.size.symm, fun pos => (h.next? pos).symm, h.freeEntry.symm, h.busy.symm, h.links.symm⟩

/-- A chunk is its shape and its values. -/
theorem SameShape.eq_of_get? {c d : Chunk α} (h : SameShape c d)
    (hget : ∀ pos, d.get? pos = c.get? pos) : d = c := by
  have hentries : d.entries = c.entries := by
    refine Array.ext h.size fun pos hd hc => ?_
    have hnext := h.next? pos
    have hvalue := hget pos
    simp only [Chunk.next?, Chunk.get?, Array.getElem?_eq_getElem hd, Array.getElem?_eq_getElem hc,
      Option.bind_some] at hnext hvalue
    exact Entry.eq_of_parts hnext hvalue
  obtain ⟨entries, freeEntry, busy, links⟩ := c
  obtain ⟨entries', freeEntry', busy', links'⟩ := d
  obtain rfl := hentries
  obtain rfl := h.freeEntry
  obtain rfl := h.busy
  obtain rfl := h.links
  rfl

/-- Replacing a value keeps the shape. -/
theorem sameShape_replace (c : Chunk α) (pos : Nat) (v : α) : SameShape c (c.replace pos v) := by
  refine ⟨by simp [replace], fun q => ?_, rfl, rfl, rfl⟩
  unfold Chunk.next? replace
  rw [Array.getElem?_modify]
  by_cases hq : pos = q
  · cases h : c.entries[q]? with
    | none => simp
    | some e => cases e <;> simp [hq, Entry.next?]
  · simp [hq]

/-- The value of a live entry after it was replaced. -/
theorem get?_replace_self {c : Chunk α} {pos : Nat} {v w : α} (h : c.get? pos = some v) :
    (c.replace pos w).get? pos = some w := by
  rw [get?_eq_some_iff] at h ⊢
  simp [replace, Array.getElem?_modify, h]

/-- Replacing a value leaves all other entries alone. -/
theorem get?_replace_of_ne (c : Chunk α) {pos q : Nat} (w : α) (h : q ≠ pos) :
    (c.replace pos w).get? q = c.get? q := by
  simp [get?, replace, Array.getElem?_modify, h.symm]

end Chunk

/-! ### Pools -/

namespace Pool

variable {α σ : Type}

/-- A pool holds a value at each pointer, apart from the reserved one, at whose position its chunk
holds that value. -/
theorem get?_eq_some_iff {pool : Pool α} {ptr : Ptr} {v : α} :
    pool.get? ptr = some v ↔
      ptr ≠ .reserved ∧ ∃ c, pool.chunks[ptr.chunk]? = some c ∧ c.get? ptr.pos = some v := by
  unfold get?
  by_cases h : ptr = .reserved
  · simp [h]
  · simp [h, Option.bind_eq_some_iff]

/-- The reserved pointer addresses nothing. -/
theorem get?_reserved (pool : Pool α) : pool.get? .reserved = none := by simp [get?]

/-- A live entry can be read. -/
theorem read_of_get? {pool : Pool α} {ptr : Ptr} {v : α} (h : pool.get? ptr = some v) :
    pool.read ptr = .ok v := by
  simp [read, h]

/-- The value at a live pointer after it was replaced. -/
theorem get?_replace_self {pool : Pool α} {ptr : Ptr} {v w : α} (h : pool.get? ptr = some v) :
    (pool.replace ptr w).get? ptr = some w := by
  obtain ⟨hres, c, hc, hv⟩ := get?_eq_some_iff.1 h
  refine get?_eq_some_iff.2 ⟨hres, c.replace ptr.pos w, ?_, Chunk.get?_replace_self hv⟩
  simp [replace, hres, Array.getElem?_modify, hc]

/-- Replacing a value leaves the values at all other pointers alone. -/
theorem get?_replace_of_ne {pool : Pool α} {p q : Ptr} (w : α) (h : q ≠ p) :
    (pool.replace p w).get? q = pool.get? q := by
  unfold get? replace
  by_cases hq : q = .reserved
  · simp [hq]
  by_cases hp : p = .reserved
  · simp [hp]
  simp only [hp, hq, if_false, Array.getElem?_modify]
  by_cases hchunk : p.chunk = q.chunk
  · have hpos : q.pos ≠ p.pos := fun heq => h (by cases p; cases q; simp_all)
    cases hc : pool.chunks[q.chunk]? with
    | none => simp
    | some c => simp [hchunk, Chunk.get?_replace_of_ne c w hpos]
  · simp [hchunk]

/-- Two pools agree in all but the values they hold. -/
structure SameShape (pool pool' : Pool α) : Prop where
  capacity : pool'.capacity = pool.capacity
  freeChunk : pool'.freeChunk = pool.freeChunk
  live : pool'.live = pool.live
  size : pool'.chunks.size = pool.chunks.size
  chunk : ∀ (i : Nat) (c : Chunk α), pool.chunks[i]? = some c →
    ∃ d : Chunk α, pool'.chunks[i]? = some d ∧ c.SameShape d

/-- A pool has its own shape. -/
theorem SameShape.refl (pool : Pool α) : SameShape pool pool :=
  ⟨rfl, rfl, rfl, rfl, fun _ c hc => ⟨c, hc, .refl c⟩⟩

/-- Having the same shape is transitive. -/
theorem SameShape.trans {p q r : Pool α} (h : SameShape p q) (h' : SameShape q r) :
    SameShape p r where
  capacity := h'.capacity.trans h.capacity
  freeChunk := h'.freeChunk.trans h.freeChunk
  live := h'.live.trans h.live
  size := h'.size.trans h.size
  chunk i c hc := by
    obtain ⟨d, hd, hcd⟩ := h.chunk i c hc
    obtain ⟨e, he, hde⟩ := h'.chunk i d hd
    exact ⟨e, he, hcd.trans hde⟩

/-- Each chunk of the second pool has a counterpart of the same shape in the first one. -/
theorem SameShape.exists_chunk {pool pool' : Pool α} (h : SameShape pool pool') {i : Nat}
    {d : Chunk α} (hd : pool'.chunks[i]? = some d) :
    ∃ c, pool.chunks[i]? = some c ∧ c.SameShape d := by
  have hi : i < pool.chunks.size := h.size ▸ (Array.getElem?_eq_some_iff.1 hd).1
  obtain ⟨d', hd', hcd⟩ := h.chunk i pool.chunks[i] (Array.getElem?_eq_getElem hi)
  obtain rfl : d = d' := Option.some.inj (hd.symm.trans hd')
  exact ⟨_, Array.getElem?_eq_getElem hi, hcd⟩

/-- Having the same shape is symmetric. -/
theorem SameShape.symm {pool pool' : Pool α} (h : SameShape pool pool') :
    SameShape pool' pool where
  capacity := h.capacity.symm
  freeChunk := h.freeChunk.symm
  live := h.live.symm
  size := h.size.symm
  chunk i d hd := by
    obtain ⟨c, hc, hcd⟩ := h.exists_chunk hd
    exact ⟨c, hc, hcd.symm⟩

/-- Replacing a value keeps the shape of a pool. -/
theorem sameShape_replace (pool : Pool α) (ptr : Ptr) (v : α) :
    SameShape pool (pool.replace ptr v) := by
  unfold replace
  by_cases hres : ptr = .reserved
  · rw [if_pos hres]
    exact .refl pool
  · rw [if_neg hres]
    refine ⟨rfl, rfl, rfl, by simp, fun i c hc => ?_⟩
    by_cases hi : ptr.chunk = i
    · exact ⟨c.replace ptr.pos v, by simp [Array.getElem?_modify, hi, hc],
        c.sameShape_replace ptr.pos v⟩
    · exact ⟨c, by simp [Array.getElem?_modify, hi, hc], .refl c⟩

/-! ### Changing all values -/

/-- Changes the value of an entry. -/
def mapEntry (f : α → α) : Entry α → Entry α
  | .free next => .free next
  | .busy v => .busy (f v)

/-- Changing values without a state is a map over the entries. -/
theorem mapAccumEntries_unit (f : α → α) (es : List (Entry α)) :
    mapAccumEntries (fun (_ : Unit) v => ((), f v)) () es = ((), es.map (mapEntry f)) := by
  induction es with
  | nil => rfl
  | cons e es ih => cases e <;> simp [mapAccumEntries, ih, mapEntry]

/-- Changes the values of a chunk. -/
def mapChunk (f : α → α) (c : Chunk α) : Chunk α :=
  { c with entries := c.entries.map (mapEntry f) }

/-- Changing values without a state is a map over the chunks. -/
theorem mapAccumChunks_unit (f : α → α) (cs : List (Chunk α)) :
    mapAccumChunks (fun (_ : Unit) v => ((), f v)) () cs = ((), cs.map (mapChunk f)) := by
  induction cs with
  | nil => rfl
  | cons c cs ih =>
      have hentries : (c.entries.toList.map (mapEntry f)).toArray = c.entries.map (mapEntry f) := by
        simp [← Array.toList_map]
      simp [mapAccumChunks, mapAccumEntries_unit, ih, mapChunk, hentries]

/-- A pool after its live values were changed, chunk by chunk. -/
theorem map_eq (f : α → α) (pool : Pool α) :
    pool.map f = { pool with chunks := pool.chunks.map (mapChunk f) } := by
  have hchunks : (pool.chunks.toList.map (mapChunk f)).toArray = pool.chunks.map (mapChunk f) := by
    simp [← Array.toList_map]
  simp only [map, mapAccum, mapAccumChunks_unit, hchunks]

/-- What a changed chunk holds is what the chunk held, changed. -/
theorem get?_mapChunk (f : α → α) (c : Chunk α) (pos : Nat) :
    (mapChunk f c).get? pos = (c.get? pos).map f := by
  simp only [Chunk.get?, mapChunk, Array.getElem?_map]
  cases c.entries[pos]? with
  | none => rfl
  | some e => cases e <;> rfl

/-- What a changed pool holds is what the pool held, changed. -/
theorem get?_map (f : α → α) (pool : Pool α) (ptr : Ptr) :
    (pool.map f).get? ptr = (pool.get? ptr).map f := by
  rw [map_eq]
  unfold get?
  by_cases hres : ptr = .reserved
  · simp [hres]
  · cases hc : pool.chunks[ptr.chunk]? with
    | none => simp [hres, hc]
    | some c => simp [hres, hc, get?_mapChunk]

/-- Changing values leaves the free entries and their chain alone. -/
theorem map_next?_mapAccumEntries (f : σ → α → σ × α) (s : σ) (es : List (Entry α)) :
    (mapAccumEntries f s es).2.map Entry.next? = es.map Entry.next? := by
  induction es generalizing s with
  | nil => rfl
  | cons e es ih =>
      cases e with
      | free next => simp only [mapAccumEntries, List.map_cons, ih]
      | busy v => simp only [mapAccumEntries, List.map_cons, ih, Entry.next?]

/-- Changing values keeps the number of chunks. -/
theorem length_mapAccumChunks (f : σ → α → σ × α) (s : σ) (cs : List (Chunk α)) :
    (mapAccumChunks f s cs).2.length = cs.length := by
  induction cs generalizing s with
  | nil => rfl
  | cons c cs ih => simp only [mapAccumChunks, List.length_cons, ih]

/-- Changing values keeps the shape of a chunk. -/
theorem sameShape_mapAccumEntries (f : σ → α → σ × α) (s : σ) (c : Chunk α) :
    c.SameShape { c with entries := (mapAccumEntries f s c.entries.toList).2.toArray } := by
  have hnext := map_next?_mapAccumEntries f s c.entries.toList
  refine ⟨?_, fun pos => ?_, rfl, rfl, rfl⟩
  · simpa using congrArg List.length hnext
  · have hpos := congrArg (fun l => l[pos]?.bind id) hnext
    simpa [Chunk.next?, Option.bind_map] using hpos

/-- Each chunk has a counterpart of the same shape after the values were changed. -/
theorem mapAccumChunks_getElem? (f : σ → α → σ × α) (s : σ) {cs : List (Chunk α)} {i : Nat}
    {c : Chunk α} (hc : cs[i]? = some c) :
    ∃ d, (mapAccumChunks f s cs).2[i]? = some d ∧ c.SameShape d := by
  induction cs generalizing s i with
  | nil => cases hc
  | cons e es ih =>
      cases i with
      | zero =>
          obtain rfl := Option.some.inj hc
          exact ⟨_, rfl, sameShape_mapAccumEntries f s e⟩
      | succ i => exact ih _ hc

/-- A visit leaves the shape of a pool alone. -/
theorem sameShape_mapAccum (f : σ → α → σ × α) (s : σ) (pool : Pool α) :
    SameShape pool (pool.mapAccum f s).2 := by
  refine ⟨rfl, rfl, rfl, length_mapAccumChunks f s pool.chunks.toList, fun i c hc => ?_⟩
  have hget : pool.chunks.toList[i]? = some c := by rwa [Array.getElem?_toList]
  obtain ⟨d, hd, hshape⟩ := mapAccumChunks_getElem? f s hget
  exact ⟨d, by simpa [mapAccum] using hd, hshape⟩

/-- Changing values keeps the shape of a pool. -/
theorem sameShape_map (f : α → α) (pool : Pool α) : SameShape pool (pool.map f) :=
  sameShape_mapAccum _ _ pool

/-! ### Pools of linked records -/

section

variable {R : Type} {slots : Nat} [Linked R Ptr slots]

/-- The links of an entry are those of the record that is live there. -/
theorem links_eq_ok_iff {pool : Pool R} {p : Ptr} {l : Links Ptr slots} :
    ChainStorage.links pool p = .ok l ↔ ∃ r, pool.get? p = some r ∧ Linked.links r = l := by
  simp only [ChainStorage.links, Functor.map, Except.map, read]
  cases pool.get? p <;> simp

/-- Replacing the links of a live entry replaces its record by one with these links. -/
theorem setLinks_eq {pool : Pool R} {p : Ptr} {r : R} (h : pool.get? p = some r)
    (l : Links Ptr slots) :
    ChainStorage.setLinks pool p l = pool.replace p (Linked.withLinks r l) := by
  simp [ChainStorage.setLinks, h]

/-- The links of a live entry. -/
theorem linkMap_eq_some_of_get? {pool : Pool R} {p : Ptr} {r : R} (h : pool.get? p = some r)
    (slot : Fin slots) :
    Chain.linkMap pool slot p = some ((Linked.links r : Links Ptr slots).pair slot) :=
  Chain.linkMap_of_links (links_eq_ok_iff.2 ⟨r, h, rfl⟩)

/-- The links of an item of a pool are those of its record. -/
theorem prev_eq {pool : Pool R} {p : Ptr} {r : R} (h : pool.get? p = some r) (slot : Nat) :
    Chain.prev pool p slot = (Linked.links r : Links Ptr slots).prevAt slot := by
  simp [Chain.prev, ChainStorage.links, read_of_get? h, Functor.map, Except.map]

/-- The next member after a live entry is read off its record. -/
theorem next_eq {pool : Pool R} {p : Ptr} {r : R} (h : pool.get? p = some r) (slot : Nat) :
    Chain.next pool p slot = (Linked.links r : Links Ptr slots).nextAt slot := by
  simp [Chain.next, ChainStorage.links, read_of_get? h, Functor.map, Except.map]

/-- The entries with links are the live ones. -/
theorem isSome_linkMap (pool : Pool R) (slot : Fin slots) (p : Ptr) :
    (Chain.linkMap pool slot p).isSome = (pool.get? p).isSome := by
  cases h : pool.get? p with
  | some r => simp [linkMap_eq_some_of_get? h]
  | none => simp [Chain.linkMap, ChainStorage.links, read, h, Functor.map, Except.map]

/-- The link maps of a pool depend only on the links of its records. -/
theorem linkMap_congr {pool pool' : Pool R} {slot : Fin slots} {p : Ptr}
    (h : (pool'.get? p).map (Linked.links : R → Links Ptr slots) =
      (pool.get? p).map Linked.links) :
    Chain.linkMap pool' slot p = Chain.linkMap pool slot p := by
  cases hr : pool.get? p with
  | none =>
      have hnone : pool'.get? p = none := by simpa [hr] using h
      rw [← Option.not_isSome_iff_eq_none, ← isSome_linkMap pool slot,
        Option.not_isSome_iff_eq_none] at hr
      rw [← Option.not_isSome_iff_eq_none, ← isSome_linkMap pool' slot,
        Option.not_isSome_iff_eq_none] at hnone
      rw [hr, hnone]
  | some r =>
      rw [hr, Option.map_some, Option.map_eq_some_iff] at h
      obtain ⟨r', hr', hlinks⟩ := h
      rw [linkMap_eq_some_of_get? hr, linkMap_eq_some_of_get? hr', hlinks]

variable [LawfulLinked R Ptr slots]

/-- The records of a pool are a lawful storage. -/
instance : LawfulChainStorage (Pool R) Ptr slots where
  ne_reserved {pool p l} h := by
    obtain ⟨r, hr, -⟩ := links_eq_ok_iff.1 h
    exact (get?_eq_some_iff.1 hr).1
  links_setLinks_self {pool p l l'} h := by
    obtain ⟨r, hr, -⟩ := links_eq_ok_iff.1 h
    rw [setLinks_eq hr]
    exact links_eq_ok_iff.2 ⟨_, get?_replace_self hr, LawfulLinked.links_withLinks r l'⟩
  links_setLinks_of_ne {pool p q l l'} h hne := by
    obtain ⟨r, hr, -⟩ := links_eq_ok_iff.1 h
    rw [setLinks_eq hr]
    simp only [ChainStorage.links, read, get?_replace_of_ne _ hne]

omit [LawfulLinked R Ptr slots] in
/-- Changing links keeps the shape of a pool. -/
theorem SameShape.of_relinked {pool pool' : Pool R} (h : Chain.Relinked pool pool') :
    SameShape pool pool' := by
  induction h with
  | refl => exact .refl pool
  | step l' _ hl ih =>
      obtain ⟨r, hr, -⟩ := links_eq_ok_iff.1 hl
      rw [setLinks_eq hr]
      exact ih.trans (sameShape_replace _ _ _)

omit [LawfulLinked R Ptr slots] in
/-- What does not depend on links is as before. -/
theorem get?_map_of_relinked {β : Type} {f : R → β}
    (hf : ∀ r (l : Links Ptr slots), f (Linked.withLinks r l) = f r) {pool pool' : Pool R}
    (h : Chain.Relinked pool pool') (p : Ptr) : (pool'.get? p).map f = (pool.get? p).map f := by
  induction h with
  | refl => rfl
  | @step t q l l' _ hl ih =>
      obtain ⟨r, hr, -⟩ := links_eq_ok_iff.1 hl
      rw [setLinks_eq hr, ← ih]
      by_cases hpq : p = q
      · subst hpq
        simp [get?_replace_self hr, hr, hf]
      · rw [get?_replace_of_ne _ hpq]

end

end Pool

end SlabGraph
