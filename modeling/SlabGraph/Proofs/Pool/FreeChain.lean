import Mathlib.Data.List.Perm.Subperm
import SlabGraph.Proofs.Pool.Access

/-!
# The Free Chain of a Chunk

`Chunk.Sound capacity c free` says that the free chain of a chunk is the list `free`: it
begins at `Chunk.freeEntry`, follows the positions stored in the free entries, ends with
`noPos`, meets no position twice and leaves no free entry out. The count of busy entries is
then what is left of the capacity.

The chain is a stack. Filling an entry takes its first position away, and emptying an entry
puts that position in front. In particular the guards of the two operations never fail.

## Main results

* `Chunk.sound_empty`;
* `Chunk.Sound.take_run`: filling the first free entry;
* `Chunk.Sound.release_run`: emptying an entry;
* `Chunk.Sound.hasSpace_iff`, `Chunk.Sound.busy_eq_capacity`;
* `Chunk.Sound.sameShape`: chunks with one free chain differ in their values only.
-/

namespace SlabGraph

namespace Chunk

variable {α : Type}

/-- The free chain from a position on. -/
def FreeChain (c : Chunk α) : Nat → List Nat → Prop
  | start, [] => start = noPos
  | start, pos :: rest => start = pos ∧ ∃ next, c.next? pos = some next ∧ FreeChain c next rest

/-- The free chain of a chunk is `free`, and the counts of the chunk are right. -/
structure Sound (capacity : Nat) (c : Chunk α) (free : List Nat) : Prop where
  /-- The number of entries. -/
  size : c.entries.size = capacity
  /-- The positions of a chunk are below `noPos`. -/
  le_max : capacity ≤ maxChunkEntries
  /-- The free chain. -/
  chain : c.FreeChain c.freeEntry free
  /-- The free chain meets no position twice. -/
  nodup : free.Nodup
  /-- The free chain leaves no free entry out. -/
  complete : ∀ pos next, c.next? pos = some next → pos ∈ free
  /-- The number of busy entries. -/
  busy : c.busy + free.length = capacity

/-- The positions on the free chain have free entries. -/
theorem FreeChain.mem_isSome {c : Chunk α} {start pos : Nat} {free : List Nat}
    (h : c.FreeChain start free) (hpos : pos ∈ free) : (c.next? pos).isSome = true := by
  induction free generalizing start with
  | nil => simp at hpos
  | cons q rest ih =>
      obtain ⟨-, next, hnext, hrest⟩ := h
      rcases List.mem_cons.1 hpos with rfl | hmem
      · simp [hnext]
      · exact ih hrest hmem

/-- A free chain depends only on the entries it meets. -/
theorem FreeChain.of_eq_on {c d : Chunk α} {start : Nat} {free : List Nat}
    (h : c.FreeChain start free) (heq : ∀ pos ∈ free, d.next? pos = c.next? pos) :
    d.FreeChain start free := by
  induction free generalizing start with
  | nil => exact h
  | cons q rest ih =>
      obtain ⟨hq, next, hnext, hrest⟩ := h
      refine ⟨hq, next, ?_, ih hrest fun pos hpos => heq pos (List.mem_cons_of_mem q hpos)⟩
      rw [heq q List.mem_cons_self, hnext]

/-- A free entry is within the chunk. -/
theorem lt_of_next? {c : Chunk α} {pos next : Nat} (h : c.next? pos = some next) :
    pos < c.entries.size := by
  rw [next?_eq_some_iff] at h
  exact (Array.getElem?_eq_some_iff.1 h).1

/-- A live entry is within the chunk. -/
theorem lt_of_get? {c : Chunk α} {pos : Nat} {v : α} (h : c.get? pos = some v) :
    pos < c.entries.size := by
  rw [get?_eq_some_iff] at h
  exact (Array.getElem?_eq_some_iff.1 h).1

/-- An entry is not free and busy at once. -/
theorem next?_of_get? {c : Chunk α} {pos : Nat} {v : α} (h : c.get? pos = some v) :
    c.next? pos = none := by
  rw [get?_eq_some_iff] at h
  simp [next?, h, Entry.next?]

/-- A free entry holds no value. -/
theorem get?_of_next? {c : Chunk α} {pos next : Nat} (h : c.next? pos = some next) :
    c.get? pos = none := by
  rw [next?_eq_some_iff] at h
  simp [get?, h, Entry.value?]

namespace Sound

variable {capacity : Nat} {c : Chunk α} {free : List Nat}

/-- A chunk of the same shape is as sound. -/
theorem congr {d : Chunk α} (h : Sound capacity c free) (hshape : SameShape c d) :
    Sound capacity d free where
  size := hshape.size.trans h.size
  le_max := h.le_max
  chain := by
    rw [hshape.freeEntry]
    exact h.chain.of_eq_on fun pos _ => hshape.next? pos
  nodup := h.nodup
  complete pos next hnext := h.complete pos next (by rw [← hshape.next?, hnext])
  busy := by rw [hshape.busy, h.busy]

/-- The positions on the free chain are below the capacity. -/
theorem lt_of_mem (h : Sound capacity c free) {pos : Nat} (hpos : pos ∈ free) :
    pos < capacity := by
  obtain ⟨next, hnext⟩ := Option.isSome_iff_exists.1 (h.chain.mem_isSome hpos)
  exact h.size ▸ lt_of_next? hnext

/-- No position below the capacity is the mark for "no position". -/
theorem ne_noPos_of_lt (h : Sound capacity c free) {pos : Nat} (hpos : pos < capacity) :
    pos ≠ noPos := by
  have := h.le_max
  unfold noPos
  omega

/-- The first free entry is the head of the free chain. -/
theorem freeEntry_cons {pos : Nat} {rest : List Nat} (h : Sound capacity c (pos :: rest)) :
    c.freeEntry = pos := h.chain.1

/-- A chunk has space exactly if its free chain is not empty. -/
theorem hasSpace_iff (h : Sound capacity c free) : c.hasSpace = true ↔ free ≠ [] := by
  have hchain := h.chain
  cases free with
  | nil => simp [hasSpace, show c.freeEntry = noPos from hchain]
  | cons pos rest =>
      have hne : c.freeEntry ≠ noPos :=
        hchain.1 ▸ h.ne_noPos_of_lt (h.lt_of_mem List.mem_cons_self)
      simp [hasSpace, hne]

/-- A chunk without space is full. -/
theorem busy_eq_capacity (h : Sound capacity c free) (hspace : ¬ c.hasSpace = true) :
    c.busy = capacity := by
  have hfree : free = [] := by
    by_contra hne
    exact hspace (h.hasSpace_iff.2 hne)
  simpa [hfree] using h.busy

/-- The positions that hold a value are those that are not free. -/
theorem isSome_get?_iff (h : Sound capacity c free) (pos : Nat) :
    (c.get? pos).isSome = true ↔ pos < capacity ∧ pos ∉ free := by
  constructor
  · intro hsome
    obtain ⟨v, hv⟩ := Option.isSome_iff_exists.1 hsome
    refine ⟨h.size ▸ lt_of_get? hv, fun hmem => ?_⟩
    have hnext := h.chain.mem_isSome hmem
    rw [next?_of_get? hv] at hnext
    cases hnext
  · rintro ⟨hlt, hnot⟩
    rw [← h.size] at hlt
    cases he : c.entries[pos] with
    | free next =>
        have hnext : c.next? pos = some next :=
          next?_eq_some_iff.2 (he ▸ Array.getElem?_eq_getElem hlt)
        exact absurd (h.complete pos next hnext) hnot
    | busy v =>
        have hget : c.get? pos = some v := get?_eq_some_iff.2 (he ▸ Array.getElem?_eq_getElem hlt)
        rw [hget]
        rfl

/-- A chunk with a busy entry counts one. -/
theorem busy_pos (h : Sound capacity c free) {pos : Nat} {v : α} (hv : c.get? pos = some v) :
    0 < c.busy := by
  have hpos : pos ∉ free := ((h.isSome_get?_iff pos).1 (by simp [hv])).2
  have hsub : pos :: free ⊆ List.range capacity := by
    intro q hq
    rcases List.mem_cons.1 hq with rfl | hmem
    · exact List.mem_range.2 (h.size ▸ lt_of_get? hv)
    · exact List.mem_range.2 (h.lt_of_mem hmem)
  have hlen := (List.subperm_of_subset (List.nodup_cons.2 ⟨hpos, h.nodup⟩) hsub).length_le
  have hbusy := h.busy
  rw [List.length_cons, List.length_range] at hlen
  omega

/-- Filling the first free entry takes it off the free chain. -/
theorem take_run {pos : Nat} {rest : List Nat} (h : Sound capacity c (pos :: rest)) (v : α) :
    ∃ d, c.take v = .ok d ∧ Sound capacity d rest ∧ d.links = c.links ∧ d.busy = c.busy + 1 ∧
      ∀ q, d.get? q = if q = pos then some v else c.get? q := by
  obtain ⟨hstart, next, hnext, hrest⟩ := h.chain
  have hentry := next?_eq_some_iff.1 hnext
  have hlt := lt_of_next? hnext
  have hbusy : c.busy < maxChunkEntries := by
    have hlen := h.busy
    have hmax := h.le_max
    rw [List.length_cons] at hlen
    omega
  let d : Chunk α :=
    { c with entries := c.entries.setIfInBounds pos (.busy v), freeEntry := next,
             busy := c.busy + 1 }
  have hget : ∀ q, d.entries[q]? = if pos = q then some (.busy v) else c.entries[q]? := by
    intro q
    simp [d, Array.getElem?_setIfInBounds, hlt]
  have hnext? : ∀ q, q ≠ pos → d.next? q = c.next? q := fun q hq => by
    simp [Chunk.next?, hget, hq.symm]
  -- the rest of the chain does not pass the entry, so it is as it was
  have hposnot : pos ∉ rest := (List.nodup_cons.1 h.nodup).1
  refine ⟨d, by simp [take, hstart, hentry, hbusy, d], ?_, rfl, rfl, fun q => ?_⟩
  · refine ⟨by simpa [d] using h.size, h.le_max, ?_, (List.nodup_cons.1 h.nodup).2, ?_, ?_⟩
    · exact hrest.of_eq_on fun q hq => hnext? q fun heq => hposnot (heq ▸ hq)
    · intro q next' hq
      by_cases hqp : q = pos
      · simp [Chunk.next?, hget, hqp, Entry.next?] at hq
      · exact List.mem_of_ne_of_mem hqp (h.complete q next' (by rw [← hnext? q hqp, hq]))
    · have hlen := h.busy
      rw [List.length_cons] at hlen
      change c.busy + 1 + rest.length = capacity
      omega
  · by_cases hq : pos = q
    · simp [Chunk.get?, hget, hq, Entry.value?]
    · simp [Chunk.get?, hget, hq, Ne.symm hq]

/-- Emptying an entry puts it in front of the free chain. -/
theorem release_run (h : Sound capacity c free) {pos : Nat} {v : α} (hv : c.get? pos = some v) :
    ∃ d, c.release pos = .ok (some (v, d)) ∧ Sound capacity d (pos :: free) ∧
      d.links = c.links ∧ d.busy + 1 = c.busy ∧
      ∀ q, d.get? q = if q = pos then none else c.get? q := by
  have hentry := get?_eq_some_iff.1 hv
  have hlt := lt_of_get? hv
  have hbusy := h.busy_pos hv
  have hposnot : pos ∉ free := ((h.isSome_get?_iff pos).1 (by simp [hv])).2
  let d : Chunk α :=
    { c with entries := c.entries.setIfInBounds pos (.free c.freeEntry), freeEntry := pos,
             busy := c.busy - 1 }
  have hget : ∀ q, d.entries[q]? = if pos = q then some (.free c.freeEntry) else c.entries[q]? := by
    intro q
    simp [d, Array.getElem?_setIfInBounds, hlt]
  have hnext? : ∀ q, q ≠ pos → d.next? q = c.next? q := fun q hq => by
    simp [Chunk.next?, hget, hq.symm]
  refine ⟨d, ?_, ?_, rfl, ?_, fun q => ?_⟩
  · simp [release, hentry, Nat.ne_of_gt hbusy, d]
  · refine ⟨by simpa [d] using h.size, h.le_max, ?_, List.nodup_cons.2 ⟨hposnot, h.nodup⟩, ?_, ?_⟩
    · refine ⟨rfl, c.freeEntry, by simp [Chunk.next?, hget, Entry.next?], ?_⟩
      exact h.chain.of_eq_on fun q hq => hnext? q fun heq => hposnot (heq ▸ hq)
    · intro q next hq
      by_cases hqp : q = pos
      · exact hqp ▸ List.mem_cons_self
      · exact List.mem_cons_of_mem pos (h.complete q next (by rw [← hnext? q hqp, hq]))
    · have hlen := h.busy
      rw [List.length_cons]
      change c.busy - 1 + (free.length + 1) = capacity
      omega
  · change c.busy - 1 + 1 = c.busy
    omega
  · by_cases hq : pos = q
    · simp [Chunk.get?, hget, hq, Entry.value?]
    · simp [Chunk.get?, hget, hq, Ne.symm hq]

end Sound

/-! ### Chunks with one free chain -/

section

variable {c d : Chunk α} {free : List Nat} {capacity : Nat}

/-- A free chain starts at its first position, or at the mark if it is empty. -/
theorem FreeChain.start_eq {start : Nat} (h : c.FreeChain start free) :
    start = free.head?.getD noPos := by
  cases free with
  | nil => exact h
  | cons pos rest => exact h.1

/-- A free entry holds the position under it on the stack. -/
theorem FreeChain.next?_eq {start : Nat} (h : c.FreeChain start free) (h' : d.FreeChain start free)
    {pos : Nat} (hpos : pos ∈ free) : d.next? pos = c.next? pos := by
  induction free generalizing start with
  | nil => cases hpos
  | cons q rest ih =>
      obtain ⟨-, next, hnext, hrest⟩ := h
      obtain ⟨-, next', hnext', hrest'⟩ := h'
      obtain rfl : next' = next := hrest'.start_eq.trans hrest.start_eq.symm
      rcases List.mem_cons.1 hpos with rfl | hmem
      · rw [hnext, hnext']
      · exact ih hrest hrest' hmem

/-- Chunks with one free chain and the same links differ in their values only. -/
theorem Sound.sameShape (h : Sound capacity c free) (h' : Sound capacity d free)
    (hlinks : d.links = c.links) : SameShape c d := by
  have hfree : d.freeEntry = c.freeEntry := h'.chain.start_eq.trans h.chain.start_eq.symm
  have hchain : d.FreeChain c.freeEntry free := hfree ▸ h'.chain
  have hnone : ∀ {e : Chunk α} {pos : Nat}, Sound capacity e free → pos ∉ free →
      e.next? pos = none := fun he hpos =>
    Option.eq_none_iff_forall_ne_some.2 fun next hnext => hpos (he.complete _ next hnext)
  refine ⟨h'.size.trans h.size.symm, fun pos => ?_, hfree, ?_, hlinks⟩
  · by_cases hpos : pos ∈ free
    · exact h.chain.next?_eq hchain hpos
    · rw [hnone h hpos, hnone h' hpos]
  · have := h.busy
    have := h'.busy
    omega

end

/-! ### Fresh chunks -/

/-- In a new chunk, each entry is free and leads to the next one, and the last one to the mark. -/
theorem next?_empty (capacity : Capacity) (pos : Nat) (hpos : pos < capacity.entries) :
    (empty capacity : Chunk α).next? pos =
      some (if pos + 1 < capacity.entries then pos + 1 else noPos) := by
  simp [next?, empty, hpos, Entry.next?]

/-- The free chain of a fresh chunk follows the positions. -/
theorem freeChain_empty (capacity : Capacity) (k : Nat) (hk : k < capacity.entries) :
    (empty capacity : Chunk α).FreeChain k (List.range' k (capacity.entries - k)) := by
  obtain ⟨m, hm⟩ : ∃ m, capacity.entries - k = m + 1 := ⟨capacity.entries - k - 1, by omega⟩
  rw [hm]
  induction m generalizing k with
  | zero =>
      refine ⟨rfl, _, next?_empty capacity k hk, ?_⟩
      rw [if_neg (by omega)]
      rfl
  | succ m ih =>
      refine ⟨rfl, _, next?_empty capacity k hk, ?_⟩
      rw [if_pos (by omega)]
      exact ih (k + 1) (by omega) (by omega)

/-- A new chunk is sound, and all its positions are free in ascending order. -/
theorem sound_empty (capacity : Capacity) :
    Sound capacity.entries (empty capacity : Chunk α) (List.range capacity.entries) where
  size := by simp [empty]
  le_max := capacity.le_max
  chain := by
    rw [List.range_eq_range']
    exact freeChain_empty capacity 0 capacity.pos
  nodup := List.nodup_range
  complete pos next hnext := by
    have := lt_of_next? hnext
    simpa [empty] using this
  busy := by simp [empty]

/-- A new chunk holds no values. -/
theorem get?_empty (capacity : Capacity) (pos : Nat) :
    (empty capacity : Chunk α).get? pos = none := by
  by_cases hpos : pos < capacity.entries
  · exact get?_of_next? (next?_empty capacity pos hpos)
  · simp [get?, empty, hpos]

end Chunk

end SlabGraph
