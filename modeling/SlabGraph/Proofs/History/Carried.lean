import SlabGraph.Proofs.History.Deeds

/-!
# Tags in Histories

Markers and numerations can be read off a history in one way. A deed may grant a tag, take one
back, or put something under a tag on an entity, and it is about one kind of tag only. What an
entity carries under a tag is what was put there last, after the tag was granted and the entity
added (`History.carried?`). A mark puts a zero, and the number of an entity is what was put.

## Main definitions

* `Deed.grants?`, `Deed.frees?`, `Deed.puts?`;
* `History.tags`, `History.carried?`.

## Main results

* `History.markers_eq_tags`, `History.marked_iff`, `History.nums_eq_tags`, `History.number?_eq`;
* `History.tags_append`, `History.carried?_append`, `History.carried?_append_of_adds`.
-/

namespace SlabGraph

variable {N E : Type}

/-! ### Deeds -/

namespace Deed

/-- The tag of a kind that a deed grants. -/
def grants? : (kind : TagKind) → Deed N E → Option (Tag kind)
  | .marker, .grantMarker marker => some marker
  | .numeration, .grantNum num => some num
  | _, _ => none

/-- The tag of a kind that a deed takes back. -/
def frees? : (kind : TagKind) → Deed N E → Option (Tag kind)
  | .marker, .freeMarker marker => some marker
  | .numeration, .freeNum num => some num
  | _, _ => none

/-- The entity and the tag of a kind that a deed is about, and what the entity carries then. -/
def puts? : (kind : TagKind) → Deed N E → Option (AnyHandle × Tag kind × Option Nat)
  | .marker, .mark x marker => some (x, marker, some 0)
  | .marker, .unmark x marker => some (x, marker, none)
  | .numeration, .setNumber x num value => some (x, num, some value)
  | .numeration, .unnumber x num => some (x, num, none)
  | _, _ => none

/-- A deed has nothing to do with the tags of a kind. -/
structure Apart (kind : TagKind) (deed : Deed N E) : Prop where
  grants : deed.grants? kind = none
  frees : deed.frees? kind = none
  puts : deed.puts? kind = none

variable {kind : TagKind} {deed : Deed N E}

/-- A deed that is not about tags has nothing to do with those of any kind. -/
theorem apart_of_onTags (h : deed.onTags = false) : deed.Apart kind := by
  cases kind <;> cases deed <;> first | exact ⟨rfl, rfl, rfl⟩ | cases h

/-- A deed that grants a tag does nothing else. -/
theorem of_grants? {tag : Tag kind} (h : deed.grants? kind = some tag) :
    deed.frees? kind = none ∧ deed.puts? kind = none ∧ deed.adds = none := by
  cases kind <;> cases deed <;> first | exact ⟨rfl, rfl, rfl⟩ | cases h

/-- A deed that takes a tag back does nothing else. -/
theorem of_frees? {tag : Tag kind} (h : deed.frees? kind = some tag) :
    deed.grants? kind = none ∧ deed.puts? kind = none ∧ deed.adds = none := by
  cases kind <;> cases deed <;> first | exact ⟨rfl, rfl, rfl⟩ | cases h

/-- A deed that puts something does nothing else. -/
theorem of_puts? {what : AnyHandle × Tag kind × Option Nat} (h : deed.puts? kind = some what) :
    deed.grants? kind = none ∧ deed.frees? kind = none ∧ deed.adds = none := by
  cases kind <;> cases deed <;> first | exact ⟨rfl, rfl, rfl⟩ | cases h

end Deed

namespace History

/-! ### Tags in use -/

/-- The tags of a kind that were granted and not taken back since, the latest first. -/
def tags (kind : TagKind) : History N E → List (Tag kind)
  | [] => []
  | deed :: past => match deed.grants? kind with
    | some granted => granted :: tags kind past
    | none => match deed.frees? kind with
      | some freed => (tags kind past).erase freed
      | none => tags kind past

variable {kind : TagKind} {deed : Deed N E} {tag : Tag kind} {x : AnyHandle}

/-- After a grant, the granted tag is in use as well. -/
theorem tags_cons_of_grants? (h : deed.grants? kind = some tag) (past : History N E) :
    tags kind (deed :: past) = tag :: tags kind past := by
  rw [tags, h]

/-- After a tag was taken back, it is no longer in use. -/
theorem tags_cons_of_frees? (h : deed.frees? kind = some tag) (past : History N E) :
    tags kind (deed :: past) = (tags kind past).erase tag := by
  rw [tags, (Deed.of_frees? h).1, h]

/-- Other deeds do not change which tags are in use. -/
theorem tags_cons (hgrants : deed.grants? kind = none) (hfrees : deed.frees? kind = none)
    (past : History N E) : tags kind (deed :: past) = tags kind past := by
  rw [tags, hgrants, hfrees]

/-- As long as no tag is taken back, the tags in use are those that were, and those that were
granted. -/
theorem tags_append {later : History N E} (h : ∀ deed ∈ later, deed.frees? kind = none)
    (past : History N E) :
    tags kind (later ++ past) = later.filterMap (Deed.grants? kind) ++ tags kind past := by
  induction later with
  | nil => rfl
  | cons deed later ih =>
      have hrest := ih fun deed' hdeed' => h deed' (List.mem_cons_of_mem deed hdeed')
      have hdeed := h deed List.mem_cons_self
      cases hgrants : deed.grants? kind with
      | some tag =>
          rw [List.cons_append, tags_cons_of_grants? hgrants, hrest,
            List.filterMap_cons_some hgrants, List.cons_append]
      | none =>
          rw [List.cons_append, tags_cons hgrants hdeed, hrest, List.filterMap_cons_none hgrants]

/-! ### What entities carry -/

/-- What an entity carries under a tag: what was put there last, after the tag was granted and
the entity added. -/
def carried? (tag : Tag kind) (x : AnyHandle) : History N E → Option Nat
  | [] => none
  | deed :: past =>
    if deed.grants? kind = some tag ∨ deed.adds = some x then none
    else match deed.puts? kind with
      | some (y, put, what) => if x = y ∧ tag = put then what else carried? tag x past
      | none => carried? tag x past

/-- Nothing is carried under a new tag or by a new entity. -/
theorem carried?_cons_of_new (h : deed.grants? kind = some tag ∨ deed.adds = some x)
    (past : History N E) : carried? tag x (deed :: past) = none := by
  rw [carried?, if_pos h]

/-- What is put counts for the entity and the tag that it is put for. -/
theorem carried?_cons_of_puts? {y : AnyHandle} {put : Tag kind} {what : Option Nat}
    (h : deed.puts? kind = some (y, put, what)) (past : History N E) :
    carried? tag x (deed :: past) =
      if x = y ∧ tag = put then what else carried? tag x past := by
  obtain ⟨hgrants, -, hadds⟩ := Deed.of_puts? h
  rw [carried?, if_neg (by simp [hgrants, hadds]), h]

/-- Other deeds do not change what an entity carries under a tag. -/
theorem carried?_cons (hgrants : deed.grants? kind ≠ some tag) (hadds : deed.adds ≠ some x)
    (hputs : ∀ what, deed.puts? kind ≠ some (x, tag, what)) (past : History N E) :
    carried? tag x (deed :: past) = carried? tag x past := by
  cases hdeed : deed.puts? kind with
  | none => rw [carried?, if_neg (not_or.2 ⟨hgrants, hadds⟩), hdeed]
  | some put =>
      obtain ⟨y, tag', what⟩ := put
      rw [carried?_cons_of_puts? hdeed, if_neg]
      rintro ⟨rfl, rfl⟩
      exact hputs what hdeed

/-- Deeds that neither grant the tag nor add the entity nor put anything there change nothing. -/
theorem carried?_append {later : History N E}
    (hgrants : ∀ deed ∈ later, deed.grants? kind ≠ some tag)
    (hadds : ∀ deed ∈ later, deed.adds ≠ some x)
    (hputs : ∀ deed ∈ later, ∀ what, deed.puts? kind ≠ some (x, tag, what))
    (past : History N E) : carried? tag x (later ++ past) = carried? tag x past := by
  induction later with
  | nil => rfl
  | cons deed later ih =>
      rw [List.forall_mem_cons] at hgrants hadds hputs
      rw [List.cons_append, carried?_cons hgrants.1 hadds.1 hputs.1]
      exact ih hgrants.2 hadds.2 hputs.2

/-- An entity that is new carries nothing, as long as nothing is put. -/
theorem carried?_append_of_adds {later : History N E}
    (hputs : ∀ deed ∈ later, deed.puts? kind = none)
    (hadds : ∃ deed ∈ later, deed.adds = some x) (past : History N E) :
    carried? tag x (later ++ past) = none := by
  induction later with
  | nil =>
      obtain ⟨deed, hdeed, -⟩ := hadds
      cases hdeed
  | cons deed later ih =>
      rw [List.forall_mem_cons] at hputs
      by_cases hnew : deed.grants? kind = some tag ∨ deed.adds = some x
      · exact carried?_cons_of_new hnew _
      · rw [not_or] at hnew
        rw [List.cons_append, carried?_cons hnew.1 hnew.2 (by simp [hputs.1])]
        obtain ⟨deed', hdeed', hadds'⟩ := hadds
        rcases List.mem_cons.1 hdeed' with rfl | hdeed'
        · exact absurd hadds' hnew.2
        · exact ih hputs.2 ⟨deed', hdeed', hadds'⟩

/-! ### Markers and numerations -/

/-- The markers in use are the tags of their kind in use. -/
theorem markers_eq_tags (past : History N E) : markers past = tags .marker past := by
  induction past with
  | nil => rfl
  | cons deed past ih => cases deed <;> simp [markers, tags, Deed.grants?, Deed.frees?, ih]

/-- The numerations in use are the tags of their kind in use. -/
theorem nums_eq_tags (past : History N E) : nums past = tags .numeration past := by
  induction past with
  | nil => rfl
  | cons deed past ih => cases deed <;> simp [nums, tags, Deed.grants?, Deed.frees?, ih]

/-- An entity is marked exactly if it carries something under the marker. -/
theorem marked_iff (marker : Marker) (x : AnyHandle) (past : History N E) :
    Marked marker x past ↔ (carried? marker x past).isSome = true := by
  induction past with
  | nil => simp [Marked, carried?]
  | cons deed past ih =>
      cases deed with
      | grantMarker granted =>
          by_cases heq : marker = granted
          · simp [Marked, carried?, Deed.grants?, heq]
          · simp [Marked, carried?, Deed.grants?, Deed.puts?, Deed.adds, ih, heq, Ne.symm heq]
      | addNode added | addEdge added =>
          by_cases heq : x = ⟨_, added⟩
          · simp [Marked, carried?, Deed.adds, heq]
          · simp [Marked, carried?, Deed.grants?, Deed.puts?, Deed.adds, ih, heq, Ne.symm heq]
      | mark y set | unmark y set =>
          by_cases heq : x = y ∧ marker = set <;>
            simp [Marked, carried?, Deed.grants?, Deed.puts?, Deed.adds, ih, heq]
      | _ => simpa [Marked, carried?, Deed.grants?, Deed.puts?, Deed.adds] using ih

/-- The number of an entity is what it carries under the numeration. -/
theorem number?_eq (num : Numeration) (x : AnyHandle) (past : History N E) :
    number? num x past = carried? num x past := by
  induction past with
  | nil => rfl
  | cons deed past ih =>
      cases deed <;>
        simp [number?, carried?, Deed.grants?, Deed.puts?, Deed.adds, ih, eq_comm]

end History

end SlabGraph
