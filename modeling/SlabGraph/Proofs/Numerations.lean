import SlabGraph.Proofs.History.TagRuns

/-!
# Numerations

A numeration gives some of the nodes and edges of a graph a number each, and nothing but setting
and removing a number changes that. This is said here of all runs of calls on a new graph, in terms
of the history: the number of an entity is the one that was set last, after both the grant of the
numeration and the creation of the entity, and not removed since (`Recorded.NumbersFaithful`). How
often the values of an index have started over, and how often a slot was given out again, does not
matter: a number that was set under an earlier numeration of the index is never seen again.

The raw calls are left out, since they may put any numbers into an entity.

## Main definitions

* `Call.Numbers`, `Recorded.NumbersFaithful`.

## Main results

* `Call.numbersFaithful_runAll`.
-/

namespace SlabGraph

variable {N E : Type}

/-! ### Answers -/

namespace Graph

section

variable {g : Graph N E} {V : View N E} {kind : EntityKind} {x : Handle kind} {area : TagArea}
  {num : Numeration} {value : Int}

/-- The number of an entity can be read off its tags. -/
theorem Holds.number_run (h : Holds g V) (hx : V.area? x = some area)
    (huse : (TagHost.ledger g : TagLedger .numeration).isLive num = true) :
    number x num g = .ok ((area.carried? num).getD noNumber) := by
  rw [← TagArea.number_eq]
  simp [number, checkTag_run huse, rawNumber, h.area_run hx, pure, Except.pure]

/-- Whether an entity has a number can be read off its tags. -/
theorem Holds.isNumbered_run (h : Holds g V) (hx : V.area? x = some area)
    (huse : (TagHost.ledger g : TagLedger .numeration).isLive num = true) :
    isNumbered x num g = .ok (area.carried? num).isSome := by
  rw [← TagArea.isNumbered_eq]
  simp [isNumbered, checkTag_run huse, rawIsNumbered, h.area_run hx, pure, Except.pure]

/-- Setting a number within the bounds writes it into the tags of the entity. -/
theorem Holds.setNumber_run (h : Holds g V) (hx : V.area? x = some area)
    (huse : (TagHost.ledger g : TagLedger .numeration).isLive num = true)
    (hfits : 0 ≤ value ∧ value ≤ 4294967294) :
    ∃ g' numbers, setNumber x num value g = .ok () g' ∧
      area.numbers.setNumber num value = .ok numbers ∧
      Holds g' (V.setArea { area with numbers } x) := by
  obtain ⟨g', hrun, h'⟩ := h.onArea_run hx (area.setNumber_run num hfits)
  exact ⟨g', _, by simp [setNumber, checkTag_run huse, rawSetNumber, hrun],
    Numbers.setNumber_run _ num hfits, h'⟩

/-- A number out of the bounds is refused, and nothing changes. -/
theorem Holds.setNumber_refused (h : Holds g V) (hx : V.area? x = some area)
    (huse : (TagHost.ledger g : TagLedger .numeration).isLive num = true)
    (hbad : ¬ (0 ≤ value ∧ value ≤ 4294967294)) :
    setNumber x num value g = .error .numberOutOfRange g := by
  simp [setNumber, checkTag_run huse, rawSetNumber, onArea, h.area_run hx,
    area.setNumber_refused num hbad]

/-- Taking a number away answers whether there was one, and clears it in the tags of the entity. -/
theorem Holds.unnumber_run (h : Holds g V) (hx : V.area? x = some area)
    (huse : (TagHost.ledger g : TagLedger .numeration).isLive num = true) :
    ∃ g', unnumber x num g = .ok (area.carried? num).isSome g' ∧
      Holds g' (V.setArea { area with numbers := (area.numbers.unnumber num).2 } x) := by
  have hchange : TagArea.unnumber num area = .ok ((area.carried? num).isSome,
      { area with numbers := (area.numbers.unnumber num).2 }) := by
    rw [← TagArea.isNumbered_eq, ← Numbers.fst_unnumber]
    rfl
  obtain ⟨g', hrun, h'⟩ := h.onArea_run hx hchange
  exact ⟨g', by simp [unnumber, checkTag_run huse, rawUnnumber, hrun], h'⟩

end

end Graph

/-! ### Numerations and the numbers that were set -/

/-- Whether a call is to set or to remove the number of an entity in a numeration. -/
def Call.Numbers (x : AnyHandle) (num : Numeration) : Call N E → Prop
  | @setNumber _ _ kind y num' _ | @unnumber _ _ kind y num' => x = ⟨kind, y⟩ ∧ num = num'
  | _ => False

/-- Only such a call puts something in a numeration. -/
theorem Call.puts_of_not_numbers {call : Call N E} {x : AnyHandle} {num : Numeration}
    (h : ¬ call.Numbers x num) (deed : Deed N E) (what : Option Nat) (hmay : call.MayWrite deed) :
    deed.puts? .numeration ≠ some (x, num, what) := by
  intro hputs
  cases deed with
  | setNumber y num' value | unnumber y num' =>
      cases hputs
      cases call <;> simp_all [MayWrite, Numbers]
  | _ => cases hputs

namespace Recorded

/-- The numbers of a graph are what its history says, and every call keeps them so. -/
structure NumbersFaithful (r : Recorded N E) : Prop where
  /-- The number of a live entity in a numeration in use is the one that was set last since the
  grant of the numeration and the creation of the entity, and not removed since. -/
  number : ∀ {kind : EntityKind} (x : Handle kind) (num : Numeration),
    r.graph.contains x = true → num ∈ History.nums r.history →
    Graph.number x num r.graph =
      .ok ((History.number? num ⟨kind, x⟩ r.history).getD noNumber)
  /-- An entity has a number if there is such a number. -/
  isNumbered : ∀ {kind : EntityKind} (x : Handle kind) (num : Numeration),
    r.graph.contains x = true → num ∈ History.nums r.history →
    Graph.isNumbered x num r.graph = .ok (History.number? num ⟨kind, x⟩ r.history).isSome
  /-- A number in range is set. -/
  setNumber : ∀ {kind : EntityKind} (x : Handle kind) (num : Numeration) (value : Int),
    r.graph.contains x = true → num ∈ History.nums r.history →
    0 ≤ value ∧ value ≤ 4294967294 →
    ∃ r', Recorded.setNumber x num value r = .ok () r' ∧
      Graph.number x num r'.graph = .ok value.toNat
  /-- A number out of range is refused, and nothing changes. -/
  setNumber_refused : ∀ {kind : EntityKind} (x : Handle kind) (num : Numeration) (value : Int),
    r.graph.contains x = true → num ∈ History.nums r.history →
    ¬ (0 ≤ value ∧ value ≤ 4294967294) →
    Recorded.setNumber x num value r = .error .numberOutOfRange r
  /-- Removing a number answers whether there was one. -/
  unnumber : ∀ {kind : EntityKind} (x : Handle kind) (num : Numeration),
    r.graph.contains x = true → num ∈ History.nums r.history →
    ∃ r', Recorded.unnumber x num r =
        .ok (History.number? num ⟨kind, x⟩ r.history).isSome r' ∧
      Graph.isNumbered x num r'.graph = .ok false
  /-- A grant is refused exactly if 10 numerations are in use, and then changes nothing. -/
  refused : ∀ e r', Recorded.newNum r = .error e r' ↔
    (History.nums r.history).length = 10 ∧ e = .tagsExhausted .numeration ∧ r' = r
  /-- A call that is not about the number of the entity in the numeration does not change it. -/
  kept : ∀ (call : Call N E) {kind : EntityKind} (x : Handle kind) (num : Numeration),
    ¬ call.Numbers ⟨kind, x⟩ num →
    r.graph.contains x = true → (call.run.after r).graph.contains x = true →
    num ∈ History.nums r.history → num ∈ History.nums (call.run.after r).history →
    Graph.number x num (call.run.after r).graph = Graph.number x num r.graph

variable {r : Recorded N E} {V : View N E} {kind : EntityKind} {x : Handle kind}
  {num : Numeration}

/-- The number that a graph answers that agrees with its history. -/
theorem number_run (h : Graph.Holds r.graph V) (ha : V.TagsAgree .numeration r.history)
    (hx : r.graph.contains x = true) (hnum : num ∈ History.tags .numeration r.history) :
    Graph.number x num r.graph =
      .ok ((History.carried? num ⟨kind, x⟩ r.history).getD noNumber) := by
  obtain ⟨area, harea, huse, hcarried⟩ := exists_carried h ha hx hnum
  rw [h.number_run harea huse, hcarried]

/-- An entity has a number exactly if its history says so. -/
theorem isNumbered_run (h : Graph.Holds r.graph V) (ha : V.TagsAgree .numeration r.history)
    (hx : r.graph.contains x = true) (hnum : num ∈ History.tags .numeration r.history) :
    Graph.isNumbered x num r.graph =
      .ok (History.carried? num ⟨kind, x⟩ r.history).isSome := by
  obtain ⟨area, harea, huse, hcarried⟩ := exists_carried h ha hx hnum
  rw [h.isNumbered_run harea huse, hcarried]

/-- Setting a number in range sets it. -/
theorem setNumber_run (h : Graph.Holds r.graph V) (ha : V.TagsAgree .numeration r.history)
    (hx : r.graph.contains x = true) (hnum : num ∈ History.tags .numeration r.history)
    {value : Int} (hfits : 0 ≤ value ∧ value ≤ 4294967294) :
    ∃ r', Recorded.setNumber x num value r = .ok () r' ∧
      Graph.number x num r'.graph = .ok value.toNat := by
  obtain ⟨area, harea, huse, -⟩ := exists_carried h ha hx hnum
  obtain ⟨g', numbers, hrun, hset, h'⟩ := h.setNumber_run harea huse hfits
  let deed : Deed N E := .setNumber ⟨kind, x⟩ num value.toNat
  have hputs : deed.puts? .numeration = some (⟨kind, x⟩, num, some value.toNat) := rfl
  have ha' := ha.put ((ha.inUse num).1 hnum) harea (area.puts_setNumber num hset) hputs
  refine ⟨⟨g', deed :: r.history⟩, by simp [Recorded.setNumber, act, hrun, deed], ?_⟩
  rw [number_run (r := ⟨g', deed :: r.history⟩) h' ha' (h'.contains_of_setArea harea) hnum,
    History.carried?_cons_of_puts? hputs, if_pos ⟨rfl, rfl⟩]
  rfl

/-- Removing a number answers whether there was one. -/
theorem unnumber_run (h : Graph.Holds r.graph V) (ha : V.TagsAgree .numeration r.history)
    (hx : r.graph.contains x = true) (hnum : num ∈ History.tags .numeration r.history) :
    ∃ r', Recorded.unnumber x num r =
        .ok (History.carried? num ⟨kind, x⟩ r.history).isSome r' ∧
      Graph.isNumbered x num r'.graph = .ok false := by
  obtain ⟨area, harea, huse, hcarried⟩ := exists_carried h ha hx hnum
  obtain ⟨g', hrun, h'⟩ := h.unnumber_run harea huse
  have hlive := (ha.inUse num).1 hnum
  let deed : Deed N E := .unnumber ⟨kind, x⟩ num
  have hputs : deed.puts? .numeration = some (⟨kind, x⟩, num, none) := rfl
  have ha' := ha.put hlive harea (area.puts_unnumber num (ha.sound.value_pos hlive)) hputs
  rw [← hcarried]
  refine ⟨⟨g', deed :: r.history⟩, by simp [Recorded.unnumber, act, hrun, deed], ?_⟩
  rw [isNumbered_run (r := ⟨g', deed :: r.history⟩) h' ha' (h'.contains_of_setArea harea) hnum,
    History.carried?_cons_of_puts? hputs, if_pos ⟨rfl, rfl⟩]
  rfl

/-- A graph that agrees with its history about numerations is faithful about them. -/
theorem numbersFaithful (h : Graph.Holds r.graph V) (ha : V.TagsAgree .numeration r.history) :
    r.NumbersFaithful where
  number {kind} x num hx hnum := by
    rw [History.nums_eq_tags] at hnum
    rw [number_run h ha hx hnum, History.number?_eq]
  isNumbered {kind} x num hx hnum := by
    rw [History.nums_eq_tags] at hnum
    rw [isNumbered_run h ha hx hnum, History.number?_eq]
  setNumber x num value hx hnum hfits := by
    rw [History.nums_eq_tags] at hnum
    exact setNumber_run h ha hx hnum hfits
  setNumber_refused x num value hx hnum hbad := by
    rw [History.nums_eq_tags] at hnum
    obtain ⟨area, harea, huse, -⟩ := exists_carried h ha hx hnum
    simp [Recorded.setNumber, act, h.setNumber_refused harea huse hbad]
  unnumber {kind} x num hx hnum := by
    rw [History.nums_eq_tags] at hnum
    rw [History.number?_eq]
    exact unnumber_run h ha hx hnum
  refused e r' := by
    have hdeeds : ∀ num : Numeration, ∃ deed : Deed N E,
        [.grantNum num] = [deed] ∧ deed.grants? .numeration = some num :=
      fun num => ⟨.grantNum num, rfl, rfl⟩
    rw [History.nums_eq_tags]
    rcases grant_cases h ha hdeeds with ⟨hlen, hrun⟩ | ⟨hlen, num, s, V', hrun, -⟩
    · change newNum r = _ at hrun
      rw [hrun]
      simp [show _ = 10 from hlen, eq_comm]
    · change newNum r = _ at hrun
      rw [hrun]
      simp [show _ ≠ 10 from hlen]
  kept call {kind} x num hother hx hx' hnum hnum' := by
    rw [History.nums_eq_tags] at hnum hnum'
    obtain ⟨V', -, h', ha', -⟩ := call.tagsAgree_run h ha
    rw [number_run h ha hx hnum, number_run h' ha' hx' hnum',
      carried?_after h ha (Call.puts_of_not_numbers hother) hx hnum]

end Recorded

namespace Call

/-- After any run of calls on a new graph, the numbers are what the history says. -/
theorem numbersFaithful_runAll {config : GraphConfig} {supply supply' : IdSupply}
    {g : Graph N E} (hg : Graph.ofConfig config supply = .ok g supply')
    (calls : List (Call N E)) : (runAll calls ⟨g, []⟩).NumbersFaithful := by
  have h := Graph.ofConfig_holds hg
  obtain ⟨V, h', ha⟩ := tagsAgree_runAll calls (r := ⟨g, []⟩) h
    (View.tagsAgree_blank_nums _ _ _ _ _)
  exact Recorded.numbersFaithful h' ha

/-- A node with a number is deleted, and its slot is given to another one, which gets a number of
its own. -/
def renumber : List (Call Nat Nat) :=
  let num : Numeration := ⟨1, ⟨0, by decide⟩, 1⟩
  let node : NodeHandle := ⟨⟨0⟩, 0, ⟨0, 0⟩⟩
  let node' : NodeHandle := ⟨⟨0⟩, 1, ⟨0, 0⟩⟩
  [.newNum, .newNode 5, .setNumber node num 7, .deleteNode node, .newNode 6,
    .setNumber node' num 8, .setNumber node' num (-1)]

/-- A node is numbered and deleted, and another one in its slot has the number that it was given
itself. -/
theorem numbersFaithful_runAll_renumber :
    (Graph.ofConfig ⟨1, 1⟩ {} : EStateM.Result Fault IdSupply _) = .ok smallest ⟨1, 2⟩ ∧
    (Graph.number (⟨⟨0⟩, 1, ⟨0, 0⟩⟩ : NodeHandle) ⟨1, ⟨0, by decide⟩, 1⟩
      (runAll renumber ⟨smallest, []⟩).graph).toOption = some 8 ∧
    (runAll renumber ⟨smallest, []⟩).NumbersFaithful := by
  have hnew : (Graph.ofConfig ⟨1, 1⟩ {} : EStateM.Result Fault IdSupply _) =
      .ok smallest ⟨1, 2⟩ := rfl
  exact ⟨hnew, by decide +kernel, numbersFaithful_runAll hnew renumber⟩

end Call

end SlabGraph
