import SlabGraph.Proofs.History.Tags

/-!
# The Ledgers of a Graph

No call takes the values of the two ledgers of a graph out of their bounds, whatever tags it is
given. A raw call may put other ledgers in, and these are within the bounds as well if they came
about as ledgers do (`TagLedger.Reached`).

## Main definitions

* `RawCall.Admissible`, `World.Step.Admissible`: the ledgers that are put in are possible ones.

## Main results

* `View.TagStep.sound`, `Move.soundLedgers`;
* `World.exists_soundLedgers`: the ledgers of all graphs of all worlds.
-/

namespace SlabGraph

variable {N E : Type}

/-- The values of both ledgers are within their bounds. -/
structure View.SoundLedgers (V : View N E) : Prop where
  /-- The ledger of the markers. -/
  markers : V.markers.Sound
  /-- The ledger of the numerations. -/
  nums : V.nums.Sound

/-- The ledgers stay within their bounds when the tags of an entity are replaced. -/
theorem View.SoundLedgers.setArea {V : View N E} (h : V.SoundLedgers) (area : TagArea)
    {kind : EntityKind} (x : Handle kind) : (V.setArea area x).SoundLedgers := by
  cases kind <;> exact ⟨h.markers, h.nums⟩

/-- A step keeps the values of the ledger within their bounds. -/
theorem View.TagStep.sound {kind : TagKind} [TagHost (View N E) kind] [BearsTags N E kind]
    {V V' : View N E} {deeds : History N E} (hstep : TagStep kind V deeds V')
    (h : (TagHost.ledger V : TagLedger kind).Sound) :
    (TagHost.ledger V' : TagLedger kind).Sound := by
  cases hstep with
  | grant run => exact Action.after_of_ok run ▸ TagHost.sound_grant h
  | refuse run => exact Action.after_of_error run ▸ TagHost.sound_grant h
  | free run => exact Action.after_of_ok run ▸ TagHost.sound_release h _
  | sweep =>
      rw [LawfulTagHost.ledger_sweep]
      exact h
  | put x =>
      rw [BearsTags.ledger_setArea]
      exact h
  | apart ledger => exact ledger ▸ h

/-- A move keeps the values of both ledgers within their bounds. -/
theorem Move.soundLedgers {V V' : View N E} {deeds : History N E} (hmove : Move V deeds V')
    (h : V.SoundLedgers) : V'.SoundLedgers :=
  ⟨hmove.markerStep.sound h.markers, hmove.numStep.sound h.nums⟩

/-- The ledgers stay within their bounds over all moves. -/
theorem Moves.soundLedgers {V V' : View N E} {deeds : History N E} (hmoves : Moves V deeds V')
    (h : V.SoundLedgers) : V'.SoundLedgers := by
  induction hmoves with
  | none => exact h
  | after _ hmove ih => exact hmove.soundLedgers ih

/-! ### Worlds -/

/-- A raw call puts in no ledgers but such as come about. -/
def RawCall.Admissible : RawCall N E → Prop
  | changeArea .. => True
  | setLedgers markers nums => markers.Reached ∧ nums.Reached

namespace World

/-- A step puts in no ledgers but such as come about. -/
def Step.Admissible : Step N E → Prop
  | raw _ change => change.Admissible
  | create .. | call .. => True

/-- After a run, every graph holds a consistent view with ledgers within their bounds. -/
theorem exists_soundLedgers (supply : IdSupply) {steps : List (Step N E)}
    (hsteps : ∀ s ∈ steps, s.Admissible) : ∀ r ∈ ((start supply).run steps).graphs,
      ∃ V, Graph.Holds r.graph V ∧ V.SoundLedgers := by
  refine forall_run (I := fun r => ∃ V, Graph.Holds r.graph V ∧ V.SoundLedgers) ?_ ?_ ?_
    (forall_start supply)
  · intro config supply supply' g hrun
    exact ⟨_, Graph.ofConfig_holds hrun, TagLedger.sound_ofOwner _, TagLedger.sound_ofOwner _⟩
  · rintro call r ⟨V, h, hV⟩
    obtain ⟨V', deeds, h', -, hmoves⟩ := call.legal_run r V h
    exact ⟨V', h', hmoves.soundLedgers hV⟩
  · rintro i raw hmem r ⟨V, h, hV⟩
    cases raw with
    | setLedgers markers nums =>
        obtain ⟨hmarkers, hnums⟩ := hsteps _ hmem
        exact ⟨_, h.setLedgers markers nums, hmarkers.sound, hnums.sound⟩
    | @changeArea kind x change =>
        rcases h.onArea_cases x change with ⟨area, answer, g', -, -, hrun, h'⟩ | ⟨e, he⟩
        · have hafter : (RawCall.changeArea x change).run.after r = ⟨g', r.history⟩ :=
            Action.after_of_ok (a := answer.1) (by simp [RawCall.run, Recorded.act, hrun])
          rw [hafter]
          exact ⟨_, h', hV.setArea answer.2 x⟩
        · have hafter : (RawCall.changeArea x change).run.after r = ⟨r.graph, r.history⟩ :=
            Action.after_of_error (e := e) (by simp [RawCall.run, Recorded.act, he])
          rw [hafter]
          exact ⟨V, h, hV⟩

end World

end SlabGraph
