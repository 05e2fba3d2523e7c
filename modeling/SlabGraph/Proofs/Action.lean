import SlabGraph.Action

/-!
# Running Actions

One equation for each way in which an action is built, read off at a state. Applied to a
state about which enough is known they carry an operation out step by step, to its answer
and the state after it or to its fault and the state left behind, so that a proof about an
operation follows its text.

The equations are `simp` lemmas. `run_bind` leaves a `match` on the outcome of the first
part, which the lemma about that part decides.

## Main results

* `Action.run_bind`, `Action.run_read`, `Action.run_within` and their companions;
* `ok_bind` and `error_bind` for readers in `Except Fault`;
* `Action.Keeps`, what an action keeps whatever its outcome, with one lemma for each way in which
  an action is built.
-/

namespace SlabGraph

@[simp] theorem ok_bind {ε α β : Type} (a : α) (f : α → Except ε β) :
    (Except.ok a >>= f) = f a := rfl

@[simp] theorem error_bind {ε α β : Type} (e : ε) (f : α → Except ε β) :
    ((Except.error e : Except ε α) >>= f) = .error e := rfl

namespace Action

variable {σ τ α β : Type}

/-- Two actions in a row: the second one starts where the first one ended, unless that failed. -/
@[simp] theorem run_bind (x : Action σ α) (f : α → Action σ β) (s : σ) :
    (x >>= f) s = match x s with
      | .ok a t => f a t
      | .error e t => .error e t := by
  cases h : x s <;> simp [bind, EStateM.bind, h]

/-- A function that is applied to the answer of an action does not touch the state. -/
@[simp] theorem run_map (f : α → β) (x : Action σ α) (s : σ) :
    (f <$> x) s = match x s with
      | .ok a t => .ok (f a) t
      | .error e t => .error e t := by
  cases h : x s <;> simp [Functor.map, EStateM.map, h]

@[simp] theorem run_pure (a : α) (s : σ) : (pure a : Action σ α) s = .ok a s := rfl

@[simp] theorem run_get (s : σ) : (get : Action σ σ) s = .ok s s := rfl

@[simp] theorem run_set (s t : σ) : (set t : Action σ PUnit) s = .ok .unit t := rfl

@[simp] theorem run_modify (f : σ → σ) (s : σ) :
    (modify f : Action σ PUnit) s = .ok .unit (f s) := rfl

@[simp] theorem run_throw (e : Fault) (s : σ) : (throw e : Action σ α) s = .error e s := rfl

@[simp] theorem run_read (f : σ → Except Fault α) (s : σ) :
    read f s = match f s with
      | .ok a => .ok a s
      | .error e => .error e s := rfl

@[simp] theorem run_check (x : Except Fault α) (s : σ) :
    (check x : Action σ α) s = match x with
      | .ok a => .ok a s
      | .error e => .error e s := rfl

/-- A demand passes with the state as it is, or fails with it. -/
@[simp] theorem run_demand (condition : Prop) [Decidable condition] (fault : Fault) (s : σ) :
    (demand condition fault : Action σ Unit) s =
      if condition then .ok () s else .error fault s := by
  by_cases h : condition <;> simp [demand, h]

@[simp] theorem run_within (get : σ → τ) (set : σ → τ → σ) (x : Action τ α) (s : σ) :
    within get set x s = match x (get s) with
      | .ok a t => .ok a (set s t)
      | .error e t => .error e (set s t) := rfl

@[simp] theorem run_forM_none (f : α → Action σ PUnit) (s : σ) :
    (forM (none : Option α) f : Action σ PUnit) s = .ok .unit s := rfl

@[simp] theorem run_forM_some (a : α) (f : α → Action σ PUnit) (s : σ) :
    (forM (some a) f : Action σ PUnit) s = f a s := rfl

/-! ### The state after an action -/

/-- The state after an action, also if it failed. -/
def after (x : Action σ α) (s : σ) : σ := (x.outcome s).2

/-- The state after an action that succeeds. -/
theorem after_of_ok {x : Action σ α} {s t : σ} {a : α} (h : x s = .ok a t) : x.after s = t := by
  simp [after, outcome, h]

/-- The state after an action that fails. -/
theorem after_of_error {x : Action σ α} {s t : σ} {e : Fault} (h : x s = .error e t) :
    x.after s = t := by
  simp [after, outcome, h]

/-- Another answer makes no difference to what is left behind. -/
theorem outcome_map (f : α → β) (x : Action σ α) (s : σ) :
    (f <$> x).outcome s = ((x.outcome s).1.map f, (x.outcome s).2) := by
  unfold outcome
  rw [run_map]
  cases x s <;> rfl

/-- A function that is applied to the answer does not change which faults there are. -/
theorem outcome_map_eq_error_iff {f : α → β} {x : Action σ α} {s : σ} {e : Fault} :
    ((f <$> x).outcome s).1 = .error e ↔ (x.outcome s).1 = .error e := by
  rw [outcome_map]
  cases (x.outcome s).1 <;> simp [Except.map]

/-- A function that is applied to the answer does not change the state left behind. -/
theorem after_map (f : α → β) (x : Action σ α) (s : σ) : (f <$> x).after s = x.after s :=
  congrArg Prod.snd (outcome_map f x s)

/-- An action whose answer is thrown away leaves the same state behind. -/
theorem after_discard (x : Action σ α) (s : σ) :
    (do let _ ← x : Action σ Unit).after s = x.after s := by
  unfold after outcome
  rw [run_bind]
  cases x s <;> rfl

/-! ### What actions keep -/

/-- Whatever the state, the one after an action is related to it. -/
def Keeps (R : σ → σ → Prop) (x : Action σ α) : Prop := ∀ s, R s (x.after s)

/-- A relation that actions one after the other keep if each of them does. -/
structure Kept (R : σ → σ → Prop) : Prop where
  /-- To leave the state alone is to keep it. -/
  refl : ∀ s, R s s
  /-- What is kept twice is kept. -/
  trans : ∀ {s t u}, R s t → R t u → R s u

section

variable {R : σ → σ → Prop} {x : Action σ α}

/-- An answer without an action keeps every relation that is kept. -/
theorem Kept.pure (hR : Kept R) (a : α) : (Pure.pure a : Action σ α).Keeps R := hR.refl

/-- Reading the state keeps every relation that is kept, whether or not it succeeds. -/
theorem Kept.read (hR : Kept R) (f : σ → Except Fault α) : (Action.read f).Keeps R := by
  intro s
  have hafter : (Action.read f).after s = s := by
    simp only [after, outcome, run_read]
    cases f s <;> rfl
  rw [hafter]
  exact hR.refl s

/-- A computation that does not look at the state keeps every relation that is kept. -/
theorem Kept.check (hR : Kept R) (y : Except Fault α) : (Action.check y : Action σ α).Keeps R :=
  hR.read _

/-- A demand keeps every relation that is kept. -/
theorem Kept.demand (hR : Kept R) (condition : Prop) [Decidable condition] (fault : Fault) :
    (Action.demand condition fault : Action σ Unit).Keeps R := by
  intro s
  have hafter : (Action.demand condition fault : Action σ Unit).after s = s := by
    by_cases h : condition <;> simp [after, outcome, h]
  rw [hafter]
  exact hR.refl s

/-- Actions in a row keep a relation that each of them keeps. -/
theorem Kept.bind (hR : Kept R) {f : α → Action σ β} (hx : x.Keeps R) (hf : ∀ a, (f a).Keeps R) :
    (x >>= f).Keeps R := by
  intro s
  have hs := hx s
  simp only [after, outcome, run_bind] at hs ⊢
  cases hrun : x s with
  | ok a t =>
      rw [hrun] at hs
      exact hR.trans hs (hf a t)
  | error e t =>
      rw [hrun] at hs
      exact hs

/-- An action on a value that may be missing keeps what it keeps on every value. -/
theorem Kept.forM (hR : Kept R) {f : α → Action σ PUnit} (hf : ∀ a, (f a).Keeps R)
    (o : Option α) : (o.forM f).Keeps R := by
  cases o with
  | none => exact hR.pure _
  | some a => exact hf a

/-- A change of the state keeps a relation that holds between each state and the changed one. -/
theorem Keeps.modify {f : σ → σ} (h : ∀ s, R s (f s)) : (modify f : Action σ PUnit).Keeps R := h

/-- An action on a part of the state. -/
theorem Keeps.within {T : τ → τ → Prop} {get : σ → τ} {set : σ → τ → σ} {y : Action τ α}
    (hy : y.Keeps T) (hset : ∀ s t, T (get s) t → R s (set s t)) :
    (within get set y).Keeps R := by
  intro s
  have hs := hset s _ (hy (get s))
  simp only [after, outcome, run_within] at hs ⊢
  cases hrun : y (get s) with
  | ok a t =>
      rw [hrun] at hs
      exact hs
  | error e t =>
      rw [hrun] at hs
      exact hs

end

end Action

end SlabGraph
