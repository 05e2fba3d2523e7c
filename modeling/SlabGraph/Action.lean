import SlabGraph.Fault

/-!
# Actions

An operation that changes a state of type `σ` is an `Action σ α`: it answers a value and a
new state, or a fault and the state it left behind. The state after a fault is part of the
result on purpose. A caller may go on after a failed operation, so what the operation had
done before it failed must be visible, and that most operations have done nothing by then
is a theorem rather than a matter of types.

An operation that only reads is a function into `Except Fault α`, and `Action.read` runs
it inside an action.

## Main definitions

* `Action`, `Action.read`, `Action.check`, `Action.demand`;
* `Action.within`, an action on a part of a larger state.
-/

namespace SlabGraph

/-- An operation that changes a state and may fail. -/
abbrev Action (σ α : Type) := EStateM Fault σ α

namespace Action

variable {σ τ α β : Type}

/-- Answers what is read from the state, and leaves the state alone. -/
def read (f : σ → Except Fault α) : Action σ α := fun s =>
  match f s with
  | .ok a => .ok a s
  | .error e => .error e s

/-- Goes on with the value of a computation that does not look at the state. -/
def check (x : Except Fault α) : Action σ α := read fun _ => x

/-- Fails unless a condition holds. -/
def demand (condition : Prop) [Decidable condition] (fault : Fault) : Action σ Unit :=
  if condition then pure () else throw fault

/-- Runs an action on the part of the state that `get` finds and `set` replaces. -/
def within (get : σ → τ) (set : σ → τ → σ) (x : Action τ α) : Action σ α := fun s =>
  match x (get s) with
  | .ok a t => .ok a (set s t)
  | .error e t => .error e (set s t)

/-- The outcome of an action and the state after it. -/
def outcome (x : Action σ α) (s : σ) : Except Fault α × σ :=
  match x s with
  | .ok a t => (.ok a, t)
  | .error e t => (.error e, t)

end Action

end SlabGraph
