/-
Runs that emit: one level of a design driving another.

Each step of a run may emit outputs, and the outputs, in order, are the inputs
of a second run.  What one step of the first keeps with the steps it drives,
the whole runs keep.  A run that takes items in and gives items out, and holds
those in between, is a queue if each of its steps is, and its account balances
if the account of each step does.
-/

import Waler.Foundation.Run

namespace Run

universe u v w x

variable {State : Type u} {Input : Type v} {Output : Type w}
  {Abstract : Type x}

/-- What the steps of a run emit, in order. -/
def emitted (step : State → Input → State)
    (emit : State → Input → List Output) :
    State → List Input → List Output
  | _, [] => []
  | state, input :: rest =>
      emit state input ++ emitted step emit (step state input) rest

variable {step : State → Input → State} {emit : State → Input → List Output}
  {abstractStep : Abstract → Output → Abstract}
  {guard : State → Input → Prop}

@[simp] theorem emitted_nil (start : State) :
    emitted step emit start [] = [] :=
  rfl

@[simp] theorem emitted_cons (start : State) (input : Input)
    (rest : List Input) :
    emitted step emit start (input :: rest) =
      emit start input ++ emitted step emit (step start input) rest :=
  rfl

theorem emitted_singleton (output : Input → Output) (start : State)
    (inputs : List Input) :
    emitted step (fun _ input => [output input]) start inputs =
      inputs.map output := by
  induction inputs generalizing start with
  | nil => rfl
  | cons input rest ih =>
      rw [emitted_cons, ih, List.map_cons]
      rfl

/-- Steps that keep two levels related keep whole runs related, as long as the
steps meet the guard. -/
theorem final_simulates_of_along (related : State → Abstract → Prop)
    (simulated : ∀ state abstract input, guard state input →
      related state abstract →
        related (step state input)
          (final abstractStep abstract (emit state input)))
    (start : State) (abstract : Abstract) (inputs : List Input)
    (initially : related start abstract)
    (along : Along step guard start inputs) :
    related (final step start inputs)
      (final abstractStep abstract (emitted step emit start inputs)) := by
  induction inputs generalizing start abstract with
  | nil => exact initially
  | cons input rest ih =>
      rw [emitted_cons, final_append]
      exact ih (step start input) _
        (simulated start abstract input along.1 initially) along.2

theorem final_simulates (related : State → Abstract → Prop)
    (simulated : ∀ state abstract input, related state abstract →
      related (step state input)
        (final abstractStep abstract (emit state input)))
    (start : State) (abstract : Abstract) (inputs : List Input)
    (initially : related start abstract) :
    related (final step start inputs)
      (final abstractStep abstract (emitted step emit start inputs)) :=
  final_simulates_of_along related
    (fun state abstract input _ => simulated state abstract input)
    start abstract inputs initially
    (along_of_forall start inputs (fun _ _ _ => trivial))

/-! ### Queues -/

variable {Item : Type w}

/-- If every step gives out from the front of the content and takes in at its
end, then what a run has given out and still holds is what it held and has
taken in. -/
theorem emitted_conserved {taken given : State → Input → List Item}
    (content : State → List Item) (invariant : State → Prop)
    (preserved : ∀ state input, guard state input → invariant state →
      invariant (step state input))
    (conserved : ∀ state input, guard state input → invariant state →
      given state input ++ content (step state input) =
        content state ++ taken state input)
    (start : State) (inputs : List Input) (initially : invariant start)
    (along : Along step guard start inputs) :
    emitted step given start inputs ++ content (final step start inputs) =
      content start ++ emitted step taken start inputs := by
  induction inputs generalizing start with
  | nil => exact (List.append_nil _).symm
  | cons input rest ih =>
      have later := ih (step start input)
        (preserved start input along.1 initially) along.2
      rw [emitted_cons, emitted_cons, final_cons, List.append_assoc, later,
        ← List.append_assoc, conserved start input along.1 initially,
        List.append_assoc]

/-! ### Accounts -/

/-- An amount that depends on the step, added up over a run. -/
def tally (step : State → Input → State) (amount : State → Input → ℕ) :
    State → List Input → ℕ
  | _, [] => 0
  | state, input :: rest =>
      amount state input + tally step amount (step state input) rest

theorem tally_add (first second : State → Input → ℕ) (start : State)
    (inputs : List Input) :
    tally step (fun state input => first state input + second state input)
        start inputs =
      tally step first start inputs + tally step second start inputs := by
  induction inputs generalizing start with
  | nil => rfl
  | cons input rest ih =>
      change _ + _ + tally step _ (step start input) rest =
        _ + tally step first (step start input) rest +
          (_ + tally step second (step start input) rest)
      rw [ih]
      exact Nat.add_add_add_comm _ _ _ _

/-- If every step accounts for what it takes in, what it gives out and what
is left, so does every run. -/
theorem tally_balanced {gained lost : State → Input → ℕ}
    (content : State → ℕ)
    (balanced : ∀ state input,
      content (step state input) + lost state input =
        content state + gained state input)
    (start : State) (inputs : List Input) :
    content (final step start inputs) + tally step lost start inputs =
      content start + tally step gained start inputs := by
  induction inputs generalizing start with
  | nil => rfl
  | cons input rest ih =>
      have now := balanced start input
      have later := ih (step start input)
      change content (final step (step start input) rest) +
          (lost start input + tally step lost (step start input) rest) =
        content start +
          (gained start input + tally step gained (step start input) rest)
      omega

end Run
