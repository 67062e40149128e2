/-
Runs of a deterministic step function over a list of inputs.

Everything nondeterministic about a component (random draws, device replies,
the order in which two parties act) is carried by the inputs, so that one run
is one list.  The rules below turn facts about one step into facts about every
state a run visits.
-/

import Mathlib.Data.List.Basic

namespace Run

universe u v

variable {State : Type u} {Input : Type v}

def final (step : State → Input → State) (start : State)
    (inputs : List Input) : State :=
  inputs.foldl step start

/-- Every step of the run is taken from a state and with an input that meet
the guard. -/
def Along (step : State → Input → State) (guard : State → Input → Prop) :
    State → List Input → Prop
  | _, [] => True
  | state, input :: rest =>
      guard state input ∧ Along step guard (step state input) rest

/-- Every state of the run, the first and the last included, satisfies the
property. -/
def Throughout (step : State → Input → State) (holds : State → Prop) :
    State → List Input → Prop
  | state, [] => holds state
  | state, input :: rest =>
      holds state ∧ Throughout step holds (step state input) rest

variable {step : State → Input → State} {guard : State → Input → Prop}
  {holds : State → Prop}

@[simp] theorem final_nil (start : State) : final step start [] = start :=
  rfl

@[simp] theorem final_cons (start : State) (input : Input)
    (rest : List Input) :
    final step start (input :: rest) = final step (step start input) rest :=
  rfl

theorem final_append (start : State) (before after : List Input) :
    final step start (before ++ after) =
      final step (final step start before) after :=
  List.foldl_append

instance decidableAlong [∀ state input, Decidable (guard state input)] :
    (start : State) → (inputs : List Input) →
      Decidable (Along step guard start inputs)
  | _, [] => isTrue trivial
  | start, input :: rest =>
      have := decidableAlong (step start input) rest
      inferInstanceAs (Decidable (_ ∧ _))

theorem along_of_forall (start : State) (inputs : List Input)
    (all : ∀ input ∈ inputs, ∀ state, guard state input) :
    Along step guard start inputs := by
  induction inputs generalizing start with
  | nil => trivial
  | cons input rest ih =>
      exact ⟨all input List.mem_cons_self start,
        ih (step start input) (fun other member =>
          all other (List.mem_cons_of_mem input member))⟩

/-- A guard along a run, read as a statement about every step of it. -/
theorem along_iff_forall (start : State) (inputs : List Input) :
    Along step guard start inputs ↔
      ∀ before input after, inputs = before ++ input :: after →
        guard (final step start before) input := by
  induction inputs generalizing start with
  | nil =>
      constructor
      · intro _ before input after split
        exact absurd split.symm (List.append_ne_nil_of_right_ne_nil before
          (List.cons_ne_nil input after))
      · intro _
        trivial
  | cons first rest ih =>
      constructor
      · rintro ⟨now, later⟩ before input after split
        cases before with
        | nil =>
            cases split
            exact now
        | cons head before =>
            cases split
            exact (ih (step start first)).mp later before input after rfl
      · intro all
        refine ⟨all [] first rest rfl, (ih (step start first)).mpr ?_⟩
        intro before input after split
        exact all (first :: before) input after (congrArg (first :: ·) split)

theorem along_append (start : State) (before after : List Input) :
    Along step guard start (before ++ after) ↔
      Along step guard start before ∧
        Along step guard (final step start before) after := by
  induction before generalizing start with
  | nil => simp [Along]
  | cons input rest ih => simp [Along, ih, and_assoc]

theorem along_congr {other : State → Input → Prop} (start : State)
    (inputs : List Input)
    (same : ∀ before input after, inputs = before ++ input :: after →
      (guard (final step start before) input ↔
        other (final step start before) input)) :
    Along step guard start inputs ↔ Along step other start inputs := by
  rw [along_iff_forall, along_iff_forall]
  constructor
  · intro all before input after split
    exact (same before input after split).mp (all before input after split)
  · intro all before input after split
    exact (same before input after split).mpr (all before input after split)

/-! ### Invariants -/

theorem final_invariant (invariant : State → Prop)
    (preserved : ∀ state input, invariant state → invariant (step state input))
    (start : State) (inputs : List Input) (initially : invariant start) :
    invariant (final step start inputs) := by
  induction inputs generalizing start with
  | nil => exact initially
  | cons input rest ih =>
      exact ih (step start input) (preserved start input initially)

theorem final_invariant_of_along (invariant : State → Prop)
    (preserved : ∀ state input, guard state input → invariant state →
      invariant (step state input))
    (start : State) (inputs : List Input) (initially : invariant start)
    (along : Along step guard start inputs) :
    invariant (final step start inputs) := by
  induction inputs generalizing start with
  | nil => exact initially
  | cons input rest ih =>
      rcases along with ⟨first, later⟩
      exact ih (step start input) (preserved start input first initially) later

theorem Throughout.start {start : State} {inputs : List Input}
    (throughout : Throughout step holds start inputs) : holds start := by
  cases inputs with
  | nil => exact throughout
  | cons input rest => exact throughout.1

theorem throughout_of_along (invariant : State → Prop)
    (preserved : ∀ state input, guard state input → invariant state →
      invariant (step state input))
    (sound : ∀ state, invariant state → holds state)
    (start : State) (inputs : List Input) (initially : invariant start)
    (along : Along step guard start inputs) :
    Throughout step holds start inputs := by
  induction inputs generalizing start with
  | nil => exact sound start initially
  | cons input rest ih =>
      rcases along with ⟨first, later⟩
      exact ⟨sound start initially,
        ih (step start input) (preserved start input first initially) later⟩

/-- A property that gives the guard for whatever comes next. -/
theorem along_of_throughout
    (implied : ∀ state input, holds state → guard state input)
    (start : State) (inputs : List Input)
    (throughout : Throughout step holds start inputs) :
    Along step guard start inputs := by
  induction inputs generalizing start with
  | nil => trivial
  | cons input rest ih =>
      exact ⟨implied start input throughout.1,
        ih (step start input) throughout.2⟩

/-! ### Exact guards -/

/-- From the states of an invariant, the steps that meet the guard keep the
invariant and with it the property; no other step keeps the property. -/
structure Exact (step : State → Input → State)
    (guard : State → Input → Prop) (holds : State → Prop)
    (invariant : State → Prop) : Prop where
  preserved : ∀ state input, guard state input → invariant state →
    invariant (step state input)
  sound : ∀ state, invariant state → holds state
  exposed : ∀ state input, invariant state → holds (step state input) →
    guard state input

/-- A property has an exact guard: it holds throughout a run exactly when the
run meets the guard at every step. -/
theorem Exact.throughout_iff {invariant : State → Prop}
    (exact : Exact step guard holds invariant) (start : State)
    (inputs : List Input) (initially : invariant start) :
    Throughout step holds start inputs ↔
      Along step guard start inputs := by
  constructor
  · intro throughout
    induction inputs generalizing start with
    | nil => trivial
    | cons input rest ih =>
        have next := throughout.2
        have first := exact.exposed start input initially next.start
        exact ⟨first,
          ih (step start input) (exact.preserved start input first initially)
            next⟩
  · exact throughout_of_along invariant exact.preserved exact.sound start
      inputs initially

end Run
