/-
Runs whose inputs carry a key and act on the entry of that key alone.

Two interleavings of the same per-key input sequences cannot be told apart
through such a view: neither by the entries they end in, nor by the replies
each input gets on the way.
-/

import Waler.Foundation.Run

namespace Run

universe u v w x y

variable {State : Type u} {Input : Type v} {κ : Type w} {α : Type x}
  {β : Type y}

/-- Every input with what it is answered in the state it is applied to. -/
def replies (step : State → Input → State) (reply : State → Input → β) :
    State → List Input → List (Input × β)
  | _, [] => []
  | state, input :: rest =>
      (input, reply state input) :: replies step reply (step state input) rest

theorem replies_cons (step : State → Input → State)
    (reply : State → Input → β) (state : State) (input : Input)
    (rest : List Input) :
    replies step reply state (input :: rest) =
      (input, reply state input) ::
        replies step reply (step state input) rest :=
  rfl

/-- Seen through the view, an input acts on the entry of its own key only, and
what it does there depends on that entry only. -/
structure Keyed (step : State → Input → State) (keyOf : Input → κ)
    (view : State → κ → α) (act : α → Input → α) : Prop where
  own : ∀ state input,
    view (step state input) (keyOf input) = act (view state (keyOf input)) input
  other : ∀ state input key, key ≠ keyOf input →
    view (step state input) key = view state key

variable [DecidableEq κ]

def ofKey (keyOf : Input → κ) (key : κ) (inputs : List Input) : List Input :=
  inputs.filter (fun input => keyOf input = key)

theorem ofKey_cons_own {keyOf : Input → κ} {key : κ} (input : Input)
    (own : keyOf input = key) (rest : List Input) :
    ofKey keyOf key (input :: rest) = input :: ofKey keyOf key rest :=
  List.filter_cons_of_pos (by simpa using own)

theorem ofKey_cons_other {keyOf : Input → κ} {key : κ} (input : Input)
    (other : keyOf input ≠ key) (rest : List Input) :
    ofKey keyOf key (input :: rest) = ofKey keyOf key rest :=
  List.filter_cons_of_neg (by simpa using other)

def SameSubsequences (keyOf : Input → κ) (first second : List Input) : Prop :=
  ∀ key, ofKey keyOf key first = ofKey keyOf key second

theorem SameSubsequences.mem_iff {keyOf : Input → κ}
    {first second : List Input} (same : SameSubsequences keyOf first second)
    (input : Input) : input ∈ first ↔ input ∈ second := by
  have members : ∀ inputs : List Input,
      input ∈ ofKey keyOf (keyOf input) inputs ↔ input ∈ inputs := by
    intro inputs
    unfold ofKey
    rw [List.mem_filter, decide_eq_true rfl]
    exact and_iff_left rfl
  rw [← members first, ← members second, same (keyOf input)]

theorem SameSubsequences.swap {keyOf : Input → κ} {left right : Input}
    (different : keyOf left ≠ keyOf right) (rest : List Input) :
    SameSubsequences keyOf (left :: right :: rest) (right :: left :: rest) := by
  intro key
  by_cases own : keyOf left = key
  · have other : keyOf right ≠ key := fun same =>
      different (own.trans same.symm)
    rw [ofKey_cons_own left own, ofKey_cons_other right other,
      ofKey_cons_other right other, ofKey_cons_own left own]
  · rw [ofKey_cons_other left own]
    by_cases same : keyOf right = key
    · rw [ofKey_cons_own right same, ofKey_cons_own right same,
        ofKey_cons_other left own]
    · rw [ofKey_cons_other right same, ofKey_cons_other right same,
        ofKey_cons_other left own]

variable {step : State → Input → State} {keyOf : Input → κ}
  {view : State → κ → α} {act : α → Input → α}

theorem Keyed.view_step (keyed : Keyed step keyOf view act) (state : State)
    (input : Input) (key : κ) :
    view (step state input) key =
      if keyOf input = key then act (view state key) input
      else view state key := by
  by_cases own : keyOf input = key
  · subst own
    rw [if_pos rfl]
    exact keyed.own state input
  · rw [if_neg own]
    exact keyed.other state input key (fun same => own same.symm)

/-- The entry of a key at the end of a run is what the inputs of that key make
of it, in their order. -/
theorem Keyed.final_view (keyed : Keyed step keyOf view act) (start : State)
    (inputs : List Input) (key : κ) :
    view (final step start inputs) key =
      final act (view start key) (ofKey keyOf key inputs) := by
  induction inputs generalizing start with
  | nil => rfl
  | cons input rest ih =>
      rw [final_cons, ih, keyed.view_step]
      by_cases own : keyOf input = key
      · rw [if_pos own, ofKey_cons_own input own, final_cons]
      · rw [if_neg own, ofKey_cons_other input own]

theorem Keyed.replies_ofKey (keyed : Keyed step keyOf view act)
    {reply : State → Input → β} {answer : α → Input → β}
    (answered : ∀ state input,
      reply state input = answer (view state (keyOf input)) input)
    (start : State) (inputs : List Input) (key : κ) :
    ofKey (fun replied => keyOf replied.1) key
        (replies step reply start inputs) =
      replies act answer (view start key) (ofKey keyOf key inputs) := by
  induction inputs generalizing start with
  | nil => rfl
  | cons input rest ih =>
      have later := ih (step start input)
      rw [keyed.view_step] at later
      by_cases own : keyOf input = key
      · rw [if_pos own] at later
        rw [ofKey_cons_own input own, replies_cons, replies_cons,
          ofKey_cons_own (input, reply start input) own, later, answered, own]
      · rw [if_neg own] at later
        rw [ofKey_cons_other input own, replies_cons,
          ofKey_cons_other (input, reply start input) own, later]

theorem Keyed.final_view_congr (keyed : Keyed step keyOf view act)
    (start : State) {first second : List Input}
    (same : SameSubsequences keyOf first second) (key : κ) :
    view (final step start first) key = view (final step start second) key := by
  rw [keyed.final_view, keyed.final_view, same key]

theorem Keyed.replies_congr (keyed : Keyed step keyOf view act)
    {reply : State → Input → β} {answer : α → Input → β}
    (answered : ∀ state input,
      reply state input = answer (view state (keyOf input)) input)
    (start : State) {first second : List Input}
    (same : SameSubsequences keyOf first second) :
    SameSubsequences (fun replied => keyOf replied.1)
      (replies step reply start first) (replies step reply start second) := by
  intro key
  rw [keyed.replies_ofKey answered, keyed.replies_ofKey answered, same key]

end Run
