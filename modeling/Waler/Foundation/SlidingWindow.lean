/-
A sliding window: a list that takes one item at a time and drops its oldest
once it is full, and the values of neighbouring items of a stream.

A window that starts empty holds the last items pushed.  The neighbouring
values in the window are those of the last items of the stream, one more item
than values.
-/

import Mathlib.Data.List.DropRight

universe u v

namespace SlidingWindow

variable {α : Type u} {β : Type v}

/-- The oldest item gives way once there are `capacity` of them. -/
def push (capacity : ℕ) (kept : List α) (item : α) : List α :=
  (if kept.length ≥ capacity then kept.drop 1 else kept) ++ [item]

theorem push_rtake {capacity : ℕ} (positive : 0 < capacity) (items : List α)
    (item : α) :
    push capacity (items.rtake capacity) item =
      (items ++ [item]).rtake capacity := by
  obtain ⟨room, rfl⟩ := Nat.exists_eq_add_of_le' positive
  rw [List.rtake_concat_succ]
  unfold push List.rtake
  rw [List.length_drop]
  by_cases full : room + 1 ≤ items.length
  · rw [if_pos (by omega), List.drop_drop,
      show items.length - (room + 1) + 1 = items.length - room by omega]
  · rw [if_neg (by omega), show items.length - (room + 1) = 0 by omega,
      show items.length - room = 0 by omega]

theorem rtake_min_length (items : List α) (count : ℕ) :
    items.rtake (min items.length count) = items.rtake count := by
  unfold List.rtake
  rw [show items.length - min items.length count = items.length - count by
    omega]

/-- The value of each item with the next. -/
def consecutive (value : α → α → β) : List α → List β
  | first :: second :: rest =>
      value first second :: consecutive value (second :: rest)
  | _ => []

variable {value : α → α → β}

theorem consecutive_length (items : List α) :
    (consecutive value items).length = items.length - 1 := by
  induction items with
  | nil => rfl
  | cons first rest ih =>
      cases rest with
      | nil => rfl
      | cons second rest =>
          change (consecutive value (second :: rest)).length + 1 = _
          rw [ih]
          rfl

theorem consecutive_map {γ : Type v} (f : β → γ) (items : List α) :
    (consecutive value items).map f =
      consecutive (fun first second => f (value first second)) items := by
  induction items with
  | nil => rfl
  | cons first rest ih =>
      cases rest with
      | nil => rfl
      | cons second rest => exact congrArg (f (value first second) :: ·) ih

theorem mem_consecutive {items : List α} {result : β}
    (listed : result ∈ consecutive value items) :
    ∃ first ∈ items, ∃ second ∈ items, result = value first second := by
  induction items with
  | nil => cases listed
  | cons first rest ih =>
      cases rest with
      | nil => cases listed
      | cons second rest =>
          rcases List.mem_cons.mp listed with here | later
          · exact ⟨first, List.mem_cons_self, second,
              List.mem_cons_of_mem first List.mem_cons_self, here⟩
          · obtain ⟨one, oneIn, other, otherIn, same⟩ := ih later
            exact ⟨one, List.mem_cons_of_mem first oneIn, other,
              List.mem_cons_of_mem first otherIn, same⟩

theorem consecutive_concat (items : List α) (last next : α) :
    consecutive value (items ++ [last] ++ [next]) =
      consecutive value (items ++ [last]) ++ [value last next] := by
  induction items with
  | nil => rfl
  | cons first rest ih =>
      cases rest with
      | nil => rfl
      | cons second rest => exact congrArg (value first second :: ·) ih

theorem consecutive_drop (items : List α) (count : ℕ) :
    consecutive value (items.drop count) =
      (consecutive value items).drop count := by
  induction count generalizing items with
  | zero => rfl
  | succ count ih =>
      cases items with
      | nil => rfl
      | cons first rest =>
          rw [List.drop_succ_cons, ih]
          cases rest with
          | nil =>
              change ([] : List β).drop count = [].drop (count + 1)
              rw [List.drop_nil, List.drop_nil]
          | cons second rest => rfl

theorem consecutive_rtake (items : List α) (count : ℕ) :
    consecutive value (items.rtake (count + 1)) =
      (consecutive value items).rtake count := by
  unfold List.rtake
  rw [consecutive_drop, consecutive_length,
    show items.length - (count + 1) = items.length - 1 - count by omega]

end SlidingWindow
