/-
One's-complement sums of 16-bit words.

Addition with an end-around carry is addition modulo 65535 with two
representations of zero: a sum of words is 0 only when all of them are, and
otherwise stands for zero as 65535.
-/

import Mathlib.Algebra.BigOperators.Group.List.Basic
import Waler.Foundation.PackedLayout

namespace OnesComplement

/-- The sum of two words, its carry added back in. -/
def add (left right : ℕ) : ℕ :=
  if left + right < 65536 then left + right else left + right - 65535

def sum (words : List ℕ) : ℕ :=
  words.foldr add 0

/-- The big-endian words of a byte sequence, an odd last byte being the high
byte of its word. -/
def words : List UInt8 → List ℕ
  | [] => []
  | [last] => [256 * last.toNat]
  | high :: low :: rest => (256 * high.toNat + low.toNat) :: words rest

theorem add_cases (left right : ℕ) :
    (left + right < 65536 ∧ add left right = left + right) ∨
      (65536 ≤ left + right ∧ add left right + 65535 = left + right) := by
  unfold add
  split
  · exact Or.inl ⟨by assumption, rfl⟩
  · exact Or.inr ⟨by omega, by omega⟩

theorem sum_mod (items : List ℕ) : sum items % 65535 = items.sum % 65535 := by
  induction items with
  | nil => rfl
  | cons item rest ih =>
      have added := add_cases item (sum rest)
      change add item (sum rest) % 65535 = _
      rw [List.sum_cons]
      omega

theorem sum_lt {items : List ℕ} (bounded : ∀ item ∈ items, item < 65536) :
    sum items < 65536 := by
  induction items with
  | nil => exact Nat.succ_pos 65535
  | cons item rest ih =>
      have first := bounded item List.mem_cons_self
      have later := ih (fun other member =>
        bounded other (List.mem_cons_of_mem item member))
      have added := add_cases item (sum rest)
      change add item (sum rest) < 65536
      omega

theorem sum_eq_zero_iff (items : List ℕ) : sum items = 0 ↔ items.sum = 0 := by
  induction items with
  | nil => exact Iff.rfl
  | cons item rest ih =>
      have added := add_cases item (sum rest)
      change add item (sum rest) = 0 ↔ _
      rw [List.sum_cons]
      omega

/-- Words sum to all ones exactly when they sum to a multiple of 65535 and are
not all zero. -/
theorem sum_eq_allOnes_iff {items : List ℕ}
    (bounded : ∀ item ∈ items, item < 65536) :
    sum items = 65535 ↔ items.sum ≠ 0 ∧ items.sum % 65535 = 0 := by
  have modEq := sum_mod items
  have below := sum_lt bounded
  have zero := sum_eq_zero_iff items
  omega

/-! ### Words of byte sequences -/

theorem words_lt (bytes : List UInt8) : ∀ item ∈ words bytes, item < 65536 := by
  induction bytes using words.induct with
  | case1 =>
      intro item member
      cases member
  | case2 last =>
      intro item member
      have lastLt := last.toNat_lt
      rw [List.mem_singleton.mp member]
      omega
  | case3 high low rest ih =>
      intro item member
      have highLt := high.toNat_lt
      have lowLt := low.toNat_lt
      rcases List.mem_cons.mp member with rfl | later
      · omega
      · exact ih item later

theorem words_sum_le (bytes : List UInt8) :
    (words bytes).sum ≤ 65535 * ((bytes.length + 1) / 2) := by
  induction bytes using words.induct with
  | case1 => exact Nat.zero_le _
  | case2 last =>
      have lastLt := last.toNat_lt
      unfold words
      rw [List.sum_singleton, List.length_singleton]
      omega
  | case3 high low rest ih =>
      have highLt := high.toNat_lt
      have lowLt := low.toNat_lt
      unfold words
      rw [List.sum_cons, List.length_cons, List.length_cons]
      omega

theorem words_sum_eq_zero_iff (bytes : List UInt8) :
    (words bytes).sum = 0 ↔ ∀ byte ∈ bytes, byte = 0 := by
  have isZero : ∀ byte : UInt8, byte = 0 ↔ byte.toNat = 0 :=
    fun byte => UInt8.toNat_inj.symm
  induction bytes using words.induct with
  | case1 =>
      constructor
      · intro _ byte impossible
        cases impossible
      · exact fun _ => rfl
  | case2 last =>
      unfold words
      rw [List.sum_singleton, List.forall_mem_singleton, isZero]
      omega
  | case3 high low rest ih =>
      unfold words
      rw [List.sum_cons, List.forall_mem_cons, List.forall_mem_cons, isZero,
        isZero]
      constructor
      · intro none
        exact ⟨by omega, by omega, ih.mp (by omega)⟩
      · rintro ⟨highZero, lowZero, restZero⟩
        have later := ih.mpr restZero
        omega

/-- Words do not straddle a boundary that stands at an even offset. -/
theorem words_append {front : List UInt8} (even : front.length % 2 = 0)
    (back : List UInt8) :
    words (front ++ back) = words front ++ words back := by
  induction front using words.induct with
  | case1 => rfl
  | case2 last => cases even
  | case3 high low rest ih =>
      have evenRest : rest.length % 2 = 0 := by
        rw [List.length_cons, List.length_cons] at even
        omega
      exact congrArg (List.cons _) (ih evenRest)

theorem words_pair {bytes : List UInt8} (pair : bytes.length = 2) :
    words bytes = [bigEndianValue bytes] := by
  obtain ⟨high, low, rfl⟩ := List.length_eq_two.mp pair
  have value : bigEndianValue [high, low] = 256 * high.toNat + low.toNat := by
    change low.toNat + 256 * (high.toNat + 256 * 0) = _
    omega
  rw [value]
  rfl

end OnesComplement
