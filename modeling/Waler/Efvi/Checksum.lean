/-
The IPv4 header checksum against one's-complement sums.

The accumulator adds the words exactly while they fit 32 bits, folding the
carries keeps a sum modulo 65535 and tells zero from its other
representation, and the complement of the folded sum is what is missing to a
multiple of 65535.
-/

import Waler.Efvi.EfviUdpSender
import Waler.Foundation.OnesComplement

namespace Waler

open OnesComplement (words)

theorem bigEndianWord_toNat (high low : UInt8) :
    (high.toUInt32 <<< 8 ||| low.toUInt32).toNat =
      256 * high.toNat + low.toNat := by
  have highLt := high.toNat_lt
  have lowLt := low.toNat_lt
  have shifted : (high.toUInt32 <<< 8).toNat = high.toNat <<< 8 := by
    rw [UInt32.toNat_shiftLeft, UInt8.toNat_toUInt32]
    change high.toNat <<< 8 % 2 ^ 32 = _
    rw [Nat.shiftLeft_eq]
    omega
  rw [UInt32.toNat_or, shifted, UInt8.toNat_toUInt32,
    ← Nat.shiftLeft_add_eq_or_of_lt (by omega), Nat.shiftLeft_eq]
  omega

theorem highByte_toNat (last : UInt8) :
    (last.toUInt32 <<< 8).toNat = 256 * last.toNat := by
  have lastLt := last.toNat_lt
  rw [UInt32.toNat_shiftLeft, UInt8.toNat_toUInt32]
  change last.toNat <<< 8 % 2 ^ 32 = _
  rw [Nat.shiftLeft_eq]
  omega

theorem sumWords_toNat (sum : UInt32) (bytes : List UInt8)
    (fits : sum.toNat + (words bytes).sum < 2 ^ 32) :
    (sumWords sum bytes).toNat = sum.toNat + (words bytes).sum := by
  induction sum, bytes using sumWords.induct with
  | case1 sum => rfl
  | case2 sum last =>
      unfold words at fits ⊢
      rw [List.sum_singleton] at fits ⊢
      unfold sumWords
      rw [UInt32.toNat_add, highByte_toNat, Nat.mod_eq_of_lt fits]
  | case3 sum high low rest ih =>
      unfold words at fits ⊢
      rw [List.sum_cons] at fits ⊢
      have added : (sum + (high.toUInt32 <<< 8 ||| low.toUInt32)).toNat =
          sum.toNat + (256 * high.toNat + low.toNat) := by
        rw [UInt32.toNat_add, bigEndianWord_toNat,
          Nat.mod_eq_of_lt (by omega)]
      unfold sumWords
      rw [ih (by rw [added]; omega), added]
      omega

/-- What folding the carries leaves of a sum. -/
structure Folds (folded sum : ℕ) : Prop where
  lt : folded < 65536
  mod : folded % 65535 = sum % 65535
  zero : folded = 0 ↔ sum = 0

theorem foldCarries_folds (sum : UInt32) :
    Folds (foldCarries sum).toNat sum.toNat := by
  induction sum using foldCarries.induct with
  | case1 sum noCarry =>
      have high := upperHalf_toNat sum
      rw [noCarry] at high
      change 0 = _ at high
      unfold foldCarries
      rw [if_pos noCarry]
      exact ⟨by omega, rfl, Iff.rfl⟩
  | case2 sum carries ih =>
      obtain ⟨lt, mod, zero⟩ := ih
      rw [foldOnce_toNat] at mod zero
      unfold foldCarries
      rw [if_neg carries]
      exact ⟨lt, by omega, by omega⟩

/-- The checksum is what the folded sum lacks to all ones. -/
theorem ipChecksum_toNat (data : List UInt8) :
    (ipChecksum data).toNat + (foldCarries (sumWords 0 data)).toNat =
      65535 := by
  have lt := (foldCarries_folds (sumWords 0 data)).lt
  have size : UInt32.size = 4294967296 := rfl
  unfold ipChecksum
  rw [UInt32.toNat_toUInt16, UInt32.toNat_not, size]
  omega

/-- For data whose words fit the accumulator, words and checksum together are
a multiple of 65535, and the checksum is all ones exactly for zero data. -/
theorem ipChecksum_spec (data : List UInt8)
    (fits : (words data).sum < 2 ^ 32) :
    ((words data).sum + (ipChecksum data).toNat) % 65535 = 0 ∧
      ((ipChecksum data).toNat = 65535 ↔ (words data).sum = 0) := by
  have summed : (sumWords 0 data).toNat = (words data).sum := by
    rw [sumWords_toNat 0 data (by rw [UInt32.toNat_zero]; omega),
      UInt32.toNat_zero, Nat.zero_add]
  obtain ⟨_, mod, zero⟩ := foldCarries_folds (sumWords 0 data)
  have complement := ipChecksum_toNat data
  rw [summed] at mod zero
  omega

/-! ### The loops of `ipChecksum` -/

/-- No addition of the accumulator loop wraps. -/
def NoWrap : UInt32 → List UInt8 → Prop
  | _, [] => True
  | sum, [last] => sum.toNat + 256 * last.toNat < 2 ^ 32
  | sum, high :: low :: rest =>
      sum.toNat + (256 * high.toNat + low.toNat) < 2 ^ 32 ∧
        NoWrap (sum + (high.toUInt32 <<< 8 ||| low.toUInt32)) rest

theorem noWrap_of_fits (sum : UInt32) (bytes : List UInt8)
    (fits : sum.toNat + (words bytes).sum < 2 ^ 32) : NoWrap sum bytes := by
  induction sum, bytes using sumWords.induct with
  | case1 sum => trivial
  | case2 sum last =>
      unfold words at fits
      rw [List.sum_singleton] at fits
      exact fits
  | case3 sum high low rest ih =>
      unfold words at fits
      rw [List.sum_cons] at fits
      refine ⟨by omega, ih ?_⟩
      rw [UInt32.toNat_add, bigEndianWord_toNat, Nat.mod_eq_of_lt (by omega)]
      omega

/-- 131074 bytes are the most whose words cannot outgrow 32 bits. -/
theorem words_fit {data : List UInt8} (short : data.length ≤ 131074) :
    (words data).sum < 2 ^ 32 := by
  have bound := OnesComplement.words_sum_le data
  omega

/-- One turn of the folding loop. -/
def foldOnce (sum : UInt32) : UInt32 :=
  (sum &&& (0xffff : UInt32)) + sum >>> 16

/-- The folding loop ends after at most two turns. -/
theorem foldCarries_turns (sum : UInt32) :
    ∃ turns ≤ 2, foldCarries sum = foldOnce^[turns] sum ∧
      foldCarries sum >>> 16 = 0 := by
  have stops : ∀ sum : UInt32, sum >>> 16 = 0 → foldCarries sum = sum := by
    intro sum noCarry
    rw [foldCarries, if_pos noCarry]
  have turns : ∀ sum : UInt32, sum >>> 16 ≠ 0 →
      foldCarries sum = foldCarries (foldOnce sum) := by
    intro sum carries
    rw [foldCarries, if_neg carries]
    rfl
  have high : ∀ sum : UInt32, sum >>> 16 = 0 ↔ sum.toNat < 65536 := by
    intro sum
    rw [← UInt32.toNat_inj, upperHalf_toNat, UInt32.toNat_zero]
    omega
  have ends : ∀ sum : UInt32, foldCarries sum >>> 16 = 0 :=
    fun sum => (high _).mpr (foldCarries_folds sum).lt
  have bound := sum.toNat_lt
  by_cases none : sum >>> 16 = 0
  · exact ⟨0, by decide, stops sum none, ends sum⟩
  · have once : (foldOnce sum).toNat = _ := foldOnce_toNat sum
    by_cases one : foldOnce sum >>> 16 = 0
    · refine ⟨1, by decide, ?_, ends sum⟩
      rw [turns sum none, stops _ one]
      rfl
    · have twice : (foldOnce (foldOnce sum)).toNat = _ :=
        foldOnce_toNat (foldOnce sum)
      have two : foldOnce (foldOnce sum) >>> 16 = 0 := by
        rw [high] at none one ⊢
        omega
      refine ⟨2, by decide, ?_, ends sum⟩
      rw [turns sum none, turns _ one, stops _ two]
      rfl

/-! ### Patching the checksum in -/

theorem words_patch_sum {front : List UInt8} (even : front.length % 2 = 0)
    (word back : List UInt8) (pair : word.length = 2) :
    (words (front ++ word ++ back)).sum =
      (words front).sum + bigEndianValue word + (words back).sum := by
  have evenWord : (front ++ word).length % 2 = 0 := by
    rw [List.length_append]
    omega
  rw [OnesComplement.words_append evenWord, OnesComplement.words_append even,
    OnesComplement.words_pair pair, List.sum_append, List.sum_append,
    List.sum_singleton]

/-- Written into a zeroed word, the checksum of data that is not all zero
brings the words to a positive multiple of 65535. -/
theorem ipChecksum_patched {front back : List UInt8}
    (even : front.length % 2 = 0)
    (short : (front ++ [0, 0] ++ back).length ≤ 131074)
    (nonzero : ∃ byte ∈ front ++ [0, 0] ++ back, byte ≠ 0) :
    let patched := front ++
      bigEndian16 (ipChecksum (front ++ [0, 0] ++ back)).toNat ++ back
    foldCarries (sumWords 0 patched) = 0xffff ∧
      OnesComplement.sum (words patched) = 0xffff := by
  intro patched
  obtain ⟨multiple, _⟩ := ipChecksum_spec _ (words_fit short)
  have checksumLt := (ipChecksum (front ++ [0, 0] ++ back)).toNat_lt
  have blank := words_patch_sum even [0, 0] back rfl
  have filled := words_patch_sum even
    (bigEndian16 (ipChecksum (front ++ [0, 0] ++ back)).toNat) back
    (bigEndian16_length _)
  rw [bigEndianValue_bigEndian16 checksumLt] at filled
  change (words patched).sum = _ at filled
  have blankWord : bigEndianValue [0, 0] = 0 := rfl
  have positive : (words (front ++ [0, 0] ++ back)).sum ≠ 0 := by
    intro zero
    obtain ⟨byte, listed, different⟩ := nonzero
    exact different
      ((OnesComplement.words_sum_eq_zero_iff _).mp zero byte listed)
  have fits : (words patched).sum < 2 ^ 32 := by
    apply words_fit
    have sameLength : patched.length = (front ++ [0, 0] ++ back).length := by
      simp only [patched, List.length_append, bigEndian16_length]
      rfl
    omega
  have summed : (sumWords 0 patched).toNat = (words patched).sum := by
    rw [sumWords_toNat 0 patched (by rw [UInt32.toNat_zero]; omega),
      UInt32.toNat_zero, Nat.zero_add]
  constructor
  · obtain ⟨lt, mod, zero⟩ := foldCarries_folds (sumWords 0 patched)
    rw [summed] at mod zero
    apply UInt32.toNat_inj.mp
    change _ = 65535
    omega
  · apply (OnesComplement.sum_eq_allOnes_iff
      (OnesComplement.words_lt patched)).mpr
    omega

end Waler
