/-
The inline IPv4 checksum of x4_loopback_latency.c against `ipChecksum`.

The loopback program walks the header by index, keeps the checksum in a 32-bit
word, and masks it instead of narrowing it.
-/

import Waler.Efvi.Checksum

namespace Waler

open OnesComplement (words)

namespace Loopback

/-- `(ip[i] << 8) | ip[i + 1]`. -/
def wordAt (ip : List UInt8) (i : ℕ) : UInt32 :=
  (ip.getD i 0).toUInt32 <<< 8 ||| (ip.getD (i + 1) 0).toUInt32

/-- The loop `while (csum >> 16)` is the folding loop of `ipChecksum`. -/
def inlineChecksum (ip : List UInt8) : UInt32 :=
  let csum := (List.range' 0 10 2).foldl (fun csum i => csum + wordAt ip i) 0
  ~~~ foldCarries csum &&& (0xffff : UInt32)

/-- Indexing two bytes at a time visits the words in order. -/
theorem foldl_wordAt (ip : List UInt8) (csum : UInt32) (start count : ℕ)
    (sized : ip.length = start + 2 * count) :
    (List.range' start count 2).foldl (fun csum i => csum + wordAt ip i)
        csum =
      sumWords csum (ip.drop start) := by
  induction count generalizing start csum with
  | zero =>
      rw [List.drop_of_length_le (by omega)]
      rfl
  | succ count ih =>
      have first : start < ip.length := by omega
      have second : start + 1 < ip.length := by omega
      rw [List.drop_eq_getElem_cons first, List.drop_eq_getElem_cons second,
        List.range'_succ, List.foldl_cons, ih _ (start + 2) (by omega)]
      unfold wordAt
      rw [List.getD_eq_getElem _ _ first, List.getD_eq_getElem _ _ second]
      rfl

theorem inlineChecksum_eq {ip : List UInt8} (header : ip.length = 20) :
    inlineChecksum ip = (ipChecksum ip).toUInt32 := by
  have summed := foldl_wordAt ip 0 0 10 header
  rw [List.drop_zero] at summed
  unfold inlineChecksum ipChecksum
  dsimp only
  rw [summed]
  apply UInt32.toNat_inj.mp
  rw [UInt32.toNat_and, UInt16.toNat_toUInt32, UInt32.toNat_toUInt16]
  exact Nat.and_two_pow_sub_one_eq_mod _ 16

end Loopback

/-- For every byte sequence of at most 131074 bytes: the accumulator of
`ipChecksum` never wraps, its folding loop ends, words and checksum add up to
a multiple of 65535, the checksum is all ones exactly for zero bytes, written
into a zeroed aligned word of nonzero data it completes the folded sum to all
ones, and for a 20-byte header the inline checksum is the same. -/
theorem ipChecksum_rfc1071 (data : List UInt8)
    (short : data.length ≤ 131074) :
    NoWrap 0 data ∧
      (∃ turns, foldCarries (sumWords 0 data) =
          foldOnce^[turns] (sumWords 0 data) ∧
        foldCarries (sumWords 0 data) >>> 16 = 0) ∧
      ((words data).sum + (ipChecksum data).toNat) % 65535 = 0 ∧
      (ipChecksum data = 0xffff ↔ ∀ byte ∈ data, byte = 0) ∧
      (∀ front back, data = front ++ [0, 0] ++ back →
        front.length % 2 = 0 → (∃ byte ∈ data, byte ≠ 0) →
          let patched :=
            front ++ bigEndian16 (ipChecksum data).toNat ++ back
          foldCarries (sumWords 0 patched) = 0xffff ∧
            OnesComplement.sum (words patched) = 0xffff) ∧
      (data.length = 20 →
        Loopback.inlineChecksum data = (ipChecksum data).toUInt32) := by
  have fits := words_fit short
  obtain ⟨multiple, allOnes⟩ := ipChecksum_spec data fits
  obtain ⟨turns, _, ended⟩ := foldCarries_turns (sumWords 0 data)
  refine ⟨noWrap_of_fits 0 data ?_, ⟨turns, ended⟩, multiple, ?_, ?_,
    Loopback.inlineChecksum_eq⟩
  · rw [UInt32.toNat_zero]
    omega
  · rw [← UInt16.toNat_inj, ← OnesComplement.words_sum_eq_zero_iff]
    exact allOnes
  · rintro front back rfl even nonzero
    exact ipChecksum_patched even short nonzero

/-- The header of a 60-byte datagram between two addresses, its checksum still
blank. -/
def blankHeader : List UInt8 :=
  [0x45, 0, 0, 46, 0, 0, 0, 0, 64, 17, 0, 0, 10, 10, 10, 1, 10, 10, 10, 2]

theorem ipChecksum_rfc1071_blankHeader :
    Loopback.inlineChecksum blankHeader =
        (ipChecksum blankHeader).toUInt32 ∧
      foldCarries (sumWords 0
        (blankHeader.take 10 ++ bigEndian16 (ipChecksum blankHeader).toNat ++
          blankHeader.drop 12)) = 0xffff := by
  obtain ⟨_, _, _, _, patches, agrees⟩ :=
    ipChecksum_rfc1071 blankHeader (by decide)
  exact ⟨agrees rfl, (patches (blankHeader.take 10) (blankHeader.drop 12) rfl
    (by decide) ⟨0x45, by decide, by decide⟩).1⟩

end Waler
