/-
Fixed-size byte layouts of values, the counterpart of packed structs that are
copied byte for byte.

A layout carries its two round-trip laws.  Layouts of words are little-endian;
layouts of records are built from those of their fields in declaration order,
so that a record's size and its laws follow from its fields.  Reversing the
bytes of a word is the byte-order swap.
-/

import Mathlib.Logic.Equiv.Basic
import Mathlib.Algebra.Order.Ring.Nat

universe u v

/-! ### Little-endian numbers -/

def littleEndianBytes : ℕ → ℕ → List UInt8
  | 0, _ => []
  | width + 1, value =>
      UInt8.ofNat value :: littleEndianBytes width (value / 256)

def littleEndianValue : List UInt8 → ℕ
  | [] => 0
  | byte :: rest => byte.toNat + 256 * littleEndianValue rest

def bigEndianValue (bytes : List UInt8) : ℕ :=
  littleEndianValue bytes.reverse

/-- A 16-bit number, high byte first. -/
def bigEndian16 (value : ℕ) : List UInt8 :=
  [UInt8.ofNat (value / 256), UInt8.ofNat value]

theorem littleEndianBytes_length (width value : ℕ) :
    (littleEndianBytes width value).length = width := by
  induction width generalizing value with
  | zero => rfl
  | succ width ih =>
      simp only [littleEndianBytes, List.length_cons]
      rw [ih]

theorem littleEndianValue_lt (bytes : List UInt8) :
    littleEndianValue bytes < 256 ^ bytes.length := by
  induction bytes with
  | nil => exact Nat.one_pos
  | cons byte rest ih =>
      have byteLt : byte.toNat < 256 := byte.toNat_lt
      simp only [littleEndianValue, List.length_cons]
      rw [Nat.pow_succ]
      omega

theorem bigEndianValue_lt (bytes : List UInt8) :
    bigEndianValue bytes < 256 ^ bytes.length := by
  have bound := littleEndianValue_lt bytes.reverse
  rwa [List.length_reverse] at bound

theorem bigEndian16_length (value : ℕ) : (bigEndian16 value).length = 2 :=
  rfl

theorem bigEndianValue_bigEndian16 {value : ℕ} (fits : value < 65536) :
    bigEndianValue (bigEndian16 value) = value := by
  change (UInt8.ofNat value).toNat +
    256 * ((UInt8.ofNat (value / 256)).toNat + 256 * 0) = value
  rw [UInt8.toNat_ofNat', UInt8.toNat_ofNat']
  omega

theorem littleEndianValue_bytes (width value : ℕ) (fits : value < 256 ^ width) :
    littleEndianValue (littleEndianBytes width value) = value := by
  induction width generalizing value with
  | zero =>
      rw [Nat.pow_zero] at fits
      simp only [littleEndianBytes, littleEndianValue]
      omega
  | succ width ih =>
      rw [Nat.pow_succ] at fits
      have restFits : value / 256 < 256 ^ width := by omega
      have digit : (UInt8.ofNat value).toNat = value % 256 :=
        UInt8.toNat_ofNat'
      simp only [littleEndianBytes, littleEndianValue]
      rw [ih (value / 256) restFits, digit]
      omega

theorem littleEndianBytes_value (bytes : List UInt8) :
    littleEndianBytes bytes.length (littleEndianValue bytes) = bytes := by
  induction bytes with
  | nil => rfl
  | cons byte rest ih =>
      have byteLt : byte.toNat < 256 := byte.toNat_lt
      have quotient :
          (byte.toNat + 256 * littleEndianValue rest) / 256 =
            littleEndianValue rest := by
        omega
      have digit :
          UInt8.ofNat (byte.toNat + 256 * littleEndianValue rest) = byte := by
        apply UInt8.toNat_inj.mp
        rw [UInt8.toNat_ofNat']
        omega
      simp only [List.length_cons, littleEndianBytes, littleEndianValue]
      rw [quotient, ih, digit]

/-! ### Layouts -/

/-- A value's bytes in memory: always `size` of them, and a value for every
byte string of that size. -/
structure PackedLayout (α : Type u) where
  size : ℕ
  encode : α → List UInt8
  decode : List UInt8 → α
  encode_length : ∀ value, (encode value).length = size
  decode_encode : ∀ value, decode (encode value) = value
  encode_decode : ∀ bytes, bytes.length = size → encode (decode bytes) = bytes

namespace PackedLayout

variable {α : Type u} {β : Type v}

def word (width : ℕ) (toNat : α → ℕ) (ofNat : ℕ → α)
    (toNat_lt : ∀ value, toNat value < 256 ^ width)
    (ofNat_toNat : ∀ value, ofNat (toNat value) = value)
    (toNat_ofNat : ∀ number, number < 256 ^ width →
      toNat (ofNat number) = number) :
    PackedLayout α :=
  { size := width
    encode := fun value => littleEndianBytes width (toNat value)
    decode := fun bytes => ofNat (littleEndianValue bytes)
    encode_length := fun value => littleEndianBytes_length width (toNat value)
    decode_encode := by
      intro value
      rw [littleEndianValue_bytes width (toNat value) (toNat_lt value),
        ofNat_toNat]
    encode_decode := by
      intro bytes sized
      have fits : littleEndianValue bytes < 256 ^ width :=
        sized ▸ littleEndianValue_lt bytes
      rw [toNat_ofNat _ fits, ← sized]
      exact littleEndianBytes_value bytes }

def word8 : PackedLayout UInt8 :=
  word 1 UInt8.toNat UInt8.ofNat (fun value => value.toNat_lt)
    (fun _ => UInt8.ofNat_toNat)
    (fun _ fits => UInt8.toNat_ofNat_of_lt' fits)

def word16 : PackedLayout UInt16 :=
  word 2 UInt16.toNat UInt16.ofNat (fun value => value.toNat_lt)
    (fun _ => UInt16.ofNat_toNat)
    (fun _ fits => UInt16.toNat_ofNat_of_lt' fits)

def word32 : PackedLayout UInt32 :=
  word 4 UInt32.toNat UInt32.ofNat (fun value => value.toNat_lt)
    (fun _ => UInt32.ofNat_toNat)
    (fun _ fits => UInt32.toNat_ofNat_of_lt' fits)

def word64 : PackedLayout UInt64 :=
  word 8 UInt64.toNat UInt64.ofNat (fun value => value.toNat_lt)
    (fun _ => UInt64.ofNat_toNat)
    (fun _ fits => UInt64.toNat_ofNat_of_lt' fits)

def byteArray (length : ℕ) : PackedLayout (Vector UInt8 length) :=
  { size := length
    encode := Vector.toList
    decode := fun bytes => Vector.ofFn (fun index => bytes.getD index.val 0)
    encode_length := fun value => value.length_toList
    decode_encode := by
      intro value
      apply Vector.ext
      intro index inRange
      simp
    encode_decode := by
      intro bytes sized
      apply List.ext_getElem
      · simp [sized]
      · intro index _ inRange
        simp [inRange] }

def pair (first : PackedLayout α) (second : PackedLayout β) :
    PackedLayout (α × β) :=
  { size := first.size + second.size
    encode := fun value => first.encode value.1 ++ second.encode value.2
    decode := fun bytes =>
      (first.decode (bytes.take first.size),
        second.decode (bytes.drop first.size))
    encode_length := by
      intro value
      rw [List.length_append, first.encode_length, second.encode_length]
    decode_encode := by
      intro value
      have split := first.encode_length value.1
      rw [← split, List.take_left, List.drop_left, first.decode_encode,
        second.decode_encode]
    encode_decode := by
      intro bytes sized
      have frontSized : (bytes.take first.size).length = first.size := by
        rw [List.length_take]
        omega
      have backSized : (bytes.drop first.size).length = second.size := by
        rw [List.length_drop]
        omega
      rw [first.encode_decode _ frontSized, second.encode_decode _ backSized,
        List.take_append_drop] }

def via (layout : PackedLayout α) (presentation : α ≃ β) : PackedLayout β :=
  { size := layout.size
    encode := fun value => layout.encode (presentation.symm value)
    decode := fun bytes => presentation (layout.decode bytes)
    encode_length := fun value => layout.encode_length _
    decode_encode := by
      intro value
      rw [layout.decode_encode, Equiv.apply_symm_apply]
    encode_decode := by
      intro bytes sized
      rw [Equiv.symm_apply_apply, layout.encode_decode bytes sized] }

/-! ### Byte order -/

/-- The value whose bytes are those of the given value in reverse. -/
def byteSwap (layout : PackedLayout α) (value : α) : α :=
  layout.decode (layout.encode value).reverse

theorem encode_byteSwap (layout : PackedLayout α) (value : α) :
    layout.encode (layout.byteSwap value) = (layout.encode value).reverse := by
  unfold byteSwap
  apply layout.encode_decode
  rw [List.length_reverse, layout.encode_length]

theorem encode_byteSwap_word16 (value : UInt16) :
    word16.encode (word16.byteSwap value) = bigEndian16 value.toNat := by
  rw [encode_byteSwap]
  rfl

theorem decode_reverse (layout : PackedLayout α) (bytes : List UInt8)
    (sized : bytes.length = layout.size) :
    layout.decode bytes.reverse = layout.byteSwap (layout.decode bytes) := by
  unfold byteSwap
  rw [layout.encode_decode bytes sized]

/-- Reading a word and swapping its bytes is reading it big-endian. -/
theorem byteSwap_decode_word {width : ℕ} {toNat : α → ℕ} {ofNat : ℕ → α}
    {toNat_lt : ∀ value, toNat value < 256 ^ width}
    {ofNat_toNat : ∀ value, ofNat (toNat value) = value}
    {toNat_ofNat : ∀ number, number < 256 ^ width →
      toNat (ofNat number) = number}
    (bytes : List UInt8) (sized : bytes.length = width) :
    (word width toNat ofNat toNat_lt ofNat_toNat toNat_ofNat).byteSwap
        ((word width toNat ofNat toNat_lt ofNat_toNat toNat_ofNat).decode
          bytes) =
      ofNat (bigEndianValue bytes) := by
  rw [← decode_reverse _ bytes sized]
  rfl

@[simp] theorem byteSwap_byteSwap (layout : PackedLayout α) (value : α) :
    layout.byteSwap (layout.byteSwap value) = value := by
  have swapped := layout.encode_byteSwap value
  rw [byteSwap, swapped, List.reverse_reverse, layout.decode_encode]

end PackedLayout
