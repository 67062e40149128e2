/-
A flat byte memory: reading a range and writing a run of bytes.

A write changes the bytes it covers and no others.  The rules below read a
range through a write that covers it, misses it, or lies inside it.
-/

import Mathlib.Data.List.GetD
import Mathlib.Algebra.Order.Ring.Nat

structure ByteMemory where
  byteAt : ℕ → UInt8

namespace ByteMemory

def zero : ByteMemory :=
  { byteAt := fun _ => 0 }

/-- `memcpy(address, bytes, size)`. -/
def write (memory : ByteMemory) (address : ℕ) (bytes : List UInt8) :
    ByteMemory :=
  { byteAt := fun location =>
      if address ≤ location then
        bytes.getD (location - address) (memory.byteAt location)
      else memory.byteAt location }

def read (memory : ByteMemory) (address count : ℕ) : List UInt8 :=
  (List.range count).map (fun offset => memory.byteAt (address + offset))

theorem write_outside (memory : ByteMemory) {address location : ℕ}
    {bytes : List UInt8}
    (outside : location < address ∨ address + bytes.length ≤ location) :
    (memory.write address bytes).byteAt location = memory.byteAt location := by
  unfold write
  dsimp only
  split
  · exact List.getD_eq_default bytes _ (by omega)
  · rfl

theorem write_inside (memory : ByteMemory) (address : ℕ) {bytes : List UInt8}
    {offset : ℕ} (inside : offset < bytes.length) :
    (memory.write address bytes).byteAt (address + offset) =
      bytes.get ⟨offset, inside⟩ := by
  unfold write
  dsimp only
  rw [if_pos (Nat.le_add_right address offset), Nat.add_sub_cancel_left]
  exact List.getD_eq_getElem bytes _ inside

@[simp] theorem read_length (memory : ByteMemory) (address count : ℕ) :
    (memory.read address count).length = count := by
  unfold read
  rw [List.length_map, List.length_range]

theorem read_getElem? (memory : ByteMemory) (address : ℕ) {count offset : ℕ}
    (inside : offset < count) :
    (memory.read address count)[offset]? =
      some (memory.byteAt (address + offset)) := by
  unfold read
  rw [List.getElem?_map, List.getElem?_range inside]
  rfl

theorem read_add (memory : ByteMemory) (address first second : ℕ) :
    memory.read address (first + second) =
      memory.read address first ++ memory.read (address + first) second := by
  have shifted : ((List.range second).map (first + ·)).map
      (fun offset => memory.byteAt (address + offset)) =
        memory.read (address + first) second := by
    rw [List.map_map]
    exact List.map_congr_left (fun offset _ =>
      congrArg memory.byteAt (Nat.add_assoc address first offset).symm)
  rw [← shifted]
  unfold read
  rw [List.range_add, List.map_append]

theorem read_drop (memory : ByteMemory) (address skipped count : ℕ) :
    (memory.read address (skipped + count)).drop skipped =
      memory.read (address + skipped) count := by
  rw [read_add]
  exact List.drop_left' (memory.read_length address skipped)

theorem read_slice (memory : ByteMemory) (address : ℕ) {skipped count total : ℕ}
    (inside : skipped + count ≤ total) :
    ((memory.read address total).drop skipped).take count =
      memory.read (address + skipped) count := by
  have split : total = skipped + (count + (total - (skipped + count))) := by
    omega
  rw [split, read_drop, read_add]
  exact List.take_left' (memory.read_length (address + skipped) count)

theorem read_congr {memory other : ByteMemory} {address count : ℕ}
    (agree : ∀ location, address ≤ location → location < address + count →
      memory.byteAt location = other.byteAt location) :
    memory.read address count = other.read address count := by
  unfold read
  apply List.map_congr_left
  intro offset member
  have inside := List.mem_range.mp member
  exact agree (address + offset) (by omega) (by omega)

theorem read_write_self (memory : ByteMemory) (address : ℕ)
    (bytes : List UInt8) :
    (memory.write address bytes).read address bytes.length = bytes := by
  apply List.ext_get (read_length _ _ _)
  intro offset inside inside'
  have byte := read_getElem? (memory.write address bytes) address inside'
  rw [List.getElem?_eq_getElem inside, write_inside memory address inside']
    at byte
  exact Option.some.inj byte

theorem head?_read_write (memory : ByteMemory) (address : ℕ) {count : ℕ}
    (nonempty : 0 < count) (byte : UInt8) (rest : List UInt8) :
    ((memory.write address (byte :: rest)).read address count).head? =
      some byte := by
  have first := memory.write_inside address
    (show 0 < (byte :: rest).length from Nat.succ_pos _)
  rw [List.head?_eq_getElem?, read_getElem? _ _ nonempty, first]
  rfl

theorem read_write_of_disjoint (memory : ByteMemory) {address target count : ℕ}
    {bytes : List UInt8}
    (disjoint : target + count ≤ address ∨ address + bytes.length ≤ target) :
    (memory.write address bytes).read target count =
      memory.read target count := by
  apply read_congr
  intro location above below
  exact memory.write_outside (by omega)

/-- Writing a run in two adjoining pieces is writing it whole. -/
theorem write_append (memory : ByteMemory) (address : ℕ)
    (first second : List UInt8) :
    (memory.write address first).write (address + first.length) second =
      memory.write address (first ++ second) := by
  have bytes : ∀ location,
      ((memory.write address first).write (address + first.length)
        second).byteAt location =
      (memory.write address (first ++ second)).byteAt location := by
    intro location
    by_cases inFirst : location < address + first.length
    · rw [write_outside _ (Or.inl inFirst)]
      unfold write
      dsimp only
      split
      · rw [List.getD_append _ _ _ _ (by omega)]
      · rfl
    · have above : address ≤ location := by omega
      unfold write
      dsimp only
      rw [if_pos (Nat.le_of_not_lt inFirst), if_pos above, if_pos above,
        List.getD_append_right _ _ _ _ (by omega),
        List.getD_eq_default first _ (by omega), Nat.sub_sub]
  exact congrArg ByteMemory.mk (funext bytes)

end ByteMemory
