/-
A bounded array used as an unordered pool: a count of live entries in front,
appending behind them, and removal by moving the last live entry into the
freed slot.

The slots behind the count keep whatever was there.  The live entries are a
list; removal keeps them as a multiset and says nothing about their order.
-/

import Mathlib.Data.List.Perm.Basic

universe u

/-- An array of `capacity` slots of which the first `count` are live. -/
structure SwapPool (α : Type u) (capacity : ℕ) where
  slots : Vector α capacity
  count : ℕ
  count_le : count ≤ capacity
  deriving DecidableEq

namespace SwapPool

variable {α : Type u} {capacity : ℕ}

def fill (item : α) : SwapPool α capacity :=
  { slots := Vector.replicate capacity item
    count := 0
    count_le := Nat.zero_le capacity }

def live (pool : SwapPool α capacity) : List α :=
  pool.slots.toList.take pool.count

theorem index_lt (pool : SwapPool α capacity) (index : Fin pool.count) :
    index.val < capacity :=
  Nat.lt_of_lt_of_le index.isLt pool.count_le

theorem last_lt (pool : SwapPool α capacity) (index : Fin pool.count) :
    pool.count - 1 < capacity := by
  have inside := pool.index_lt index
  have bound := pool.count_le
  omega

def get (pool : SwapPool α capacity) (index : Fin pool.count) : α :=
  pool.slots.get ⟨index.val, pool.index_lt index⟩

def set (pool : SwapPool α capacity) (index : Fin pool.count) (item : α) :
    SwapPool α capacity :=
  { pool with
    slots := pool.slots.set index.val item (pool.index_lt index) }

def push (pool : SwapPool α capacity) (room : pool.count < capacity)
    (item : α) : SwapPool α capacity :=
  { slots := pool.slots.set pool.count item room
    count := pool.count + 1
    count_le := room }

def last (pool : SwapPool α capacity) (index : Fin pool.count) : α :=
  pool.slots.get ⟨pool.count - 1, pool.last_lt index⟩

def swapRemove (pool : SwapPool α capacity) (index : Fin pool.count) :
    SwapPool α capacity :=
  { slots := pool.slots.set index.val (pool.last index) (pool.index_lt index)
    count := pool.count - 1
    count_le := Nat.le_trans (Nat.sub_le _ _) pool.count_le }

/-! ### Entries by slot -/

theorem get_push (pool : SwapPool α capacity) (room : pool.count < capacity)
    (item : α) (index : Fin (pool.push room item).count) :
    (pool.push room item).get index =
      if old : index.val < pool.count then pool.get ⟨index.val, old⟩
      else item := by
  have inside := (pool.push room item).index_lt index
  have bound : index.val < pool.count + 1 := index.isLt
  change (pool.slots.set pool.count item room)[index.val] = _
  rw [Vector.getElem_set]
  by_cases old : index.val < pool.count
  · rw [dif_pos old, if_neg (by omega)]
    rfl
  · rw [dif_neg old, if_pos (by omega)]

theorem get_set (pool : SwapPool α capacity) (index : Fin pool.count)
    (item : α) (other : Fin pool.count) :
    (pool.set index item).get other =
      if other = index then item else pool.get other := by
  have inside := pool.index_lt other
  change (pool.slots.set index.val item (pool.index_lt index))[other.val] = _
  rw [Vector.getElem_set]
  by_cases same : other = index
  · rw [if_pos same, if_pos (congrArg Fin.val same.symm)]
  · rw [if_neg same, if_neg (fun equal => same (Fin.ext equal.symm))]
    rfl

/-- Where an entry stood before the removal: the freed slot has the entry
that was last. -/
def cameFrom (pool : SwapPool α capacity) (index : Fin pool.count)
    (slot : Fin (pool.swapRemove index).count) : Fin pool.count :=
  if slot.val = index.val then
    ⟨pool.count - 1, Nat.sub_one_lt_of_lt index.isLt⟩
  else ⟨slot.val, Nat.lt_of_lt_of_le slot.isLt (Nat.sub_le _ _)⟩

theorem get_swapRemove (pool : SwapPool α capacity) (index : Fin pool.count)
    (slot : Fin (pool.swapRemove index).count) :
    (pool.swapRemove index).get slot = pool.get (pool.cameFrom index slot) := by
  have inside := (pool.swapRemove index).index_lt slot
  change (pool.slots.set index.val (pool.last index)
    (pool.index_lt index))[slot.val] = _
  unfold cameFrom
  rw [Vector.getElem_set]
  by_cases freed : slot.val = index.val
  · rw [if_pos freed.symm, if_pos freed]
    rfl
  · rw [if_neg (Ne.symm freed), if_neg freed]
    rfl

theorem cameFrom_injective (pool : SwapPool α capacity)
    (index : Fin pool.count) : Function.Injective (pool.cameFrom index) := by
  intro first second same
  have firstLt : first.val < pool.count - 1 := first.isLt
  have secondLt : second.val < pool.count - 1 := second.isLt
  have values := congrArg Fin.val same
  unfold cameFrom at values
  apply Fin.ext
  split at values <;> split at values <;> dsimp only at values <;> omega

/-! ### Live entries -/

@[simp] theorem live_length (pool : SwapPool α capacity) :
    pool.live.length = pool.count := by
  have bound := pool.count_le
  unfold live
  rw [List.length_take, Vector.length_toList]
  omega

@[simp] theorem live_fill (item : α) :
    (fill item : SwapPool α capacity).live = [] :=
  List.take_zero

theorem index_lt_live (pool : SwapPool α capacity) (index : Fin pool.count) :
    index.val < pool.live.length := by
  rw [live_length]
  exact index.isLt

theorem live_getElem? (pool : SwapPool α capacity) (index : Fin pool.count) :
    pool.live[index.val]? = some (pool.get index) := by
  have inside : index.val < pool.slots.toList.length := by
    rw [Vector.length_toList]
    exact pool.index_lt index
  unfold live
  rw [List.getElem?_take_of_lt index.isLt, List.getElem?_eq_getElem inside]
  exact congrArg some (Vector.getElem_toList inside)

theorem get_mem_live (pool : SwapPool α capacity) (index : Fin pool.count) :
    pool.get index ∈ pool.live :=
  List.mem_of_getElem? (pool.live_getElem? index)

theorem exists_get_of_mem_live {pool : SwapPool α capacity} {item : α}
    (member : item ∈ pool.live) : ∃ index, pool.get index = item := by
  obtain ⟨position, inside, entry⟩ := List.mem_iff_getElem.mp member
  have below : position < pool.count := by
    rwa [live_length] at inside
  have slot := pool.live_getElem? ⟨position, below⟩
  rw [List.getElem?_eq_getElem inside, entry] at slot
  exact ⟨⟨position, below⟩, (Option.some.inj slot).symm⟩

theorem mem_live_eraseIdx_iff (pool : SwapPool α capacity)
    (index : Fin pool.count) (item : α) :
    item ∈ pool.live.eraseIdx index.val ↔
      ∃ other, other ≠ index ∧ pool.get other = item := by
  rw [List.mem_eraseIdx_iff_getElem?]
  constructor
  · rintro ⟨position, apart, entry⟩
    have below : position < pool.count := by
      rw [← pool.live_length]
      exact (List.getElem?_eq_some_iff.mp entry).1
    have slot := pool.live_getElem? ⟨position, below⟩
    rw [entry] at slot
    exact ⟨⟨position, below⟩, fun same => apart (congrArg Fin.val same),
      (Option.some.inj slot).symm⟩
  · rintro ⟨other, apart, rfl⟩
    exact ⟨other.val, fun same => apart (Fin.ext same),
      pool.live_getElem? other⟩

theorem live_push (pool : SwapPool α capacity) (room : pool.count < capacity)
    (item : α) : (pool.push room item).live = pool.live ++ [item] := by
  have inside :
      pool.count < (pool.slots.toList.set pool.count item).length := by
    rw [List.length_set, Vector.length_toList]
    exact room
  change ((pool.slots.set pool.count item room).toList).take
    (pool.count + 1) = _
  rw [Vector.toList_set, List.take_succ_eq_append_getElem inside,
    List.take_set_of_le (Nat.le_refl _), List.getElem_set_self]
  rfl

theorem live_set (pool : SwapPool α capacity) (index : Fin pool.count)
    (item : α) : (pool.set index item).live = pool.live.set index.val item := by
  change ((pool.slots.set index.val item (pool.index_lt index)).toList).take
    pool.count = _
  rw [Vector.toList_set, List.take_set]
  rfl

theorem live_set_perm (pool : SwapPool α capacity) (index : Fin pool.count)
    (item : α) :
    (pool.set index item).live.Perm (item :: pool.live.eraseIdx index.val) := by
  rw [live_set]
  exact List.set_perm_cons_eraseIdx (pool.index_lt_live index) item

theorem live_perm_cons (pool : SwapPool α capacity) (index : Fin pool.count) :
    pool.live.Perm (pool.get index :: pool.live.eraseIdx index.val) := by
  have inside := pool.index_lt_live index
  have taken := List.getElem_cons_eraseIdx_perm inside
  have entry := pool.live_getElem? index
  rw [List.getElem?_eq_getElem inside] at entry
  rw [Option.some.inj entry] at taken
  exact taken.symm

/-- Removal takes out the entry of its slot and no other. -/
theorem live_swapRemove_perm (pool : SwapPool α capacity)
    (index : Fin pool.count) :
    (pool.swapRemove index).live.Perm (pool.live.eraseIdx index.val) := by
  -- Before the count drops, the moved entry still stands in the last slot.
  have shape : (pool.set index (pool.last index)).live =
      (pool.swapRemove index).live ++ [pool.last index] := by
    have lastInside := pool.last_lt index
    have countEq : pool.count = pool.count - 1 + 1 := by
      have positive := index.isLt
      omega
    have inside : pool.count - 1 <
        (pool.slots.toList.set index.val (pool.last index)).length := by
      rw [List.length_set, Vector.length_toList]
      exact lastInside
    have lastEntry :
        (pool.slots.toList.set index.val (pool.last index))[pool.count - 1] =
          pool.last index := by
      rw [List.getElem_set]
      split
      · rfl
      · exact Vector.getElem_toList _
    have split := List.take_succ_eq_append_getElem inside
    rw [← countEq, lastEntry, ← Vector.toList_set (pool.index_lt index)]
      at split
    exact split
  have exchanged := live_set_perm pool index (pool.last index)
  rw [shape] at exchanged
  have moved := (List.perm_append_singleton (pool.last index)
    (pool.swapRemove index).live).symm.trans exchanged
  exact moved.cons_inv

theorem mem_live_push {pool : SwapPool α capacity}
    {room : pool.count < capacity} {pushed item : α}
    (member : item ∈ (pool.push room pushed).live) :
    item ∈ pool.live ∨ item = pushed := by
  rw [live_push] at member
  exact (List.mem_append.mp member).imp_right List.mem_singleton.mp

theorem mem_live_of_swapRemove {pool : SwapPool α capacity}
    {index : Fin pool.count} {item : α}
    (member : item ∈ (pool.swapRemove index).live) : item ∈ pool.live :=
  List.mem_of_mem_eraseIdx ((pool.live_swapRemove_perm index).mem_iff.mp member)

theorem mem_live_set {pool : SwapPool α capacity} {index : Fin pool.count}
    {stored item : α} (member : item ∈ (pool.set index stored).live) :
    item = stored ∨ item ∈ pool.live := by
  have exchanged := (pool.live_set_perm index stored).mem_iff.mp member
  exact (List.mem_cons.mp exchanged).imp_right List.mem_of_mem_eraseIdx

end SwapPool
