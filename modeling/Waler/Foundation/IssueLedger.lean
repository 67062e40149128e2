/-
Identifiers handed out in turn from a cycle, and the pool of their holders.

The values `1..period` are handed out one after the other and then over
again.  A ledger keeps the identifiers in the order they were taken and, for
every slot of the pool, the number of the one that stands there.  A value
returns only after a whole period, so holders that are all younger than that
are told apart by their identifiers.
-/

import Mathlib.Data.List.Nodup
import Mathlib.Data.Nat.ModEq
import Mathlib.Logic.Function.Basic
import Waler.Foundation.SwapPool

universe u v

/-! ### The cycle -/

namespace IssueCycle

/-- The value handed out after `number` others. -/
def turn (period number : ℕ) : ℕ := number % period + 1

variable {period : ℕ}

theorem turn_pos (period number : ℕ) : 0 < turn period number :=
  Nat.succ_pos _

theorem turn_succ (positive : 0 < period) (number : ℕ) :
    turn period (number + 1) =
      if turn period number = period then 1 else turn period number + 1 := by
  unfold turn
  have below := Nat.mod_lt number positive
  rw [Nat.add_mod_eq_ite]
  by_cases single : period = 1
  · subst single
    rw [Nat.mod_one, if_pos rfl]
    rfl
  · rw [Nat.mod_eq_of_lt (show 1 < period by omega)]
    by_cases last : number % period + 1 = period
    · rw [if_pos (by omega), if_pos last]
      omega
    · rw [if_neg (by omega), if_neg last]

/-- Within one period no value is handed out twice. -/
theorem turn_ne {earlier later : ℕ} (after : earlier < later)
    (within : later < earlier + period) :
    turn period earlier ≠ turn period later := by
  intro same
  have congruent : earlier ≡ later [MOD period] := Nat.succ.inj same
  have apart := congruent.add_le_of_lt after
  omega

end IssueCycle

/-! ### The ledger -/

structure IssueLedger (ι : Type u) where
  taken : List ι
  number : ℕ → ℕ

namespace IssueLedger

open IssueCycle (turn)

variable {ι : Type u} {α : Type v} {capacity period : ℕ}

def empty : IssueLedger ι :=
  { taken := []
    number := fun _ => 0 }

/-- An identifier is taken and given to a slot. -/
def take (ledger : IssueLedger ι) (slot : ℕ) (id : ι) : IssueLedger ι :=
  { taken := ledger.taken ++ [id]
    number := Function.update ledger.number slot ledger.taken.length }

/-- One slot is copied over another. -/
def copy (ledger : IssueLedger ι) (source target : ℕ) : IssueLedger ι :=
  { ledger with
    number := Function.update ledger.number target (ledger.number source) }

/-- How many identifiers were taken after the one in the slot. -/
def takenAfter (ledger : IssueLedger ι) (slot : ℕ) : ℕ :=
  ledger.taken.length - (ledger.number slot + 1)

/-- The identifiers are the values of the cycle in turn. -/
def InTurn (period : ℕ) (value : ι → ℕ) (taken : List ι) : Prop :=
  ∀ number id, taken[number]? = some id → value id = turn period number

theorem InTurn.snoc {value : ι → ℕ} {taken : List ι}
    (inTurn : InTurn period value taken) {next : ι}
    (valued : value next = turn period taken.length) :
    InTurn period value (taken ++ [next]) := by
  intro number id entry
  rcases Nat.lt_trichotomy number taken.length with below | same | above
  · rw [List.getElem?_append_left below] at entry
    exact inTurn number id entry
  · subst same
    rw [List.getElem?_concat_length] at entry
    rw [← Option.some.inj entry]
    exact valued
  · rw [List.getElem?_eq_none (by
      rw [List.length_append, List.length_singleton]
      omega)] at entry
    cases entry

theorem InTurn.nodup_window {value : ι → ℕ} {taken : List ι}
    (inTurn : InTurn period value taken) (first : ℕ) :
    ((taken.drop first).take period).Nodup := by
  rw [List.nodup_iff_getElem?_ne_getElem?]
  intro earlier later after inside same
  have within : later < period :=
    Nat.lt_of_lt_of_le inside (List.length_take_le _ _)
  have held := List.getElem?_eq_getElem inside
  have heldEarlier := same.trans held
  rw [List.getElem?_take_of_lt (by omega), List.getElem?_drop] at held
  rw [List.getElem?_take_of_lt (by omega), List.getElem?_drop] at heldEarlier
  have differ := IssueCycle.turn_ne
    (show first + earlier < first + later by omega)
    (show first + later < first + earlier + period by omega)
  rw [← inTurn _ _ heldEarlier, ← inTurn _ _ held] at differ
  exact differ rfl

/-! ### A pool and its ledger -/

/-- Every entry of the pool has the identifier of its number, and no two have
one number. -/
structure Records (ledger : IssueLedger ι) (idOf : α → ι)
    (pool : SwapPool α capacity) : Prop where
  noted : ∀ slot : Fin pool.count,
    ledger.taken[ledger.number slot.val]? = some (idOf (pool.get slot))
  apart : ∀ first second : Fin pool.count,
    ledger.number first.val = ledger.number second.val → first = second

namespace Records

variable {ledger : IssueLedger ι} {idOf : α → ι} {pool : SwapPool α capacity}

theorem number_lt (records : ledger.Records idOf pool)
    (slot : Fin pool.count) :
    ledger.number slot.val < ledger.taken.length :=
  (List.getElem?_eq_some_iff.mp (records.noted slot)).1

theorem push (records : ledger.Records idOf pool)
    (room : pool.count < capacity) (item : α) :
    (ledger.take pool.count (idOf item)).Records idOf
      (pool.push room item) := by
  -- An old slot keeps its number, the new one has the next number.
  have numbers : ∀ slot : Fin (pool.push room item).count,
      (∃ old : slot.val < pool.count,
        (ledger.take pool.count (idOf item)).number slot.val =
            ledger.number slot.val ∧
          (pool.push room item).get slot = pool.get ⟨slot.val, old⟩ ∧
            ledger.number slot.val < ledger.taken.length) ∨
      slot.val = pool.count ∧
        (ledger.take pool.count (idOf item)).number slot.val =
            ledger.taken.length ∧
          (pool.push room item).get slot = item := by
    intro slot
    have bound : slot.val < pool.count + 1 := slot.isLt
    rw [SwapPool.get_push]
    by_cases old : slot.val < pool.count
    · refine Or.inl ⟨old, ?_, dif_pos old, records.number_lt ⟨_, old⟩⟩
      exact Function.update_of_ne (by omega) _ _
    · have new : slot.val = pool.count := by omega
      refine Or.inr ⟨new, ?_, dif_neg old⟩
      rw [new]
      exact Function.update_self _ _ _
  constructor
  · intro slot
    change (ledger.taken ++ [idOf item])[_]? = _
    obtain ⟨old, numbered, entry, below⟩ | ⟨_, numbered, entry⟩ := numbers slot
    · rw [numbered, entry, List.getElem?_append_left below]
      exact records.noted ⟨slot.val, old⟩
    · rw [numbered, entry]
      exact List.getElem?_concat_length
  · intro first second same
    obtain ⟨oldFirst, firstEq, _, firstLt⟩ | ⟨firstNew, firstEq, _⟩ :=
      numbers first <;>
      obtain ⟨oldSecond, secondEq, _, secondLt⟩ | ⟨secondNew, secondEq, _⟩ :=
        numbers second
    · rw [firstEq, secondEq] at same
      have slots := records.apart ⟨first.val, oldFirst⟩ ⟨second.val, oldSecond⟩
        same
      exact Fin.ext (Fin.mk.inj slots)
    · omega
    · omega
    · exact Fin.ext (firstNew.trans secondNew.symm)

theorem set (records : ledger.Records idOf pool) (index : Fin pool.count)
    {item : α} (kept : idOf item = idOf (pool.get index)) :
    ledger.Records idOf (pool.set index item) := by
  refine ⟨?_, records.apart⟩
  intro (slot : Fin pool.count)
  rw [pool.get_set index item slot]
  by_cases same : slot = index
  · rw [if_pos same, kept, same]
    exact records.noted index
  · rw [if_neg same]
    exact records.noted slot

theorem swapRemove (records : ledger.Records idOf pool)
    (index : Fin pool.count) :
    (ledger.copy (pool.count - 1) index.val).Records idOf
      (pool.swapRemove index) := by
  -- Number and entry of a slot come from the same slot of the old pool.
  have numbers : ∀ slot : Fin (pool.swapRemove index).count,
      (ledger.copy (pool.count - 1) index.val).number slot.val =
        ledger.number (pool.cameFrom index slot).val := by
    intro slot
    unfold SwapPool.cameFrom
    by_cases freed : slot.val = index.val
    · rw [if_pos freed, freed]
      exact Function.update_self _ _ _
    · rw [if_neg freed]
      exact Function.update_of_ne freed _ _
  constructor
  · intro slot
    rw [numbers slot, SwapPool.get_swapRemove]
    exact records.noted (pool.cameFrom index slot)
  · intro first second same
    rw [numbers first, numbers second] at same
    exact pool.cameFrom_injective index (records.apart _ _ same)

/-- Entries of which each is followed by less than a period of identifiers
have different identifiers. -/
theorem injective_of_young (records : ledger.Records idOf pool)
    {value : ι → ℕ} (inTurn : InTurn period value ledger.taken)
    (young : ∀ slot : Fin pool.count,
      ledger.takenAfter slot.val < period) :
    Function.Injective (fun slot => idOf (pool.get slot)) := by
  intro first second same
  have sameTurn : turn period (ledger.number first.val) =
      turn period (ledger.number second.val) := by
    rw [← inTurn _ _ (records.noted first),
      ← inTurn _ _ (records.noted second)]
    exact congrArg value same
  have firstYoung := young first
  have secondYoung := young second
  have firstLt := records.number_lt first
  have secondLt := records.number_lt second
  unfold takenAfter at firstYoung secondYoung
  rcases Nat.lt_trichotomy (ledger.number first.val)
    (ledger.number second.val) with earlier | equal | later
  · exact absurd sameTurn (IssueCycle.turn_ne earlier (by omega))
  · exact records.apart first second equal
  · exact absurd sameTurn.symm (IssueCycle.turn_ne later (by omega))

end Records

end IssueLedger
