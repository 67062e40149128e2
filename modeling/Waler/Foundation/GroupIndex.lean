/-
Incrementally maintained group totals over a finite map.

Every item may belong to a group and has an amount.  An index keeps, for each
group, the amount held there, and drops a group as soon as a debit covers
everything it holds.  The index summarises a map of items when each stored
amount is the exact sum over the items of that group and no group is stored
without an item.  The rules below follow one item through being added,
removed and reduced.
-/

import Waler.Foundation.FiniteMap
import Mathlib.Logic.Function.Basic

universe u v w

namespace GroupIndex

variable {κ : Type u} {ν : Type v} {γ : Type w} [DecidableEq κ] [DecidableEq γ]

/-! ### The index -/

def credit (index : γ → Option ℕ) : Option γ → ℕ → γ → Option ℕ
  | none, _ => index
  | some group, amount =>
      Function.update index group (some ((index group).getD 0 + amount))

/-- Take an amount from a group, dropping the group when the amount covers
everything held there.  A group that is not stored stays so. -/
def debit (index : γ → Option ℕ) : Option γ → ℕ → γ → Option ℕ
  | none, _ => index
  | some group, amount =>
      match index group with
      | none => index
      | some held =>
          Function.update index group
            (if held ≤ amount then none else some (held - amount))

@[simp] theorem credit_self (index : γ → Option ℕ) (group : γ) (amount : ℕ) :
    credit index (some group) amount group =
      some ((index group).getD 0 + amount) :=
  Function.update_self _ _ _

theorem credit_other (index : γ → Option ℕ) (target : Option γ) (amount : ℕ)
    (group : γ) (different : target ≠ some group) :
    credit index target amount group = index group := by
  cases target with
  | none => rfl
  | some touched =>
      exact Function.update_of_ne
        (fun same => different (congrArg some same.symm)) _ _

theorem debit_self (index : γ → Option ℕ) (group : γ) (amount : ℕ) :
    debit index (some group) amount group =
      (index group).bind
        (fun held => if held ≤ amount then none else some (held - amount)) := by
  cases stored : index group with
  | none => simp only [debit, stored, Option.bind_none]
  | some amount' =>
      simp only [debit, stored, Option.bind_some, Function.update_self]

theorem debit_self_getD (index : γ → Option ℕ) (group : γ) (amount : ℕ) :
    (debit index (some group) amount group).getD 0 =
      (index group).getD 0 - amount := by
  rw [debit_self]
  cases index group with
  | none => exact (Nat.zero_sub amount).symm
  | some held =>
      rw [Option.bind_some, Option.getD_some]
      split
      · rw [Option.getD_none]
        omega
      · exact Option.getD_some

/-- A group that survives a debit held more than the debit took. -/
theorem lt_of_debit_isSome {index : γ → Option ℕ} {group : γ} {amount : ℕ}
    (stored : (debit index (some group) amount group).isSome) :
    amount < (index group).getD 0 := by
  rw [debit_self] at stored
  cases before : index group with
  | none =>
      rw [before] at stored
      cases stored
  | some held =>
      rw [before, Option.bind_some] at stored
      split at stored
      · cases stored
      · rw [Option.getD_some]
        omega

theorem debit_other (index : γ → Option ℕ) (target : Option γ) (amount : ℕ)
    (group : γ) (different : target ≠ some group) :
    debit index target amount group = index group := by
  cases target with
  | none => rfl
  | some touched =>
      have apart : group ≠ touched := fun same =>
        different (congrArg some same.symm)
      cases stored : index touched with
      | none => simp only [debit, stored]
      | some amount' =>
          simp only [debit, stored]
          exact Function.update_of_ne apart _ _

/-! ### Summaries -/

variable (groupOf : ν → Option γ) (amountOf : ν → ℕ)

def share (group : γ) (item : ν) : ℕ :=
  if groupOf item = some group then amountOf item else 0

def held (map : Finmap (fun _ : κ => ν)) (group : γ) : ℕ :=
  FiniteMap.total (share groupOf amountOf group) map

/-- The index stores the exact sums, and no group without an item. -/
structure Summarises (index : γ → Option ℕ)
    (map : Finmap (fun _ : κ => ν)) : Prop where
  sum : ∀ group, (index group).getD 0 = held groupOf amountOf map group
  inhabited : ∀ group, (index group).isSome →
    ∃ key item, map.lookup key = some item ∧ groupOf item = some group

variable {groupOf amountOf}
variable {index : γ → Option ℕ} {map : Finmap (fun _ : κ => ν)} {key : κ}
  {item : ν}

theorem summarises_empty :
    Summarises groupOf amountOf (fun _ => none)
      (∅ : Finmap (fun _ : κ => ν)) where
  sum := fun _ => rfl
  inhabited := fun _ stored => by cases stored

theorem share_of_group {group : γ} (member : groupOf item = some group) :
    share groupOf amountOf group item = amountOf item := by
  unfold share
  rw [if_pos member]

theorem share_of_other {group : γ} (different : groupOf item ≠ some group) :
    share groupOf amountOf group item = 0 := by
  unfold share
  rw [if_neg different]

theorem sum_share_le {groups : List γ} (distinct : groups.Nodup) (item : ν) :
    (groups.map (fun group => share groupOf amountOf group item)).sum ≤
      amountOf item := by
  induction groups with
  | nil => exact Nat.zero_le _
  | cons group rest ih =>
      rcases List.nodup_cons.mp distinct with ⟨fresh, restDistinct⟩
      rw [List.map_cons, List.sum_cons]
      by_cases member : groupOf item = some group
      · -- The item is in this group, so it has no share in a later one.
        have later : (rest.map
            (fun group => share groupOf amountOf group item)).sum = 0 := by
          refine List.sum_eq_zero ?_
          intro amount listed
          rcases List.mem_map.mp listed with ⟨other, otherListed, rfl⟩
          apply share_of_other
          intro both
          have same : group = other :=
            Option.some.inj (member.symm.trans both)
          exact fresh (same ▸ otherListed)
        rw [later, share_of_group member, Nat.add_zero]
      · rw [share_of_other member, Nat.zero_add]
        exact ih restDistinct

omit [DecidableEq κ] in
theorem sum_held_eq (groups : List γ) (map : Finmap (fun _ : κ => ν)) :
    (groups.map (held groupOf amountOf map)).sum =
      FiniteMap.total (fun item =>
        (groups.map (fun group => share groupOf amountOf group item)).sum)
          map := by
  induction groups with
  | nil => exact (FiniteMap.total_zero map).symm
  | cons group rest ih =>
      simp only [List.map_cons, List.sum_cons]
      rw [FiniteMap.total_add, ih]
      rfl

omit [DecidableEq κ] in
/-- Different groups hold different items, so together they hold no more than
there is. -/
theorem sum_held_le {groups : List γ} (distinct : groups.Nodup)
    (map : Finmap (fun _ : κ => ν)) :
    (groups.map (held groupOf amountOf map)).sum ≤
      FiniteMap.total amountOf map := by
  rw [sum_held_eq]
  exact FiniteMap.total_mono (sum_share_le distinct) map

theorem Summarises.amount_le (summary : Summarises groupOf amountOf index map)
    (found : map.lookup key = some item) {group : γ}
    (member : groupOf item = some group) :
    amountOf item ≤ (index group).getD 0 := by
  rw [summary.sum]
  unfold held
  rw [FiniteMap.total_of_lookup found, share_of_group member]
  exact Nat.le_add_right _ _

theorem Summarises.credit_new
    (summary : Summarises groupOf amountOf index map) (absent : key ∉ map)
    (item : ν) :
    Summarises groupOf amountOf
      (credit index (groupOf item) (amountOf item)) (map.insert key item) where
  sum := by
    intro group
    have sum := summary.sum group
    unfold held at sum ⊢
    rw [FiniteMap.total_insert, FiniteMap.erase_of_notMem absent]
    by_cases member : groupOf item = some group
    · rw [member, credit_self, share_of_group member, Option.getD_some, sum]
      exact Nat.add_comm _ _
    · rw [credit_other _ _ _ _ member, share_of_other member, Nat.zero_add, sum]
  inhabited := by
    intro group stored
    by_cases member : groupOf item = some group
    · exact ⟨key, item, Finmap.lookup_insert map, member⟩
    · rw [credit_other _ _ _ _ member] at stored
      rcases summary.inhabited group stored with
        ⟨other, otherItem, found, otherMember⟩
      have different : other ≠ key := by
        intro same
        subst same
        exact absent (Finmap.mem_of_lookup_eq_some found)
      exact ⟨other, otherItem,
        (Finmap.lookup_insert_of_ne map different).trans found, otherMember⟩

theorem exists_of_held_pos {group : γ}
    (positive : 0 < held groupOf amountOf map group) :
    ∃ key item, map.lookup key = some item ∧ groupOf item = some group := by
  obtain ⟨key, item, found, shared⟩ := (FiniteMap.total_pos_iff map).mp positive
  refine ⟨key, item, found, ?_⟩
  by_contra different
  rw [share_of_other different] at shared
  exact Nat.lt_irrefl 0 shared

theorem Summarises.debit_all
    (summary : Summarises groupOf amountOf index map)
    (found : map.lookup key = some item) :
    Summarises groupOf amountOf
      (debit index (groupOf item) (amountOf item)) (map.erase key) where
  sum := by
    intro group
    have sum := summary.sum group
    unfold held at sum ⊢
    rw [FiniteMap.total_of_lookup found] at sum
    by_cases member : groupOf item = some group
    · rw [share_of_group member] at sum
      rw [member, debit_self_getD, sum]
      exact Nat.add_sub_cancel_left _ _
    · rw [share_of_other member, Nat.zero_add] at sum
      rw [debit_other _ _ _ _ member, sum]
  inhabited := by
    intro group stored
    by_cases member : groupOf item = some group
    · -- The group survives the debit, so other items hold the rest of it.
      rw [member] at stored
      have more := lt_of_debit_isSome stored
      have remaining : 0 < held groupOf amountOf (map.erase key) group := by
        have sum := summary.sum group
        unfold held at sum ⊢
        rw [FiniteMap.total_of_lookup found, share_of_group member] at sum
        omega
      exact exists_of_held_pos remaining
    · rw [debit_other _ _ _ _ member] at stored
      rcases summary.inhabited group stored with
        ⟨other, otherItem, otherFound, otherMember⟩
      have different : other ≠ key := by
        intro same
        subst same
        rw [found] at otherFound
        cases otherFound
        exact member otherMember
      exact ⟨other, otherItem,
        (Finmap.lookup_erase_ne different).trans otherFound, otherMember⟩

theorem Summarises.debit_part
    (summary : Summarises groupOf amountOf index map)
    (found : map.lookup key = some item) {amount : ℕ} {reduced : ν}
    (part : amount < amountOf item)
    (sameGroup : groupOf reduced = groupOf item)
    (rest : amountOf reduced = amountOf item - amount) :
    Summarises groupOf amountOf
      (debit index (groupOf item) amount) (map.insert key reduced) where
  sum := by
    intro group
    have sum := summary.sum group
    unfold held at sum ⊢
    rw [FiniteMap.total_of_lookup found] at sum
    rw [FiniteMap.total_insert]
    by_cases member : groupOf item = some group
    · rw [share_of_group member] at sum
      rw [member, debit_self_getD, share_of_group (sameGroup.trans member),
        rest]
      omega
    · rw [share_of_other member] at sum
      have reducedOther : groupOf reduced ≠ some group := by
        rw [sameGroup]
        exact member
      rw [debit_other _ _ _ _ member, share_of_other reducedOther, sum]
  inhabited := by
    intro group stored
    have wasStored : (index group).isSome := by
      by_cases member : groupOf item = some group
      · rw [member] at stored
        have more := lt_of_debit_isSome stored
        cases before : index group with
        | none =>
            rw [before] at more
            cases more
        | some held => rfl
      · rwa [debit_other _ _ _ _ member] at stored
    rcases summary.inhabited group wasStored with
      ⟨other, otherItem, otherFound, otherMember⟩
    by_cases same : other = key
    · subst same
      rw [found] at otherFound
      cases otherFound
      exact ⟨other, reduced, Finmap.lookup_insert map,
        sameGroup.trans otherMember⟩
    · exact ⟨other, otherItem,
        (Finmap.lookup_insert_of_ne map same).trans otherFound, otherMember⟩

/-- A debit of no more than one item's amount drops the group only when it
takes exactly what the group holds. -/
theorem Summarises.debit_exact
    (summary : Summarises groupOf amountOf index map)
    (found : map.lookup key = some item) {group : γ} {amount stored : ℕ}
    (member : groupOf item = some group) (part : amount ≤ amountOf item)
    (storedAt : index group = some stored) (covered : stored ≤ amount) :
    stored = amount := by
  have own := summary.amount_le found member
  rw [storedAt, Option.getD_some] at own
  omega

end GroupIndex
