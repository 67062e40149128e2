/-
Totals over Mathlib's finite maps.

A total adds a natural-number weight of every stored value.  The rules say how
a total moves when one key is bound, rebound or removed, when it is positive,
and how large it can get over a finite key type.
-/

import Mathlib.Data.Finmap
import Mathlib.Algebra.Order.BigOperators.Group.Multiset
import Mathlib.Algebra.Group.Action.Defs
import Mathlib.Algebra.Order.Ring.Nat
import Mathlib.Data.Fintype.Card

universe u v

namespace FiniteMap

variable {κ : Type u} {ν : Type v} [DecidableEq κ]

/-! ### One key at a time -/

theorem insert_erase_of_lookup {map : Finmap (fun _ : κ => ν)} {key : κ}
    {value : ν} (found : map.lookup key = some value) :
    (map.erase key).insert key value = map := by
  apply Finmap.ext_lookup
  intro other
  by_cases same : other = key
  · subst same
    rw [Finmap.lookup_insert, found]
  · rw [Finmap.lookup_insert_of_ne _ same, Finmap.lookup_erase_ne same]

theorem insert_erase (map : Finmap (fun _ : κ => ν)) (key : κ) (value : ν) :
    (map.erase key).insert key value = map.insert key value := by
  apply Finmap.ext_lookup
  intro other
  by_cases same : other = key
  · subst same
    rw [Finmap.lookup_insert, Finmap.lookup_insert]
  · rw [Finmap.lookup_insert_of_ne _ same, Finmap.lookup_erase_ne same,
      Finmap.lookup_insert_of_ne _ same]

theorem erase_of_notMem {map : Finmap (fun _ : κ => ν)} {key : κ}
    (absent : key ∉ map) : map.erase key = map := by
  apply Finmap.ext_lookup
  intro other
  by_cases same : other = key
  · subst same
    rw [Finmap.lookup_erase, Finmap.lookup_eq_none.mpr absent]
  · rw [Finmap.lookup_erase_ne same]

theorem notMem_erase_self (map : Finmap (fun _ : κ => ν)) (key : κ) :
    key ∉ map.erase key := fun member => (Finmap.mem_erase.mp member).1 rfl

theorem entries_of_lookup {map : Finmap (fun _ : κ => ν)} {key : κ}
    {value : ν} (found : map.lookup key = some value) :
    map.entries = ⟨key, value⟩ ::ₘ (map.erase key).entries := by
  have rebuilt := insert_erase_of_lookup found
  rw [← Finmap.entries_insert_of_notMem (notMem_erase_self map key), rebuilt]

theorem entries_insert (map : Finmap (fun _ : κ => ν)) (key : κ) (value : ν) :
    (map.insert key value).entries =
      ⟨key, value⟩ ::ₘ (map.erase key).entries := by
  rw [← Finmap.entries_insert_of_notMem (notMem_erase_self map key),
    insert_erase]

theorem mem_entries_iff (map : Finmap (fun _ : κ => ν)) (key : κ) (value : ν) :
    (⟨key, value⟩ : Sigma fun _ : κ => ν) ∈ map.entries ↔
      map.lookup key = some value :=
  Finmap.lookup_eq_some_iff.symm

/-! ### Totals -/

def total (weight : ν → ℕ) (map : Finmap (fun _ : κ => ν)) : ℕ :=
  (map.entries.map (fun entry => weight entry.2)).sum

variable {weight : ν → ℕ}

theorem total_of_lookup {map : Finmap (fun _ : κ => ν)} {key : κ} {value : ν}
    (found : map.lookup key = some value) :
    total weight map = weight value + total weight (map.erase key) := by
  unfold total
  rw [entries_of_lookup found, Multiset.map_cons, Multiset.sum_cons]

theorem total_insert (map : Finmap (fun _ : κ => ν)) (key : κ) (value : ν) :
    total weight (map.insert key value) =
      weight value + total weight (map.erase key) := by
  unfold total
  rw [entries_insert, Multiset.map_cons, Multiset.sum_cons]

theorem total_pos_iff (map : Finmap (fun _ : κ => ν)) :
    0 < total weight map ↔
      ∃ key value, map.lookup key = some value ∧ 0 < weight value := by
  constructor
  · intro positive
    by_contra none
    have zero : total weight map = 0 := by
      refine Multiset.sum_eq_zero ?_
      intro amount member
      rcases Multiset.mem_map.mp member with ⟨⟨key, value⟩, stored, weightEq⟩
      have found := (mem_entries_iff map key value).mp stored
      by_contra nonzero
      exact none ⟨key, value, found, by
        rw [← weightEq] at nonzero
        exact Nat.pos_of_ne_zero nonzero⟩
    omega
  · rintro ⟨key, value, found, positive⟩
    rw [total_of_lookup found]
    omega

omit [DecidableEq κ] in
theorem total_zero (map : Finmap (fun _ : κ => ν)) :
    total (fun _ => 0) map = 0 := by
  unfold total
  rw [Multiset.map_const', Multiset.sum_replicate, nsmul_zero]

omit [DecidableEq κ] in
theorem total_add (first second : ν → ℕ) (map : Finmap (fun _ : κ => ν)) :
    total (fun value => first value + second value) map =
      total first map + total second map :=
  Multiset.sum_map_add

omit [DecidableEq κ] in
theorem total_mono {smaller larger : ν → ℕ}
    (below : ∀ value, smaller value ≤ larger value)
    (map : Finmap (fun _ : κ => ν)) :
    total smaller map ≤ total larger map :=
  Multiset.sum_map_le_sum_map _ _ (fun entry _ => below entry.2)

omit [DecidableEq κ] in
/-- With finitely many keys, a bounded weight has a bounded total. -/
theorem total_le_card_mul [Fintype κ] (bound : ℕ)
    (bounded : ∀ value, weight value ≤ bound)
    (map : Finmap (fun _ : κ => ν)) :
    total weight map ≤ Fintype.card κ * bound := by
  have perEntry : total weight map ≤ Multiset.card map.entries * bound := by
    unfold total
    have sumLe := Multiset.sum_le_card_nsmul
      (map.entries.map (fun entry => weight entry.2)) bound (by
        intro amount member
        rcases Multiset.mem_map.mp member with ⟨entry, _, weightEq⟩
        rw [← weightEq]
        exact bounded entry.2)
    rwa [Multiset.card_map, smul_eq_mul] at sumLe
  have keysLe : Multiset.card map.entries ≤ Fintype.card κ := by
    have cardEq : map.keys.card = Multiset.card map.entries := by
      unfold Finmap.keys
      exact Multiset.card_map _ _
    rw [← cardEq]
    exact Finset.card_le_univ map.keys
  exact perEntry.trans (Nat.mul_le_mul_right bound keysLe)

end FiniteMap
