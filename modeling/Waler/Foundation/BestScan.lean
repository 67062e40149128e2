/-
A linear scan for the best keyed item of a list.

The scan starts from a sentinel key and keeps the first item that beats
everything before it, the sentinel included.  Items without a key are skipped.
-/

import Mathlib.Order.Defs.Unbundled
import Mathlib.Data.List.Induction

namespace BestScan

universe u v

variable {α : Type u} {κ : Type v}

def step (better : κ → κ → Prop) [DecidableRel better]
    (keyOf : α → Option κ) (best : κ × Option α) (item : α) : κ × Option α :=
  match keyOf item with
  | some key => if better key best.1 then (key, some item) else best
  | none => best

def scan (better : κ → κ → Prop) [DecidableRel better]
    (keyOf : α → Option κ) (sentinel : κ) (items : List α) : κ × Option α :=
  items.foldl (step better keyOf) (sentinel, none)

/-- What a scan returns: the sentinel, or an item that beats it; and no item
beats what it returns. -/
structure Best (better : κ → κ → Prop) (keyOf : α → Option κ) (sentinel : κ)
    (items : List α) (best : κ × Option α) : Prop where
  absent : best.2 = none → best.1 = sentinel
  found : ∀ item, best.2 = some item →
    item ∈ items ∧ keyOf item = some best.1 ∧ better best.1 sentinel
  top : ∀ item ∈ items, ∀ key, keyOf item = some key → ¬ better key best.1

variable {better : κ → κ → Prop} [DecidableRel better]
  [IsStrictTotalOrder κ better] {keyOf : α → Option κ} {sentinel : κ}

omit [DecidableRel better] [IsStrictTotalOrder κ better] in
/-- An item that does not beat the best leaves it the best. -/
theorem Best.keep {items : List α} {best : κ × Option α}
    (before : Best better keyOf sentinel items best) {item : α}
    (below : ∀ key, keyOf item = some key → ¬ better key best.1) :
    Best better keyOf sentinel (items ++ [item]) best := by
  refine ⟨before.absent, ?_, ?_⟩
  · intro other isBest
    obtain ⟨member, facts⟩ := before.found other isBest
    exact ⟨List.mem_append_left _ member, facts⟩
  · intro other member key keyed
    obtain old | new := List.mem_append.mp member
    · exact before.top other old key keyed
    · rw [List.mem_singleton.mp new] at keyed
      exact below key keyed

omit [DecidableRel better] in
theorem Best.replace {items : List α} {best : κ × Option α}
    (before : Best better keyOf sentinel items best) {item : α} {key : κ}
    (keyed : keyOf item = some key) (beats : better key best.1) :
    Best better keyOf sentinel (items ++ [item]) (key, some item) := by
  have beatsSentinel : better key sentinel := by
    cases kept : best.2 with
    | none => exact before.absent kept ▸ beats
    | some old => exact trans_of better beats (before.found old kept).2.2
  refine ⟨?_, ?_, ?_⟩
  · intro impossible
    cases impossible
  · intro other isBest
    cases isBest
    exact ⟨List.mem_append_right _ List.mem_cons_self, keyed, beatsSentinel⟩
  · intro other member otherKey otherKeyed above
    obtain old | new := List.mem_append.mp member
    · exact before.top other old otherKey otherKeyed
        (trans_of better above beats)
    · rw [List.mem_singleton.mp new, keyed] at otherKeyed
      cases otherKeyed
      exact irrefl_of better key above

theorem Best.step {items : List α} {best : κ × Option α}
    (before : Best better keyOf sentinel items best) (item : α) :
    Best better keyOf sentinel (items ++ [item])
      (step better keyOf best item) := by
  unfold BestScan.step
  cases keyed : keyOf item with
  | none =>
      refine before.keep ?_
      intro key otherKeyed
      rw [keyed] at otherKeyed
      cases otherKeyed
  | some key =>
      dsimp only
      by_cases beats : better key best.1
      · rw [if_pos beats]
        exact before.replace keyed beats
      · rw [if_neg beats]
        refine before.keep ?_
        intro otherKey otherKeyed
        rw [keyed] at otherKeyed
        cases otherKeyed
        exact beats

theorem scan_best (items : List α) :
    Best better keyOf sentinel items (scan better keyOf sentinel items) := by
  induction items using List.reverseRecOn with
  | nil =>
      refine ⟨fun _ => rfl, ?_, ?_⟩
      · intro item impossible
        cases impossible
      · intro item member
        cases member
  | append_singleton items item ih =>
      unfold scan at ih ⊢
      rw [List.foldl_append]
      exact ih.step item

end BestScan
