/-
Finite maps kept in key order, the counterpart of `std::map<K, V, Compare>`.

The key order is a parameter, as the comparison object is there, so that the
same type serves ascending and descending maps.  The entries are carried with
the proof that they are sorted; two maps with the same lookups are equal.
-/

import Mathlib.Order.RelClasses
import Mathlib.Data.List.Nodup
import Mathlib.Data.Option.Basic

universe u v

/-- A finite map whose entries are strictly sorted by the key order. -/
structure SortedMap (κ : Type u) (ν : Type v) (before : κ → κ → Prop) where
  entries : List (κ × ν)
  sorted : entries.Pairwise (fun left right => before left.1 right.1)
  deriving DecidableEq

namespace SortedMap

variable {κ : Type u} {ν : Type v} {before : κ → κ → Prop}

/-! ### Sorted entry lists -/

section Entries

variable [DecidableRel before]

def insertEntry (before : κ → κ → Prop) [DecidableRel before]
    (key : κ) (value : ν) : List (κ × ν) → List (κ × ν)
  | [] => [(key, value)]
  | head :: rest =>
      if before key head.1 then (key, value) :: head :: rest
      else if before head.1 key then head :: insertEntry before key value rest
      else (key, value) :: rest

theorem mem_insertEntry_imp {key : κ} {value : ν} {entries : List (κ × ν)}
    {entry : κ × ν} (member : entry ∈ insertEntry before key value entries) :
    entry = (key, value) ∨ entry ∈ entries := by
  induction entries with
  | nil => exact Or.inl (List.mem_singleton.mp member)
  | cons head rest ih =>
      simp only [insertEntry] at member
      split at member
      · exact List.mem_cons.mp member
      · split at member
        · rcases List.mem_cons.mp member with same | later
          · exact Or.inr (List.mem_cons.mpr (Or.inl same))
          · exact (ih later).imp_right (List.mem_cons_of_mem head)
        · exact (List.mem_cons.mp member).imp_right (List.mem_cons_of_mem head)

variable [IsStrictTotalOrder κ before]

theorem insertEntry_sorted (key : κ) (value : ν) (entries : List (κ × ν))
    (sorted : entries.Pairwise (fun left right => before left.1 right.1)) :
    (insertEntry before key value entries).Pairwise
      (fun left right => before left.1 right.1) := by
  induction entries with
  | nil => exact List.pairwise_singleton _ _
  | cons head rest ih =>
      rcases List.pairwise_cons.mp sorted with ⟨headBefore, restSorted⟩
      simp only [insertEntry]
      split
      · rename_i keyFirst
        refine List.pairwise_cons.mpr ⟨?_, sorted⟩
        intro entry member
        rcases List.mem_cons.mp member with same | later
        · subst same
          exact keyFirst
        · exact trans_of before keyFirst (headBefore entry later)
      · rename_i keyNotFirst
        split
        · rename_i keyLater
          refine List.pairwise_cons.mpr ⟨?_, ih restSorted⟩
          intro entry member
          rcases mem_insertEntry_imp member with same | later
          · subst same
            exact keyLater
          · exact headBefore entry later
        · rename_i keyNotLater
          have same : key = head.1 :=
            Std.Trichotomous.trichotomous key head.1 keyNotFirst keyNotLater
          subst same
          exact List.pairwise_cons.mpr ⟨headBefore, restSorted⟩

theorem mem_insertEntry (key : κ) (value : ν) (entries : List (κ × ν))
    (sorted : entries.Pairwise (fun left right => before left.1 right.1))
    (entry : κ × ν) :
    entry ∈ insertEntry before key value entries ↔
      entry = (key, value) ∨ (entry.1 ≠ key ∧ entry ∈ entries) := by
  induction entries with
  | nil => simp [insertEntry]
  | cons head rest ih =>
      rcases List.pairwise_cons.mp sorted with ⟨headBefore, restSorted⟩
      have apart : ∀ other : κ × ν, before key other.1 → other.1 ≠ key := by
        intro other keyFirst same
        rw [same] at keyFirst
        exact irrefl_of before key keyFirst
      simp only [insertEntry]
      split
      · rename_i keyFirst
        have headApart := apart head keyFirst
        have restApart : ∀ other ∈ rest, other.1 ≠ key := fun other member =>
          apart other (trans_of before keyFirst (headBefore other member))
        simp only [List.mem_cons]
        constructor
        · rintro (same | same | later)
          · exact Or.inl same
          · exact Or.inr ⟨same ▸ headApart, Or.inl same⟩
          · exact Or.inr ⟨restApart entry later, Or.inr later⟩
        · rintro (same | ⟨_, member⟩)
          · exact Or.inl same
          · exact Or.inr member
      · rename_i keyNotFirst
        split
        · rename_i keyLater
          have headApart : head.1 ≠ key := by
            intro same
            rw [same] at keyLater
            exact irrefl_of before key keyLater
          simp only [List.mem_cons, ih restSorted]
          constructor
          · rintro (same | same | ⟨different, later⟩)
            · exact Or.inr ⟨same ▸ headApart, Or.inl same⟩
            · exact Or.inl same
            · exact Or.inr ⟨different, Or.inr later⟩
          · rintro (same | ⟨different, same | later⟩)
            · exact Or.inr (Or.inl same)
            · exact Or.inl same
            · exact Or.inr (Or.inr ⟨different, later⟩)
        · rename_i keyNotLater
          have same : key = head.1 :=
            Std.Trichotomous.trichotomous key head.1 keyNotFirst keyNotLater
          subst same
          simp only [List.mem_cons]
          constructor
          · rintro (new | later)
            · exact Or.inl new
            · exact Or.inr ⟨apart entry (headBefore entry later), Or.inr later⟩
          · rintro (new | ⟨different, old | later⟩)
            · exact Or.inl new
            · exact absurd (congrArg Prod.fst old) different
            · exact Or.inr later

end Entries

/-! ### Operations -/

def empty : SortedMap κ ν before :=
  { entries := []
    sorted := List.Pairwise.nil }

/-- The first entry in key order, what `begin()` points at. -/
def first? (map : SortedMap κ ν before) : Option (κ × ν) :=
  map.entries.head?

section Lookup

variable [DecidableEq κ]

def find? (map : SortedMap κ ν before) (key : κ) : Option ν :=
  map.entries.lookup key

def erase (map : SortedMap κ ν before) (key : κ) : SortedMap κ ν before :=
  { entries := map.entries.filter (fun entry => entry.1 ≠ key)
    sorted := map.sorted.filter _ }

end Lookup

section Insert

variable [DecidableRel before] [IsStrictTotalOrder κ before]

def insert (map : SortedMap κ ν before) (key : κ) (value : ν) :
    SortedMap κ ν before :=
  { entries := insertEntry before key value map.entries
    sorted := insertEntry_sorted key value map.entries map.sorted }

end Insert

/-! ### Lookup laws -/

variable [DecidableEq κ] [IsStrictTotalOrder κ before]

theorem mem_entries_iff (map : SortedMap κ ν before) (key : κ) (value : ν) :
    (key, value) ∈ map.entries ↔ map.find? key = some value := by
  rcases map with ⟨entries, sorted⟩
  change (key, value) ∈ entries ↔ entries.lookup key = some value
  induction entries with
  | nil => simp
  | cons head rest ih =>
      rcases head with ⟨headKey, headValue⟩
      rcases List.pairwise_cons.mp sorted with ⟨headBefore, restSorted⟩
      by_cases same : key = headKey
      · subst same
        have absent : (key, value) ∉ rest := fun later =>
          irrefl_of before key (headBefore (key, value) later)
        simp [List.lookup_cons_self, absent, eq_comm]
      · have different : (key == headKey) = false := beq_eq_false_iff_ne.mpr same
        simp [List.lookup_cons, different, same, ih restSorted]

omit [DecidableEq κ] in
theorem keys_nodup (map : SortedMap κ ν before) :
    (map.entries.map Prod.fst).Nodup := by
  refine List.Pairwise.map Prod.fst ?_ map.sorted
  intro left right ordered same
  rw [same] at ordered
  exact irrefl_of before right.1 ordered

@[simp] theorem find?_erase (map : SortedMap κ ν before) (key other : κ) :
    (map.erase key).find? other =
      if other = key then none else map.find? other := by
  apply Option.ext
  intro value
  rw [← mem_entries_iff]
  simp only [erase, List.mem_filter, decide_eq_true_eq, mem_entries_iff]
  split
  · rename_i same
    simp [same]
  · rename_i different
    simp [different]

@[simp] theorem find?_insert [DecidableRel before]
    (map : SortedMap κ ν before) (key other : κ) (value : ν) :
    (map.insert key value).find? other =
      if other = key then some value else map.find? other := by
  apply Option.ext
  intro found
  rw [← mem_entries_iff]
  simp only [insert, mem_insertEntry key value map.entries map.sorted,
    mem_entries_iff, Prod.mk.injEq]
  split
  · rename_i same
    simp [same, eq_comm]
  · rename_i different
    simp [different]

theorem ext_find? {left right : SortedMap κ ν before}
    (same : ∀ key, left.find? key = right.find? key) : left = right := by
  have members : ∀ entry, entry ∈ left.entries ↔ entry ∈ right.entries := by
    intro entry
    rw [mem_entries_iff, mem_entries_iff, same]
  have perm : left.entries.Perm right.entries :=
    (List.perm_ext_iff_of_nodup (List.Nodup.of_map Prod.fst left.keys_nodup)
      (List.Nodup.of_map Prod.fst right.keys_nodup)).mpr members
  have entriesEq : left.entries = right.entries :=
    perm.eq_of_pairwise
      (fun a b _ _ ab ba => absurd (trans_of before ab ba) (irrefl_of before _))
      left.sorted right.sorted
  rcases left with ⟨entries, sorted⟩
  rcases right with ⟨entries', sorted'⟩
  cases entriesEq
  rfl

/-! ### The first entry -/

theorem first?_eq_none_iff (map : SortedMap κ ν before) :
    map.first? = none ↔ ∀ key, map.find? key = none := by
  constructor
  · intro none key
    have nil : map.entries = [] := List.head?_eq_none_iff.mp none
    unfold find?
    rw [nil]
    rfl
  · intro absent
    refine List.head?_eq_none_iff.mpr (List.eq_nil_iff_forall_not_mem.mpr ?_)
    intro entry member
    have found := (mem_entries_iff map entry.1 entry.2).mp member
    rw [absent] at found
    cases found

/-- The first entry is the stored entry that no stored key precedes. -/
theorem first?_eq_some_iff (map : SortedMap κ ν before) (key : κ) (value : ν) :
    map.first? = some (key, value) ↔
      map.find? key = some value ∧
        ∀ other, (map.find? other).isSome → ¬ before other key := by
  have lookups := mem_entries_iff map
  unfold first?
  cases split : map.entries with
  | nil =>
      rw [split] at lookups
      simp [← lookups]
  | cons head rest =>
      have sorted := map.sorted
      rw [split] at sorted lookups
      rcases List.pairwise_cons.mp sorted with ⟨headBefore, _⟩
      have minimal : ∀ other, (map.find? other).isSome →
          ¬ before other head.1 := by
        intro other stored precedes
        rcases Option.isSome_iff_exists.mp stored with ⟨found, foundEq⟩
        rcases List.mem_cons.mp ((lookups other found).mpr foundEq) with
          same | later
        · rw [← same] at precedes
          exact irrefl_of before other precedes
        · exact irrefl_of before other
            (trans_of before precedes (headBefore (other, found) later))
      constructor
      · intro headEq
        have same : head = (key, value) := Option.some.inj headEq
        rw [same] at minimal
        exact ⟨(lookups key value).mp (same ▸ List.mem_cons_self), minimal⟩
      · rintro ⟨found, first⟩
        have headFound : map.find? head.1 = some head.2 :=
          (lookups head.1 head.2).mp List.mem_cons_self
        have headNotBefore : ¬ before head.1 key :=
          first head.1 (by rw [headFound]; rfl)
        have keyNotBefore : ¬ before key head.1 :=
          minimal key (by rw [found]; rfl)
        have sameKey : key = head.1 :=
          Std.Trichotomous.trichotomous key head.1 keyNotBefore headNotBefore
        subst sameKey
        rw [headFound] at found
        cases found
        rfl

/-! ### Ranks -/

/-- How many stored keys precede a key. -/
def rank [DecidableRel before] (map : SortedMap κ ν before) (key : κ) : ℕ :=
  map.entries.countP (fun entry => decide (before entry.1 key))

omit [DecidableEq κ] in
theorem rank_of_getElem? [DecidableRel before] (map : SortedMap κ ν before)
    {index : ℕ} {key : κ} {value : ν}
    (stored : map.entries[index]? = some (key, value)) :
    map.rank key = index := by
  obtain ⟨inside, found⟩ := List.getElem?_eq_some_iff.mp stored
  have split : map.entries = map.entries.take index ++
      (key, value) :: map.entries.drop (index + 1) := by
    rw [← found, ← List.drop_eq_getElem_cons inside, List.take_append_drop]
  have sorted := map.sorted
  rw [split] at sorted
  obtain ⟨_, later, across⟩ := List.pairwise_append.mp sorted
  have front : (map.entries.take index).countP
      (fun entry => decide (before entry.1 key)) = index := by
    rw [List.countP_eq_length.mpr, List.length_take,
      Nat.min_eq_left (Nat.le_of_lt inside)]
    intro entry listed
    exact decide_eq_true (across entry listed (key, value)
      List.mem_cons_self)
  have back : ((key, value) :: map.entries.drop (index + 1)).countP
      (fun entry => decide (before entry.1 key)) = 0 := by
    rw [List.countP_eq_zero]
    intro entry listed precedes
    have ordered : before entry.1 key := of_decide_eq_true precedes
    rcases List.mem_cons.mp listed with same | behind
    · rw [same] at ordered
      exact irrefl_of before key ordered
    · exact irrefl_of before key (trans_of before
        ((List.pairwise_cons.mp later).1 entry behind) ordered)
  unfold rank
  rw [split, List.countP_append, front, back]
  rfl

/-- An entry stands at its rank. -/
theorem getElem?_entries_iff [DecidableRel before]
    (map : SortedMap κ ν before) (index : ℕ) (key : κ) (value : ν) :
    map.entries[index]? = some (key, value) ↔
      map.find? key = some value ∧ map.rank key = index := by
  rw [← mem_entries_iff]
  constructor
  · intro stored
    exact ⟨List.mem_of_getElem? stored, map.rank_of_getElem? stored⟩
  · rintro ⟨listed, ranked⟩
    obtain ⟨place, stored⟩ := List.mem_iff_getElem?.mp listed
    rw [← ranked, map.rank_of_getElem? stored]
    exact stored

end SortedMap
