import Mathlib.Data.List.Induction
import Mathlib.Data.List.Perm.Basic
import Mathlib.Order.Lattice

/-!
# Grouping a list by key

Items are entered one after another under their keys in a map that is kept ordered
by key.  The map then has one entry for each key that occurs, with the values of
that key in the order of the list.
-/

namespace VaireDb.Lib.Grouping

open List

section Map

variable {κ β : Type} [LinearOrder κ]

def push (key : κ) (value : β) : List (κ × List β) → List (κ × List β)
  | [] => [(key, [value])]
  | (first, values) :: rest =>
    if key = first then (first, values ++ [value]) :: rest
    else if key < first then (key, [value]) :: (first, values) :: rest
    else (first, values) :: push key value rest

def valuesAt (key : κ) : List (κ × List β) → List β
  | [] => []
  | (first, values) :: rest => if key = first then values else valuesAt key rest

/-- The keys ascend, so that each has one entry. -/
def Ordered (entries : List (κ × List β)) : Prop :=
  entries.Pairwise fun left right => left.1 < right.1

variable {entries : List (κ × List β)}

variable {key : κ} {value : β}

theorem key_of_mem_push {entry : κ × List β} (member : entry ∈ push key value entries) :
    entry.1 = key ∨ ∃ old ∈ entries, old.1 = entry.1 := by
  induction entries with
  | nil =>
    rw [push, mem_singleton] at member
    exact .inl (congrArg Prod.fst member)
  | cons first rest induction =>
    unfold push at member
    split at member
    · rcases mem_cons.mp member with rfl | later
      · exact .inr ⟨first, by simp, rfl⟩
      · exact .inr ⟨entry, mem_cons_of_mem _ later, rfl⟩
    · split at member
      · rcases mem_cons.mp member with rfl | later
        · exact .inl rfl
        · exact .inr ⟨entry, later, rfl⟩
      · rcases mem_cons.mp member with rfl | later
        · exact .inr ⟨_, mem_cons_self, rfl⟩
        · rcases induction later with same | ⟨old, known, same⟩
          · exact .inl same
          · exact .inr ⟨old, mem_cons_of_mem _ known, same⟩

theorem Ordered.push (ordered : Ordered entries)
    (key : κ) (value : β) : Ordered (push key value entries) := by
  induction entries with
  | nil => exact pairwise_singleton _ _
  | cons first rest induction =>
    obtain ⟨below, restOrdered⟩ := pairwise_cons.mp ordered
    unfold Grouping.push
    split
    · exact pairwise_cons.mpr ⟨below, restOrdered⟩
    · rename_i different
      split
      · rename_i less
        refine pairwise_cons.mpr ⟨fun entry member => ?_, ordered⟩
        rcases mem_cons.mp member with rfl | later
        · exact less
        · exact less.trans (below entry later)
      · rename_i notLess
        refine pairwise_cons.mpr ⟨fun entry member => ?_, induction restOrdered⟩
        rcases key_of_mem_push member with same | ⟨old, known, same⟩
        · rw [same]
          exact lt_of_le_of_ne (not_lt.mp notLess) (Ne.symm different)
        · rw [← same]
          exact below old known

theorem valuesAt_of_below (below : ∀ entry ∈ entries, key < entry.1) :
    valuesAt key entries = [] := by
  induction entries with
  | nil => rfl
  | cons first rest induction =>
    rw [forall_mem_cons] at below
    rw [valuesAt, if_neg (ne_of_lt below.1)]
    exact induction below.2

theorem valuesAt_push (ordered : Ordered entries) (key : κ) (value : β) (other : κ) :
    valuesAt other (push key value entries) =
      if other = key then valuesAt key entries ++ [value]
      else valuesAt other entries := by
  induction entries with
  | nil => simp [push, valuesAt]
  | cons first rest induction =>
    obtain ⟨below, restOrdered⟩ := pairwise_cons.mp ordered
    unfold push
    split
    · rename_i same
      subst same
      by_cases here : other = first.1 <;> simp [valuesAt, here]
    · rename_i different
      split
      · rename_i less
        have absent : valuesAt key rest = [] :=
          valuesAt_of_below fun entry member => less.trans (below entry member)
        by_cases here : other = key <;>
          simp [valuesAt, here, different, absent]
      · by_cases here : other = first.1
        · have apart : ¬ other = key := fun same => different (same ▸ here)
          simp [valuesAt, here, Ne.symm different]
        · simp [valuesAt, here, different, induction restOrdered]

theorem mem_iff_valuesAt (ordered : Ordered entries)
    (filled : ∀ entry ∈ entries, entry.2 ≠ []) (key : κ) (values : List β) :
    (key, values) ∈ entries ↔ values ≠ [] ∧ valuesAt key entries = values := by
  induction entries with
  | nil =>
    simp only [not_mem_nil, valuesAt, false_iff, not_and]
    exact fun nonempty same => nonempty same.symm
  | cons first rest induction =>
    obtain ⟨below, restOrdered⟩ := pairwise_cons.mp ordered
    obtain ⟨firstFilled, restFilled⟩ := forall_mem_cons.mp filled
    by_cases here : key = first.1
    · subst here
      simp only [valuesAt, if_pos, mem_cons]
      constructor
      · rintro (same | later)
        · obtain rfl := congrArg Prod.snd same
          exact ⟨firstFilled, rfl⟩
        · exact absurd (below _ later) (lt_irrefl _)
      · rintro ⟨-, same⟩
        exact .inl (Prod.ext rfl same.symm)
    · rw [valuesAt, if_neg here, ← induction restOrdered restFilled, mem_cons]
      refine or_iff_right fun same => here (congrArg Prod.fst same)

theorem flatMap_key (ordered : Ordered entries) (key : κ) :
    (entries.flatMap fun entry => if entry.1 = key then entry.2 else []) =
      valuesAt key entries := by
  induction entries with
  | nil => rfl
  | cons first rest induction =>
    obtain ⟨below, restOrdered⟩ := pairwise_cons.mp ordered
    rw [flatMap_cons, induction restOrdered, valuesAt]
    by_cases here : first.1 = key
    · subst here
      rw [if_pos rfl, if_pos rfl, valuesAt_of_below below, append_nil]
    · rw [if_neg here, if_neg (Ne.symm here), nil_append]

theorem filled_push (filled : ∀ entry ∈ entries, entry.2 ≠ []) :
    ∀ entry ∈ push key value entries, entry.2 ≠ [] := by
  induction entries with
  | nil => simp [push]
  | cons first rest induction =>
    obtain ⟨firstFilled, restFilled⟩ := forall_mem_cons.mp filled
    unfold push
    split
    · exact forall_mem_cons.mpr ⟨by simp, restFilled⟩
    · split
      · exact forall_mem_cons.mpr ⟨by simp, filled⟩
      · exact forall_mem_cons.mpr ⟨firstFilled, induction restFilled⟩

theorem push_perm :
    ((push key value entries).flatMap Prod.snd).Perm (entries.flatMap Prod.snd ++ [value]) := by
  induction entries with
  | nil => exact Perm.refl _
  | cons entry entries induction =>
    unfold push
    split
    · simp only [flatMap_cons, append_assoc]
      exact perm_append_comm.append_left _
    · split
      · simp only [flatMap_cons, append_assoc]
        rw [← append_assoc entry.2]
        exact perm_append_comm
      · simp only [flatMap_cons, append_assoc]
        exact induction.append_left _

end Map

section Group

variable {α κ β : Type} [LinearOrder κ] (keyOf : α → κ) (valueOf : α → β)

def group (items : List α) : List (κ × List β) :=
  items.foldl (fun entries item => push (keyOf item) (valueOf item) entries) []

theorem group_concat (items : List α) (item : α) : group keyOf valueOf (items ++ [item]) =
      push (keyOf item) (valueOf item) (group keyOf valueOf items) := by simp [group]

theorem ordered_group (items : List α) : Ordered (group keyOf valueOf items) := by
  induction items using reverseRecOn with
  | nil => exact Pairwise.nil
  | append_singleton items item induction =>
    rw [group_concat]
    exact induction.push _ _

theorem filled_group {items : List α} :
    ∀ entry ∈ group keyOf valueOf items, entry.2 ≠ [] := by
  induction items using reverseRecOn with
  | nil => simp [group]
  | append_singleton items item induction =>
    rw [group_concat]
    exact filled_push induction

theorem valuesAt_group (items : List α) (key : κ) : valuesAt key (group keyOf valueOf items) =
      (items.filter fun item => keyOf item = key).map valueOf := by
  induction items using reverseRecOn with
  | nil => rfl
  | append_singleton items item induction =>
    rw [group_concat, valuesAt_push (ordered_group keyOf valueOf items)]
    by_cases here : key = keyOf item
    · subst here
      simp [induction]
    · simp [here, Ne.symm here, induction]

/-- The entries of the groups: for each key that occurs, its values in order. -/
theorem mem_group (items : List α) (key : κ) (values : List β) :
    (key, values) ∈ group keyOf valueOf items ↔ values ≠ [] ∧
        (items.filter fun item => keyOf item = key).map valueOf = values := by
  rw [mem_iff_valuesAt (ordered_group keyOf valueOf items)
    (filled_group keyOf valueOf), valuesAt_group]

theorem group_perm (items : List α) :
    ((group keyOf valueOf items).flatMap Prod.snd).Perm (items.map valueOf) := by
  induction items using reverseRecOn with
  | nil => exact Perm.refl _
  | append_singleton items item induction =>
    rw [group_concat, map_append]
    exact (push_perm).trans (induction.append_right _)

end Group

end VaireDb.Lib.Grouping
