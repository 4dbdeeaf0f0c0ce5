import Mathlib.Algebra.BigOperators.Group.Finset.Basic
import Mathlib.Algebra.GroupWithZero.Nat
import VaireDb.Lib.Traverse

/-!
# Row-wise operations on a partitioned collection

A collection is kept as buckets of rows.  An operation on one bucket is a partial
function from its rows to its new rows and a count; a run applies a list of such
operations one after another.

Two kinds of runs have the same result as one operation on the whole collection:
a row-wise operation applied once to every bucket that it can change, and rows
that are appended bucket by bucket.
-/

namespace VaireDb.Lib.RowWise

open List Function Traverse Option

variable {R B : Type}

/-- Apply to each row an operation that leaves a row or nothing and says whether
the row counts. -/
def apply (onRow : R → Option (Option R × Bool)) (rows : List R) : Option (List R × Nat) :=
  (rows.mapM onRow).map fun outcomes =>
    (outcomes.filterMap Prod.fst, outcomes.countP Prod.snd)

/-- Apply operations to the buckets they name, and add up their counts. -/
def run [DecidableEq B] : List (B × (List R → Option (List R × Nat))) → (B → List R) →
      Option ((B → List R) × Nat)
  | [], rows => some (rows, 0)
  | (bucket, operation) :: rest, rows =>
    (operation (rows bucket)).bind fun result =>
      (run rest (Function.update rows bucket result.1)).map fun final =>
        (final.1, result.2 + final.2)

theorem apply_map {S : Type} (f : R → Option S) (g : S → Option R × Bool) (rows : List R) :
    apply (fun row => (f row).map g) rows = (rows.mapM f).map fun results =>
        (results.filterMap fun result => (g result).1,
          results.countP fun result => (g result).2) := by
  unfold apply
  rw [mapM_map_result, Option.map_map]
  congr 1
  funext results
  simp [filterMap_map, countP_map, comp_def]

theorem apply_append (onRow : R → Option (Option R × Bool)) (front back : List R) :
    apply onRow (front ++ back) = (apply onRow front).bind fun first =>
        (apply onRow back).map fun second =>
          (first.1 ++ second.1, first.2 + second.2) := by
  unfold apply
  rw [mapM_append]
  cases front.mapM onRow with
  | none => rfl
  | some first =>
    cases back.mapM onRow with
    | none => rfl
    | some second => simp

def CountsNone (onRow : R → Option (Option R × Bool)) (rows : List R) : Prop :=
  ∀ row ∈ rows, ∀ left, onRow row ≠ some (left, true)

variable {onRow : R → Option (Option R × Bool)} {rows after : List R} {count : Nat}

theorem exists_outcomes (done : apply onRow rows = some (after, count)) :
    ∃ outcomes, Forall₂ (fun row outcome => onRow row = some outcome) rows outcomes ∧
      after = outcomes.filterMap Prod.fst ∧ count = outcomes.countP Prod.snd := by
  obtain ⟨outcomes, each, same⟩ := map_eq_some_iff.mp done
  obtain ⟨rfl, rfl⟩ := Prod.mk.inj same
  exact ⟨outcomes, forall₂_iff_mapM.mp each, rfl, rfl⟩

theorem exists_onRow_of_apply (done : apply onRow rows = some (after, count)) {row : R}
    (member : row ∈ rows) : ∃ outcome, onRow row = some outcome := by
  obtain ⟨outcomes, related, rfl, rfl⟩ := exists_outcomes done
  clear done
  induction related with
  | nil => cases member
  | cons head _ induction =>
    rcases mem_cons.mp member with rfl | later
    · exact ⟨_, head⟩
    · exact induction later

variable {result : List R × Nat} {rows : List R}

theorem count_eq_zero_iff (done : apply onRow rows = some (after, count)) :
    count = 0 ↔ CountsNone onRow rows := by
  obtain ⟨outcomes, related, rfl, rfl⟩ := exists_outcomes done
  clear done
  induction related with
  | nil => simp [CountsNone]
  | @cons row outcome rows outcomes head _ induction =>
    obtain ⟨left, counts⟩ := outcome
    have split : CountsNone onRow (row :: rows) ↔
        (∀ left, onRow row ≠ some (left, true)) ∧ CountsNone onRow rows :=
      forall_mem_cons
    rw [split, ← induction, head]
    cases counts <;> simp

/-- An operation that keeps the rows it does not count changes nothing if it
counts none. -/
theorem apply_of_countsNone (keeps : ∀ row left, onRow row = some (left, false) → left = some row)
    (done : apply onRow rows = some (after, count)) (none : CountsNone onRow rows) :
    after = rows := by
  obtain ⟨outcomes, related, rfl, rfl⟩ := exists_outcomes done
  clear done
  induction related with
  | nil => rfl
  | @cons row outcome rows outcomes head _ induction =>
    obtain ⟨left, counts⟩ := outcome
    obtain ⟨first, others⟩ := forall_mem_cons.mp none
    cases counts with
    | true => exact (first left head).elim
    | false => simp [keeps row left head, induction others]

/-- The result of a row-wise operation that has one. -/
def outcome (onRow : R → Option (Option R × Bool)) (rows : List R) : List R × Nat :=
  (apply onRow rows).getD ([], 0)

theorem apply_eq_outcome (done : apply onRow rows = some result) :
    outcome onRow rows = result := by simp [outcome, done]

variable {rows : B → List R}

/-- A row-wise operation on the whole is the operation on each bucket. -/
theorem apply_flatMap (buckets : List B) : ∀ {after : List R} {count : Nat},
      apply onRow (buckets.flatMap rows) = some (after, count) → (∀ bucket ∈ buckets,
        apply onRow (rows bucket) = some (outcome onRow (rows bucket))) ∧
      after = buckets.flatMap (fun bucket => (outcome onRow (rows bucket)).1) ∧
      count = (buckets.map fun bucket => (outcome onRow (rows bucket)).2).sum := by
  induction buckets with
  | nil =>
    rintro after count ⟨⟩
    simp
  | cons bucket buckets induction =>
    intro after count done
    rw [flatMap_cons, apply_append] at done
    obtain ⟨first, here, rest⟩ := bind_eq_some_iff.mp done
    obtain ⟨second, there, combined⟩ := map_eq_some_iff.mp rest
    obtain ⟨rfl, rfl⟩ := Prod.mk.inj combined
    obtain ⟨each, rows, counts⟩ := induction there
    have known := apply_eq_outcome here
    refine ⟨?_, ?_, ?_⟩
    · simpa [known, here] using each
    · simp [known, rows]
    · simp [known, counts]

section Runs

variable [DecidableEq B] {onRow : R → Option (Option R × Bool)}

variable {targets : List B}

theorem run_targets : ∀ {rows : B → List R}, targets.Nodup → (∀ bucket ∈ targets,
        apply onRow (rows bucket) = some (outcome onRow (rows bucket))) →
      run (targets.map fun bucket => (bucket, apply onRow)) rows = some (fun bucket =>
            if bucket ∈ targets then (outcome onRow (rows bucket)).1
            else rows bucket, (targets.map fun bucket => (outcome onRow (rows bucket)).2).sum) := by
  induction targets with
  | nil =>
    intro rows _ _
    simp [run]
  | cons target targets induction =>
    intro rows once each
    rw [nodup_cons] at once
    rw [forall_mem_cons] at each
    let updated := update rows target (outcome onRow (rows target)).1
    have others : ∀ bucket ∈ targets, updated bucket = rows bucket := by
      intro bucket member
      refine update_of_ne ?_ _ _
      rintro rfl
      exact once.1 member
    have rest := @induction updated once.2 (by
      intro bucket member
      rw [others bucket member]
      exact each.2 bucket member)
    have counts : (targets.map fun bucket =>
          (outcome onRow (updated bucket)).2) =
        targets.map fun bucket => (outcome onRow (rows bucket)).2 := by
      refine map_congr_left fun bucket member => ?_
      rw [others bucket member]
    simp only [map_cons, run, each.1, bind_some]
    rw [rest, counts]
    simp only [map_some, sum_cons, some.injEq, Prod.mk.injEq, and_true]
    funext bucket
    by_cases first : bucket = target
    · subst first
      simp [once.1, updated]
    · simp only [mem_cons, first, false_or]
      split
      · next member => rw [others bucket member]
      · exact update_of_ne first _ _

variable {buckets : List B}

/-- The buckets that are left out add nothing exactly if each of them counts
nothing. -/
theorem sum_targets (counted : B → Nat)
    (distinct : buckets.Nodup) (once : targets.Nodup) (known : targets ⊆ buckets) :
    (targets.map counted).sum = (buckets.map counted).sum ↔
      ∀ bucket ∈ buckets, bucket ∉ targets → counted bucket = 0 := by
  have inside : targets.toFinset ⊆ buckets.toFinset := by
    intro bucket member
    exact mem_toFinset.mpr (known (mem_toFinset.mp member))
  rw [← sum_toFinset counted once, ← sum_toFinset counted distinct,
    ← Finset.sum_sdiff inside, right_eq_add, Finset.sum_eq_zero_iff]
  simp

/-- A row-wise operation that keeps the rows it does not count is applied to some
of the buckets.  It counts what it counts on the whole exactly if no row of the
other buckets counts, and leaves the same rows then. -/
theorem run_apply {after : List R}
    (keeps : ∀ row left, onRow row = some (left, false) → left = some row)
    (distinct : buckets.Nodup) (once : targets.Nodup) (known : targets ⊆ buckets)
    (whole : apply onRow (buckets.flatMap rows) = some (after, count)) :
    ∃ final total, run (targets.map fun bucket => (bucket, apply onRow)) rows =
        some (final, total) ∧
      (total = count ↔ ∀ bucket ∈ buckets, bucket ∉ targets → CountsNone onRow (rows bucket)) ∧
      (total = count → buckets.flatMap final = after) := by
  obtain ⟨each, rfl, rfl⟩ := apply_flatMap buckets whole
  have counts := sum_targets (fun bucket => (outcome onRow (rows bucket)).2) distinct once known
  refine ⟨_, _, run_targets once fun bucket member =>
    each bucket (known member), ?_, ?_⟩
  · rw [counts]
    exact forall₃_congr fun bucket member _ => count_eq_zero_iff (each bucket member)
  · intro same
    refine flatMap_congr fun bucket member => ?_
    split
    · rfl
    · rename_i absent
      have done := each bucket member
      exact (apply_of_countsNone keeps done ((count_eq_zero_iff done).mp
        (counts.mp same bucket member absent))).symm

theorem flatMap_update_perm
    {bucket : B} {added : List R} (distinct : buckets.Nodup) (member : bucket ∈ buckets) :
    (buckets.flatMap (update rows bucket (rows bucket ++ added))).Perm
        (buckets.flatMap rows ++ added) := by
  induction buckets with
  | nil => cases member
  | cons first buckets induction =>
    rw [nodup_cons] at distinct
    rw [flatMap_cons, flatMap_cons]
    by_cases here : bucket = first
    · subst here
      have others : buckets.flatMap (update rows bucket (rows bucket ++ added)) =
          buckets.flatMap rows := by
        refine flatMap_congr fun other inside => ?_
        refine update_of_ne ?_ _ _
        rintro rfl
        exact distinct.1 inside
      rw [others, update_self, append_assoc, append_assoc]
      exact perm_append_comm.append_left _
    · have rest := induction distinct.2 ((mem_cons.mp member).resolve_left here)
      rw [update_of_ne (Ne.symm here), append_assoc]
      exact rest.append_left _

def append (added rows : List R) : Option (List R × Nat) :=
  some (rows ++ added, added.length)

/-- Rows appended bucket by bucket are rows appended to the whole. -/
theorem run_append (distinct : buckets.Nodup) (additions : List (B × List R)) :
    ∀ rows : B → List R, (∀ addition ∈ additions, addition.1 ∈ buckets) →
      ∃ final, run (additions.map fun addition =>
            (addition.1, append addition.2)) rows =
          some (final, (additions.flatMap Prod.snd).length) ∧ (buckets.flatMap final).Perm
          (buckets.flatMap rows ++ additions.flatMap Prod.snd) := by
  induction additions with
  | nil =>
    intro rows _
    exact ⟨rows, rfl, by simp⟩
  | cons addition additions induction =>
    intro rows known
    rw [forall_mem_cons] at known
    obtain ⟨final, ran, combined⟩ := induction
      (update rows addition.1 (rows addition.1 ++ addition.2)) known.2
    refine ⟨final, ?_, ?_⟩
    · simp [run, append, ran]
    · rw [flatMap_cons, ← append_assoc]
      exact combined.trans ((flatMap_update_perm distinct known.1).append_right _)

end Runs

end VaireDb.Lib.RowWise
