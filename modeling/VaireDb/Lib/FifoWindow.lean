import Mathlib.Data.List.Dedup
import Mathlib.Data.List.Perm.Subperm

/-!
# A bounded first-in first-out window over a stream of keys

A window keeps the latest keys of a stream that were not already in it, oldest
first, and drops the oldest one when it is full.  `Tracks` relates the window to
the log of every key that was ever admitted, newest first.

The membership law `Tracks.mem_iff` is what a client of a bounded cache reasons
with: a recorded key is still in the window exactly as long as fewer distinct
keys than the window is wide were recorded after it.
-/

namespace VaireDb.Lib.FifoWindow

open List

variable {κ : Type*}

/-- Admit `key`, dropping the oldest key first when the window is full. -/
def push (capacity : Nat) (order : List κ) (key : κ) : List κ :=
  (if capacity ≤ order.length then order.tail else order) ++ [key]

/-- How many keys a window of the given capacity can hold.  A window of capacity
zero still holds the key that was pushed last. -/
def width (capacity : Nat) : Nat := max capacity 1

variable {fresh : κ}

theorem mem_of_mem_push {capacity : Nat} {order : List κ} {key : κ}
    (member : key ∈ push capacity order fresh) (different : key ≠ fresh) :
    key ∈ order := by
  unfold push at member
  rcases mem_append.mp member with old | new
  · split at old
    · exact mem_of_mem_tail old
    · exact old
  · exact (different (mem_singleton.mp new)).elim

variable [DecidableEq κ]

/-- The keys recorded after the latest record of `key`; `log` is newest first. -/
def since (key : κ) (log : List κ) : List κ :=
  log.takeWhile (· ≠ key)

/-- Where a recorded key stands: still in the window, followed there by exactly
the keys recorded after it, or pushed out of it by enough later keys. -/
inductive Standing (capacity : Nat) (order log : List κ) (key : κ) : Prop where
  | kept (older newer : List κ) (window : order = older ++ key :: newer)
      (later : since key log = newer.reverse) :
      Standing capacity order log key
  | dropped (absent : key ∉ order)
      (many : width capacity ≤ (since key log).dedup.length) :
      Standing capacity order log key

/-- `order` is the window left by the stream `log`. -/
structure Tracks (capacity : Nat) (order log : List κ) : Prop where
  nodup : order.Nodup
  bounded : order.length ≤ width capacity
  recorded : ∀ key, key ∈ order → key ∈ log
  standing : ∀ key, key ∈ log → Standing capacity order log key

@[simp] theorem since_cons_self (key : κ) (log : List κ) :
    since key (key :: log) = [] := by simp [since]

theorem dedup_length_cons_le {keys : List κ} :
    keys.dedup.length ≤ (fresh :: keys).dedup.length := by
  by_cases member : fresh ∈ keys
  · exact Nat.le_of_eq (by rw [dedup_cons_of_mem member])
  · rw [dedup_cons_of_notMem member]
    simp

theorem Tracks.nil (capacity : Nat) : Tracks capacity ([] : List κ) [] where
  nodup := nodup_nil
  bounded := Nat.zero_le _
  recorded := by simp
  standing := by simp

variable {capacity : Nat} {order log : List κ}

theorem Tracks.push_nodup (tracks : Tracks capacity order log) (absent : fresh ∉ order) :
    (push capacity order fresh).Nodup := by
  unfold push
  split
  · refine nodup_append.mpr ⟨tracks.nodup.tail, by simp, ?_⟩
    rintro key member other equal rfl
    rw [mem_singleton] at equal
    exact absent (equal ▸ mem_of_mem_tail member)
  · refine nodup_append.mpr ⟨tracks.nodup, by simp, ?_⟩
    rintro key member other equal rfl
    rw [mem_singleton] at equal
    exact absent (equal ▸ member)

theorem Tracks.push_standing (tracks : Tracks capacity order log)
    {key : κ} (absent : fresh ∉ order) (different : fresh ≠ key) (member : key ∈ log) :
    Standing capacity (push capacity order fresh) (fresh :: log) key := by
  have laterCons : since key (fresh :: log) = fresh :: since key log := by simp [since, different]
  cases tracks.standing key member with
  | dropped keyAbsent many =>
    refine .dropped ?_ ?_
    · intro pushed
      exact keyAbsent (mem_of_mem_push pushed (Ne.symm different))
    · rw [laterCons]
      exact Nat.le_trans many (dedup_length_cons_le)
  | kept older newer window later =>
    by_cases full : capacity ≤ order.length
    · cases older with
      | cons head rest =>
        refine .kept rest (newer ++ [fresh]) ?_ ?_
        · rw [push, if_pos full, window]
          simp
        · simp [laterCons, later]
      | nil =>
        have freshNew : fresh ∉ newer := by
          intro inside
          exact absent (by simp [window, inside])
        have newerNodup : newer.Nodup := by
          have nodup := tracks.nodup
          rw [window] at nodup
          exact (nodup_append.mp nodup).2.1.of_cons
        refine .dropped ?_ ?_
        · have keyOld : key ∉ newer := by
            have nodup := tracks.nodup
            rw [window] at nodup
            exact (nodup_cons.mp nodup).1
          rw [push, if_pos full, window]
          simp [keyOld, Ne.symm different]
        · rw [laterCons, later]
          have distinct : (fresh :: newer.reverse).Nodup :=
            nodup_cons.mpr ⟨by simpa using freshNew, nodup_reverse.mpr newerNodup⟩
          rw [Nodup.dedup distinct]
          have orderLength : order.length = newer.length + 1 := by simp [window]
          simp only [length_cons, length_reverse, width]
          omega
    · refine .kept older (newer ++ [fresh]) ?_ ?_
      · rw [push, if_neg full, window]
        simp
      · simp [laterCons, later]

/-- Admitting a key that is not in the window keeps window and log in step. -/
theorem Tracks.push (tracks : Tracks capacity order log) (absent : fresh ∉ order) :
    Tracks capacity (push capacity order fresh) (fresh :: log) where
  nodup := tracks.push_nodup absent
  bounded := by
    have bounded := tracks.bounded
    unfold FifoWindow.push width at *
    split <;> simp only [length_append, length_tail, length_singleton] <;> omega
  recorded := by
    intro key member
    by_cases same : key = fresh
    · simp [same]
    · exact mem_cons_of_mem _ (tracks.recorded key (mem_of_mem_push member same))
  standing := by
    intro key member
    by_cases same : fresh = key
    · subst same
      exact .kept (if capacity ≤ order.length then order.tail else order) []
        rfl (by simp)
    · refine tracks.push_standing absent same ?_
      exact (mem_cons.mp member).resolve_left (Ne.symm same)

/-- A key is in the window exactly when it was recorded and fewer distinct keys
than the window is wide were recorded after it. -/
theorem Tracks.mem_iff (tracks : Tracks capacity order log) (key : κ) : key ∈ order ↔
      key ∈ log ∧ (since key log).dedup.length < width capacity := by
  constructor
  · intro member
    have inLog := tracks.recorded key member
    refine ⟨inLog, ?_⟩
    cases tracks.standing key inLog with
    | dropped absent _ => exact (absent member).elim
    | kept older newer window later =>
      have lengths : order.length = older.length + (newer.length + 1) := by simp [window]
      have distinct : (since key log).dedup.length ≤ newer.length := by
        rw [later]
        simpa using (dedup_sublist newer.reverse).length_le
      have bounded := tracks.bounded
      omega
  · rintro ⟨inLog, few⟩
    cases tracks.standing key inLog with
    | dropped _ many => omega
    | kept older newer window _ => simp [window]

end VaireDb.Lib.FifoWindow
