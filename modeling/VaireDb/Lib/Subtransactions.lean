import Mathlib.Data.List.Induction

/-!
# Nested subtransactions, and a flat buffer with marks

A block of writes with savepoints is a stack of frames: each savepoint opens a
frame above the ones that stand, a rollback to a savepoint discards the frames
above it and empties its own, and a release merges the frame of the savepoint and
those above it into the frame below.

The same block can be kept flat: one buffer of all writes, and for each savepoint
the length the buffer had when it was set.  `Stack.written` and `Stack.marks` are
this flat form of a stack, and the laws here say what each operation on the stack
does to it.
-/

namespace VaireDb.Lib

open List

/-- The frames of a block: its own writes, and above them those of the savepoints
that stand, the innermost one last. -/
inductive Stack (Name Write : Type*) where
  | block (writes : List Write)
  | savepoint (name : Name) (outer : Stack Name Write) (writes : List Write)

namespace Stack

variable {Name Write : Type*}

def add (added : List Write) : Stack Name Write → Stack Name Write
  | block writes => block (writes ++ added)
  | savepoint name outer writes => savepoint name outer (writes ++ added)

/-- The writes of every frame, in the order they were made. -/
def written : Stack Name Write → List Write
  | block writes => writes
  | savepoint _ outer writes => outer.written ++ writes

/-- For each savepoint, the number of writes before it; the innermost one last. -/
def marks : Stack Name Write → List (Name × Nat)
  | block _ => []
  | savepoint name outer _ => outer.marks ++ [(name, outer.written.length)]

@[simp] theorem written_add (added : List Write) (stack : Stack Name Write) :
    (stack.add added).written = stack.written ++ added := by
  cases stack <;> simp [add, written]

@[simp] theorem marks_add (added : List Write) (stack : Stack Name Write) :
    (stack.add added).marks = stack.marks := by
  cases stack <;> rfl

theorem mark_le (stack : Stack Name Write) :
    ∀ entry ∈ stack.marks, entry.2 ≤ stack.written.length := by
  induction stack with
  | block => simp [marks]
  | savepoint name outer writes induction =>
    intro entry member
    have shorter : outer.written.length ≤
        (savepoint name outer writes).written.length := by simp [written]
    rcases mem_append.mp member with below | own
    · exact Nat.le_trans (induction entry below) shorter
    · obtain rfl := mem_singleton.mp own
      exact shorter

theorem marks_pairwise (stack : Stack Name Write) :
    stack.marks.Pairwise fun lower upper => lower.2 ≤ upper.2 := by
  induction stack with
  | block => exact .nil
  | savepoint name outer writes induction =>
    refine pairwise_append.mpr ⟨induction, pairwise_singleton _ _, ?_⟩
    intro lower below upper own
    obtain rfl := mem_singleton.mp own
    exact mark_le outer lower below

variable [DecidableEq Name]

/-- Discard the frames above the innermost one of the name, and its writes. -/
def rollbackTo (target : Name) : Stack Name Write → Option (Stack Name Write)
  | block _ => none
  | savepoint name outer _ =>
    if name = target then some (savepoint name outer [])
    else outer.rollbackTo target

/-- Merge the innermost frame of the name, and those above it, into the one
below. -/
def release (target : Name) : Stack Name Write → Option (Stack Name Write)
  | block _ => none
  | savepoint name outer writes =>
    if name = target then some (outer.add writes)
    else (outer.release target).map (add writes)

def depth (target : Name) : Stack Name Write → Nat
  | block _ => 0
  | savepoint name outer _ =>
    outer.depth target + if name = target then 1 else 0

@[simp] theorem depth_add (target : Name) (added : List Write)
    (stack : Stack Name Write) : (stack.add added).depth target = stack.depth target := by
  cases stack <;> rfl

/-- A rollback discards what was written into the innermost frame. -/
@[simp] theorem rollbackTo_add (target : Name) (added : List Write) (stack : Stack Name Write) :
    (stack.add added).rollbackTo target = stack.rollbackTo target := by
  cases stack <;> rfl

/-- A rollback fails only if there is no savepoint of the name, and keeps their
number. -/
theorem rollbackTo_depth (target : Name) (stack : Stack Name Write) :
    match stack.rollbackTo target with
    | none => stack.depth target = 0
    | some rest => 0 < stack.depth target ∧
        rest.depth target = stack.depth target := by
  induction stack with
  | block => rfl
  | savepoint name outer writes induction =>
    by_cases same : name = target
    · simp [rollbackTo, depth, same]
    · simpa [rollbackTo, depth, same] using induction

/-- A release fails only if there is no savepoint of the name, and takes one
away. -/
theorem release_depth (target : Name) (stack : Stack Name Write) :
    match stack.release target with
    | none => stack.depth target = 0
    | some rest => stack.depth target = rest.depth target + 1 := by
  induction stack with
  | block => rfl
  | savepoint name outer writes induction =>
    by_cases same : name = target
    · simp [release, depth, same]
    · cases released : outer.release target with
      | none => simpa [release, depth, same, released] using induction
      | some rest => simpa [release, depth, same, released] using induction

end Stack

/-- The position of the last element that meets a condition. -/
def lastIndex? {α : Type*} (p : α → Bool) (items : List α) : Option Nat :=
  (items.reverse.findIdx? p).map fun fromEnd => items.length - 1 - fromEnd

section LastIndex

variable {α : Type*} (p : α → Bool)

theorem lastIndex?_concat (items : List α) (last : α) : lastIndex? p (items ++ [last]) =
      if p last then some items.length else lastIndex? p items := by
  unfold lastIndex?
  rw [reverse_append, reverse_singleton, singleton_append,
    findIdx?_cons, length_append, length_singleton]
  cases p last with
  | true => simp
  | false =>
    simp only [Bool.false_eq_true, if_false, Option.map_map, Function.comp_def]
    congr 1
    funext fromEnd
    omega

theorem lastIndex?_lt {items : List α} {position : Nat}
    (found : lastIndex? p items = some position) : position < items.length := by
  induction items using reverseRecOn with
  | nil => cases found
  | append_singleton items last induction =>
    rw [lastIndex?_concat] at found
    rw [length_append, length_singleton]
    split at found
    · cases found
      omega
    · have := induction found
      omega

end LastIndex

namespace Stack

variable {Name Write : Type*} [DecidableEq Name]

def find (target : Name) (marks : List (Name × Nat)) : Option Nat :=
  lastIndex? (fun entry => entry.1 = target) marks

theorem find_savepoint {target name : Name} {outer : Stack Name Write} {writes : List Write} :
    find target (savepoint name outer writes).marks =
      if name = target then some outer.marks.length else find target outer.marks := by
  simpa [find, marks] using lastIndex?_concat (fun entry : Name × Nat => entry.1 = target)
    outer.marks (name, outer.written.length)

/-- What a rollback to a savepoint leaves of the flat form. -/
theorem rollbackTo_flat (target : Name) (stack : Stack Name Write) :
    match stack.rollbackTo target with
    | none => find target stack.marks = none
    | some rest => ∃ position mark, find target stack.marks = some position ∧
        stack.marks[position]? = some (target, mark) ∧
        rest.marks = stack.marks.take (position + 1) ∧ rest.written = stack.written.take mark := by
  induction stack with
  | block => rfl
  | savepoint name outer writes induction =>
    by_cases same : name = target
    · subst same
      simp only [rollbackTo, if_true]
      refine ⟨outer.marks.length, outer.written.length, ?_, ?_, ?_, ?_⟩
      · rw [find_savepoint, if_pos rfl]
      · simp [marks]
      · rw [marks, marks, take_of_length_le (by simp)]
      · simp [written]
    · simp only [rollbackTo, if_neg same, find_savepoint]
      cases rolled : outer.rollbackTo target with
      | none => simpa [rolled] using induction
      | some rest =>
        simp only [rolled] at induction
        obtain ⟨position, mark, found, isMark, kept, shorter⟩ := induction
        have inside := lastIndex?_lt _ found
        have bounded : mark ≤ outer.written.length :=
          mark_le outer _ (mem_of_getElem? isMark)
        refine ⟨position, mark, found, ?_, ?_, ?_⟩
        · rw [marks, getElem?_append_left inside, isMark]
        · rw [kept, marks, take_append_of_le_length (by omega)]
        · rw [shorter, written, take_append_of_le_length bounded]

/-- What a release of a savepoint leaves of the flat form. -/
theorem release_flat (target : Name) (stack : Stack Name Write) :
    match stack.release target with
    | none => find target stack.marks = none
    | some rest => ∃ position, find target stack.marks = some position ∧
        rest.marks = stack.marks.take position ∧ rest.written = stack.written := by
  induction stack with
  | block => rfl
  | savepoint name outer writes induction =>
    by_cases same : name = target
    · subst same
      simp only [release, if_true]
      refine ⟨outer.marks.length, ?_, ?_, ?_⟩
      · rw [find_savepoint, if_pos rfl]
      · simp [marks]
      · simp [written]
    · simp only [release, if_neg same, find_savepoint]
      cases released : outer.release target with
      | none => simpa [released] using induction
      | some rest =>
        simp only [released] at induction
        obtain ⟨position, found, kept, same⟩ := induction
        have inside := lastIndex?_lt _ found
        refine ⟨position, found, ?_, ?_⟩
        · rw [marks_add, kept, marks, take_append_of_le_length (by omega)]
        · rw [written_add, same, written]

end Stack

end VaireDb.Lib
