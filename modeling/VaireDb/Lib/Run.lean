import Mathlib.Logic.Relation

/-!
# Runs of a labelled transition function

A system is a partial function `step : State → Label → Option State`: the label
carries every choice the scheduler, the network or a client makes, so the
function itself is deterministic and can be executed.

`Reaches step guard` relates the two ends of a run all of whose steps meet
`guard`, a condition on the state before the step and its label.  A property of
every run is `Reaches` with the trivial guard; a property that only holds of
disciplined runs names its discipline in the guard.
-/

namespace VaireDb.Lib

variable {State Label : Type*}

/-- One step that meets `guard`. -/
def StepsTo (step : State → Label → Option State)
    (guard : State → Label → Prop) (before after : State) : Prop :=
  ∃ label, guard before label ∧ step before label = some after

/-- `after` is reached from `before` by steps that all meet `guard`. -/
def Reaches (step : State → Label → Option State)
    (guard : State → Label → Prop) : State → State → Prop :=
  Relation.ReflTransGen (StepsTo step guard)

/-- The guard that lets every step through. -/
def anyStep (_ : State) (_ : Label) : Prop := True

/-- The executable run along a list of labels. -/
def run (step : State → Label → Option State) : State → List Label → Option State
  | state, [] => some state
  | state, label :: labels =>
    (step state label).bind fun next => run step next labels

/-- Every step along a list of labels meets `guard`. -/
def Along (step : State → Label → Option State)
    (guard : State → Label → Prop) : State → List Label → Prop
  | _, [] => True
  | state, label :: labels =>
    guard state label ∧ ∀ next, step state label = some next → Along step guard next labels

theorem Along.cons {step : State → Label → Option State} {guard : State → Label → Prop}
    {state next : State} {label : Label} {labels : List Label} (holds : guard state label)
    (stepped : step state label = some next) (rest : Along step guard next labels) :
    Along step guard state (label :: labels) := by
  refine ⟨holds, fun other also => ?_⟩
  cases stepped.symm.trans also
  exact rest

/-- Two conditions that agree at every state of an invariant agree along a run, if
one of them preserves the invariant. -/
theorem along_congr {step : State → Label → Option State} (Holds : State → Prop)
    {guard condition : State → Label → Prop}
    (same : ∀ state label, Holds state → (guard state label ↔ condition state label))
    (preserved : ∀ state label next, Holds state → condition state label →
      step state label = some next → Holds next)
    {state : State} (initially : Holds state) (labels : List Label) :
    Along step guard state labels ↔ Along step condition state labels := by
  induction labels generalizing state with
  | nil => exact Iff.rfl
  | cons label labels induction =>
    constructor
    · rintro ⟨holds, rest⟩
      have met := (same state label initially).mp holds
      exact ⟨met, fun next stepped => (induction
        (preserved state label next initially met stepped)).mp (rest next stepped)⟩
    · rintro ⟨met, rest⟩
      have holds := (same state label initially).mpr met
      exact ⟨holds, fun next stepped => (induction
        (preserved state label next initially met stepped)).mpr (rest next stepped)⟩

/-- What every step of a run leads to holds at its end. -/
theorem Along.holds_at_end {step : State → Label → Option State} (Holds : State → Prop)
    {state finish : State} {labels : List Label}
    (along : Along step (fun state label => ∀ after, step state label = some after → Holds after)
      state labels) (initially : Holds state) (ran : run step state labels = some finish) :
    Holds finish := by
  induction labels generalizing state with
  | nil =>
    cases ran
    exact initially
  | cons label labels induction =>
    obtain ⟨next, stepped, rest⟩ := Option.bind_eq_some_iff.mp ran
    exact induction (along.2 next stepped) (along.1 next stepped) rest

namespace Reaches

variable {step : State → Label → Option State} {guard weaker : State → Label → Prop}

/-- The induction rule for safety: what holds at the start and survives every
guarded step holds in every state reached. -/
theorem invariant {Holds : State → Prop} {start finish : State}
    (reached : Reaches step guard start finish) (initially : Holds start)
    (preserved : ∀ before label after, Holds before → guard before label →
      step before label = some after → Holds after) :
    Holds finish := by
  induction reached with
  | refl => exact initially
  | tail _ last induction =>
    obtain ⟨label, allowed, stepped⟩ := last
    exact preserved _ label _ induction allowed stepped

/-- An executed run is a run; it meets every guard that holds along it. -/
theorem of_run {start finish : State} (labels : List Label) (along : Along step guard start labels)
    (executed : run step start labels = some finish) :
    Reaches step guard start finish := by
  induction labels generalizing start with
  | nil =>
    simp only [run, Option.some.injEq] at executed
    exact executed ▸ Relation.ReflTransGen.refl
  | cons label labels induction =>
    obtain ⟨next, stepped, rest⟩ := Option.bind_eq_some_iff.mp executed
    obtain ⟨allowed, remaining⟩ := along
    exact Relation.ReflTransGen.head ⟨label, allowed, stepped⟩
      (induction (remaining next stepped) rest)

end Reaches

end VaireDb.Lib
