import Mathlib.Tactic.Common

/-!
# Machines that answer every input

A machine takes an input in any state, moves and answers.  `Along guard` says that
a condition on the state and the input holds at each step of a run, and the
simulation rule compares the answers of two machines along a guarded run.
-/

namespace VaireDb.Lib

/-- A total transition function with an output. -/
structure Machine (State Input Output : Type*) where
  step : State → Input → State × Output

namespace Machine

variable {State Other Input Output : Type*}
  (machine : Machine State Input Output) (other : Machine Other Input Output)

def after : State → List Input → State
  | state, [] => state
  | state, input :: inputs => after (machine.step state input).1 inputs

def outputs : State → List Input → List Output
  | _, [] => []
  | state, input :: inputs =>
    (machine.step state input).2 :: outputs (machine.step state input).1 inputs

/-- Every step of a run meets `guard`. -/
def Along (guard : State → Input → Prop) : State → List Input → Prop
  | _, [] => True
  | state, input :: inputs =>
    guard state input ∧ Along guard (machine.step state input).1 inputs

theorem after_append (state : State) (first second : List Input) :
    machine.after state (first ++ second) = machine.after (machine.after state first) second := by
  induction first generalizing state with
  | nil => rfl
  | cons input inputs induction => exact induction _

theorem outputs_append (state : State) (first second : List Input) :
    machine.outputs state (first ++ second) = machine.outputs state first ++
        machine.outputs (machine.after state first) second := by
  induction first generalizing state with
  | nil => rfl
  | cons input inputs induction =>
    exact congrArg ((machine.step state input).2 :: ·) (induction _)

@[simp] theorem outputs_length (state : State) (inputs : List Input) :
    (machine.outputs state inputs).length = inputs.length := by
  induction inputs generalizing state with
  | nil => rfl
  | cons input inputs induction => exact congrArg (· + 1) (induction _)

theorem along_append (guard : State → Input → Prop) (state : State) (first second : List Input) :
    machine.Along guard state (first ++ second) ↔ machine.Along guard state first ∧
        machine.Along guard (machine.after state first) second := by
  induction first generalizing state with
  | nil => simp [Along, after]
  | cons input inputs induction =>
    refine (and_congr_right fun _ => induction _).trans ?_
    exact and_assoc.symm

variable {state : State} {inputs : List Input}

/-- A condition that fails along a run fails at a first step. -/
theorem exists_first_of_not_along {guard : State → Input → Prop}
    (fails : ¬ machine.Along guard state inputs) :
    ∃ done input rest, inputs = done ++ input :: rest ∧ machine.Along guard state done ∧
      ¬ guard (machine.after state done) input := by
  induction inputs generalizing state with
  | nil => exact absurd trivial fails
  | cons input inputs induction =>
    by_cases holds : guard state input
    · have later : ¬ machine.Along guard (machine.step state input).1 inputs :=
        fun along => fails ⟨holds, along⟩
      obtain ⟨done, next, rest, rfl, along, stops⟩ := induction later
      exact ⟨input :: done, next, rest, rfl, ⟨holds, along⟩, stops⟩
    · exact ⟨[], input, inputs, rfl, trivial, holds⟩

/-- What holds at the start and survives every step holds at the end. -/
theorem after_invariant (Holds : State → Prop)
    (preserved : ∀ state input, Holds state → Holds (machine.step state input).1)
    (initially : Holds state) (inputs : List Input) :
    Holds (machine.after state inputs) := by
  induction inputs generalizing state with
  | nil => exact initially
  | cons input inputs induction => exact induction (preserved _ _ initially)

variable {guard condition : State → Input → Prop}

/-- Two conditions on the inputs of a run that agree at every state of an invariant
agree along the run, if one of them preserves the invariant. -/
theorem along_congr_of_mem (Holds : State → Prop) (same : ∀ state, ∀ input ∈ inputs, Holds state →
      (guard state input ↔ condition state input))
    (preserved : ∀ state, ∀ input ∈ inputs, Holds state → condition state input →
      Holds (machine.step state input).1) (initially : Holds state) :
    machine.Along guard state inputs ↔ machine.Along condition state inputs := by
  induction inputs generalizing state with
  | nil => exact Iff.rfl
  | cons input inputs induction =>
    have rest : ∀ next, Holds next →
        (machine.Along guard next inputs ↔ machine.Along condition next inputs) :=
      fun next holds => induction
        (fun state later member => same state later (List.mem_cons_of_mem _ member))
        (fun state later member =>
          preserved state later (List.mem_cons_of_mem _ member)) holds
    have here := same state input List.mem_cons_self initially
    have kept := preserved state input List.mem_cons_self initially
    constructor
    · rintro ⟨holds, later⟩
      have met := here.mp holds
      exact ⟨met, (rest _ (kept met)).mp later⟩
    · rintro ⟨met, later⟩
      exact ⟨here.mpr met, (rest _ (kept met)).mpr later⟩

/-- Two conditions that agree at every state of an invariant agree along a run, if
one of them preserves the invariant. -/
theorem along_congr (Holds : State → Prop)
    (same : ∀ state input, Holds state → (guard state input ↔ condition state input))
    (preserved : ∀ state input, Holds state → condition state input →
      Holds (machine.step state input).1) (initially : Holds state) (inputs : List Input) :
    machine.Along guard state inputs ↔ machine.Along condition state inputs :=
  machine.along_congr_of_mem Holds (fun state input _ => same state input)
    (fun state input _ => preserved state input) initially

/-- The simulation rule: related states that answer alike and stay related under
every guarded step answer alike along a guarded run. -/
theorem simulation (Related : State → Other → Prop) {guard : State → Input → Prop}
    (simulates : ∀ state twin input, Related state twin → guard state input →
      Related (machine.step state input).1 (other.step twin input).1 ∧
        (machine.step state input).2 = (other.step twin input).2)
    {twin : Other} (related : Related state twin) (along : machine.Along guard state inputs) :
    Related (machine.after state inputs) (other.after twin inputs) ∧
      machine.outputs state inputs = other.outputs twin inputs := by
  induction inputs generalizing state twin with
  | nil => exact ⟨related, rfl⟩
  | cons input inputs induction =>
    obtain ⟨holds, rest⟩ := along
    obtain ⟨next, answer⟩ := simulates state twin input related holds
    obtain ⟨final, answers⟩ := induction next rest
    exact ⟨final, congrArg₂ List.cons answer answers⟩

end Machine

end VaireDb.Lib
