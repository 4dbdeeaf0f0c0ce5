import Mathlib.Tactic.Common

/-!
# Computations that stop at the first error

What a sequence of checks has established when it ends without an error: each of its
steps did, and a property that every step keeps holds at the end.
-/

namespace VaireDb.Lib

universe u

variable {Error Item : Type*} {Result Next State : Type u}

variable {first : Except Error Result} {result : Next}

theorem bind_eq_ok_iff {rest : Result → Except Error Next} :
    (first >>= rest) = .ok result ↔ ∃ found, first = .ok found ∧ rest found = .ok result := by
  cases first with
  | error error =>
    constructor
    · rintro ⟨⟩
    · rintro ⟨found, ⟨⟩, _⟩
  | ok found =>
    constructor
    · intro done
      exact ⟨found, rfl, done⟩
    · rintro ⟨other, ⟨⟩, done⟩
      exact done

theorem map_eq_ok_iff {f : Result → Next} :
    first.map f = .ok result ↔ ∃ found, first = .ok found ∧ f found = result := by
  cases first <;> simp [Except.map]

variable {items : List Item}

theorem foldlM_ok_invariant {step : State → Item → Except Error State} (Holds : State → Prop)
    (kept : ∀ before item after, item ∈ items → Holds before →
      step before item = .ok after → Holds after)
    {start finish : State} (initially : Holds start)
    (done : items.foldlM step start = .ok finish) : Holds finish := by
  induction items generalizing start with
  | nil =>
    cases done
    exact initially
  | cons item items induction =>
    rw [List.foldlM_cons] at done
    obtain ⟨next, stepped, rest⟩ := bind_eq_ok_iff.mp done
    refine induction (fun before other after member => ?_) ?_ rest
    · exact kept before other after (List.mem_cons_of_mem _ member)
    · exact kept start item next (List.mem_cons_self ..) initially stepped

theorem foldlM_some_invariant {step : State → Item → Option State} (Holds : State → Prop)
    (kept : ∀ before item after, item ∈ items → Holds before →
      step before item = some after → Holds after)
    {start finish : State} (initially : Holds start)
    (done : items.foldlM step start = some finish) : Holds finish := by
  induction items generalizing start with
  | nil =>
    cases done
    exact initially
  | cons item items induction =>
    rw [List.foldlM_cons] at done
    obtain ⟨next, stepped, rest⟩ := Option.bind_eq_some_iff.mp done
    refine induction (fun before other after member => ?_) ?_ rest
    · exact kept before other after (List.mem_cons_of_mem _ member)
    · exact kept start item next (List.mem_cons_self ..) initially stepped

end VaireDb.Lib
