import Mathlib.Data.List.Range
import VaireDb.Lib.Checks

/-!
# Lists traversed by partial functions

What a traversal that succeeds says about each element, for the two monads a
modelled function fails in.
-/

namespace VaireDb.Lib.Traverse

open List

variable {α β γ ε : Type} {f : α → Except ε β} {items : List α}

theorem forall₂_of_mapM_ok : ∀ {results : List β}, items.mapM f = .ok results →
      Forall₂ (fun item result => f item = .ok result) items results := by
  induction items with
  | nil =>
    rintro results ⟨⟩
    exact .nil
  | cons item items induction =>
    intro results done
    rw [mapM_cons] at done
    obtain ⟨result, head, done⟩ := bind_eq_ok_iff.mp done
    obtain ⟨others, tail, done⟩ := bind_eq_ok_iff.mp done
    cases done
    exact .cons head (induction tail)

theorem exists_of_mapM_error {error : ε}
    (failed : items.mapM f = .error error) : ∃ item ∈ items, f item = .error error := by
  induction items with
  | nil => cases failed
  | cons item items induction =>
    rw [mapM_cons] at failed
    cases here : f item with rw [here] at failed
    | error other =>
      cases failed
      exact ⟨item, mem_cons_self .., here⟩
    | ok result =>
      cases later : items.mapM f with rw [later] at failed
      | error other =>
        cases failed
        obtain ⟨found, inside, is⟩ := induction later
        exact ⟨found, mem_cons_of_mem _ inside, is⟩
      | ok results => cases failed

variable {results : List β}

theorem mapM_eq_ok (each : Forall₂ (fun item result => f item = .ok result) items results) :
    items.mapM f = .ok results := by
  induction each with
  | nil => rfl
  | cons head _ induction =>
    rw [mapM_cons, head, induction]
    rfl

variable {R : α → β → Prop}

theorem mapM_eq_ok_of_related {f : α → Except ε γ} {g : β → Except ε γ}
    {others : List β} {results : List γ} (related : Forall₂ R items others)
    (step : ∀ item other result, R item other → f item = .ok result → g other = .ok result)
    (done : items.mapM f = .ok results) : others.mapM g = .ok results := by
  have each := forall₂_of_mapM_ok done
  refine mapM_eq_ok ?_
  clear done
  induction related generalizing results with
  | nil =>
    cases each
    exact .nil
  | cons head _ induction =>
    cases each with
    | cons here rest => exact .cons (step _ _ _ head here) (induction rest)

theorem mapM_eq_ok_iff {checked : α → Prop} {g : α → β}
    (each : ∀ item result, f item = .ok result ↔ checked item ∧ g item = result) :
    items.mapM f = .ok results ↔ (∀ item ∈ items, checked item) ∧ items.map g = results := by
  induction items generalizing results with
  | nil => simp [pure, Except.pure]
  | cons item items induction =>
    rw [mapM_cons, forall_mem_cons, map_cons]
    constructor
    · intro done
      obtain ⟨result, head, done⟩ := bind_eq_ok_iff.mp done
      obtain ⟨others, tail, done⟩ := bind_eq_ok_iff.mp done
      cases done
      obtain ⟨first, rfl⟩ := (each item result).mp head
      obtain ⟨rest, rfl⟩ := induction.mp tail
      exact ⟨⟨first, rest⟩, rfl⟩
    · rintro ⟨⟨first, rest⟩, rfl⟩
      rw [(each item _).mpr ⟨first, rfl⟩, induction.mpr ⟨rest, rfl⟩]
      rfl

theorem forall₂_iff_mapM {f : α → Option β} : items.mapM f = some results ↔
      Forall₂ (fun item result => f item = some result) items results := by
  induction items generalizing results with
  | nil => simp [forall₂_nil_left_iff, eq_comm]
  | cons item items induction =>
    rw [mapM_cons, forall₂_cons_left_iff]
    constructor
    · intro done
      obtain ⟨result, head, rest⟩ := Option.bind_eq_some_iff.mp done
      obtain ⟨others, tail, combined⟩ := Option.bind_eq_some_iff.mp rest
      exact ⟨result, others, head, induction.mp tail, (Option.some.inj combined).symm⟩
    · rintro ⟨result, others, head, tail, rfl⟩
      simp [head, induction.mpr tail]

theorem exists_mapM_eq_some {f : α → Option β}
    (each : ∀ item ∈ items, ∃ result, f item = some result) :
    ∃ results, items.mapM f = some results := by
  induction items with
  | nil => exact ⟨[], rfl⟩
  | cons item items induction =>
    rw [forall_mem_cons] at each
    obtain ⟨result, head⟩ := each.1
    obtain ⟨results, tail⟩ := induction each.2
    exact ⟨result :: results, by simp [head, tail]⟩

theorem exists_mapM_eq_ok (each : ∀ item ∈ items, ∃ result, f item = .ok result) :
    ∃ results, items.mapM f = .ok results := by
  induction items with
  | nil => exact ⟨[], rfl⟩
  | cons item items induction =>
    rw [forall_mem_cons] at each
    obtain ⟨result, head⟩ := each.1
    obtain ⟨results, tail⟩ := induction each.2
    refine ⟨result :: results, ?_⟩
    rw [mapM_cons, head, tail]
    rfl

theorem forM_eq_ok {f : α → Except ε Unit} (each : ∀ item ∈ items, f item = .ok ()) :
    items.forM f = .ok () := by
  induction items with
  | nil => rfl
  | cons item items induction =>
    rw [forall_mem_cons] at each
    simp only [forM_eq_forM, forM_cons] at induction ⊢
    rw [each.1]
    exact induction each.2

theorem ok_of_forM_ok {f : α → Except ε Unit} {items : List α}
    (done : items.forM f = .ok ()) {item : α} (member : item ∈ items) :
    f item = .ok () := by
  induction items with
  | nil => cases member
  | cons first items induction =>
    simp only [forM_eq_forM, forM_cons] at done
    obtain ⟨_, head, done⟩ := bind_eq_ok_iff.mp done
    rcases mem_cons.mp member with rfl | later
    · exact head
    · exact induction done later

theorem mapM_map_result (f : α → Option β) (g : β → γ) (items : List α) :
    (items.mapM fun item => (f item).map g) = (items.mapM f).map (map g) := by
  induction items with
  | nil => rfl
  | cons item items induction =>
    rw [mapM_cons, mapM_cons, induction]
    cases f item with
    | none => rfl
    | some result => cases items.mapM f <;> rfl

theorem mapM_eq_some_of_imp {f g : α → Option β} (done : items.mapM f = some results)
    (same : ∀ item ∈ items, ∀ result, f item = some result → g item = some result) :
    items.mapM g = some results := by
  rw [forall₂_iff_mapM] at done ⊢
  induction done with
  | nil => exact .nil
  | cons head _ induction =>
    rw [forall_mem_cons] at same
    exact .cons (same.1 _ head) (induction same.2)

theorem exists_of_mem_forall₂ (related : Forall₂ R items results) {result : β}
    (member : result ∈ results) : ∃ item ∈ items, R item result := by
  induction related with
  | nil => cases member
  | cons head _ induction =>
    rcases mem_cons.mp member with rfl | later
    · exact ⟨_, mem_cons_self, head⟩
    · obtain ⟨item, inside, known⟩ := induction later
      exact ⟨item, mem_cons_of_mem _ inside, known⟩

theorem forall₂_trans {S : β → γ → Prop} {T : α → γ → Prop}
    (compose : ∀ item result last, R item result → S result last → T item last)
    {lasts : List γ} (first : Forall₂ R items results) (second : Forall₂ S results lasts) :
    Forall₂ T items lasts := by
  induction first generalizing lasts with
  | nil =>
    cases second
    exact .nil
  | cons head _ induction =>
    obtain _ | ⟨next, rest⟩ := second
    exact .cons (compose _ _ _ head next) (induction rest)

theorem mem_of_lookup [BEq α] [LawfulBEq α] {entries : List (α × β)} {key : α}
    {value : β} (found : entries.lookup key = some value) :
    (key, value) ∈ entries := by
  obtain ⟨front, back, rfl, _⟩ := lookup_eq_some_iff.mp found
  simp

theorem rel_getElem? (related : Forall₂ R items results) (position : Nat) :
    Option.Rel R items[position]? results[position]? := by
  induction related generalizing position with
  | nil => exact .none
  | cons head _ induction =>
    cases position with
    | zero => exact .some head
    | succ position => exact induction position

theorem getElem?_of_forall₂ (each : Forall₂ R items results) {position : Nat}
    {item : α} (there : items[position]? = some item) :
    ∃ result, results[position]? = some result ∧ R item result := by
  have related := rel_getElem? each position
  rw [there] at related
  cases known : results[position]? with rw [known] at related
  | none => cases related
  | some result =>
    cases related with
    | some done => exact ⟨result, rfl, done⟩

theorem getElem?_of_mapM_ok (done : items.mapM f = .ok results) {position : Nat}
    {item : α} (there : items[position]? = some item) :
    ∃ result, f item = .ok result ∧ results[position]? = some result := by
  obtain ⟨result, here, applied⟩ :=
    getElem?_of_forall₂ (forall₂_of_mapM_ok done) there
  exact ⟨result, applied, here⟩

theorem forall₂_zip (related : Forall₂ R items results) :
    Forall₂ (fun item entry => entry.1 = item ∧ R item entry.2) items (items.zip results) := by
  induction related with
  | nil => exact .nil
  | cons head _ induction => exact .cons ⟨rfl, head⟩ induction

def select (items : List α) (positions : List Nat) : List α :=
  positions.filterMap fun position => items[position]?

theorem select_map (f : α → β) (items : List α) (positions : List Nat) :
    select (items.map f) positions = (select items positions).map f := by
  unfold select
  rw [map_filterMap]
  simp only [getElem?_map]

/-- The elements that satisfy a condition are those at their positions. -/
theorem select_positions (p : α → Bool) (items : List α) :
    select items ((items.zipIdx.filter fun entry => p entry.1).map Prod.snd) = items.filter p := by
  have inside : ∀ entry ∈ items.zipIdx.filter (fun entry => p entry.1),
      items[entry.2]? = some entry.1 := by
    intro entry member
    exact mem_zipIdx_iff_getElem?.mp (mem_filter.mp member).1
  have firsts : (items.zipIdx.filter fun entry => p entry.1).map Prod.fst = items.filter p := by
    have pulled := filter_map (f := Prod.fst) (p := p) (l := items.zipIdx)
    rw [zipIdx_map_fst] at pulled
    exact pulled.symm
  unfold select
  rw [filterMap_map, ← firsts, ← filterMap_eq_map]
  refine filterMap_congr fun entry member => ?_
  exact inside entry member

theorem mem_of_mem_select {positions : List Nat} {item : α}
    (member : item ∈ select items positions) : item ∈ items := by
  obtain ⟨position, _, found⟩ := mem_filterMap.mp member
  exact mem_of_getElem? found

theorem mapM_select {f g : α → Option β} (done : items.mapM f = some results) (positions : List Nat)
    (same : ∀ item ∈ select items positions, ∀ result, f item = some result →
      g item = some result) :
    (select items positions).mapM g = some (select results positions) := by
  have related := forall₂_iff_mapM.mp done
  unfold select at same ⊢
  rw [forall₂_iff_mapM]
  induction positions with
  | nil => exact .nil
  | cons position positions induction =>
    have here := rel_getElem? related position
    simp only [filterMap_cons] at same ⊢
    cases found : items[position]? with rw [found] at here same
    | none =>
      cases known : results[position]? with
      | none => exact induction same
      | some result => rw [known] at here; cases here
    | some item =>
      cases known : results[position]? with rw [known] at here
      | none => cases here
      | some result =>
        cases here with
        | some here =>
          rw [forall_mem_cons] at same
          exact .cons (same.1 result here) (induction same.2)

theorem select_range (items : List α) :
    select items (range items.length) = items := by
  unfold select
  induction items with
  | nil => rfl
  | cons item items induction =>
    rw [length_cons, range_succ_eq_map, filterMap_cons]
    simpa [filterMap_map, Function.comp_def] using induction

/-- Parts that hold each position once hold each element once. -/
theorem select_perm {γ : Type*} {parts : List γ} {positions : γ → List Nat}
    (once : (parts.flatMap positions).Perm (range items.length)) :
    (parts.flatMap fun part => select items (positions part)).Perm items := by
  have selected := once.filterMap fun position => items[position]?
  have whole := select_range items
  unfold select at *
  rw [← filterMap_flatMap]
  exact selected.trans (.of_eq whole)

end VaireDb.Lib.Traverse
