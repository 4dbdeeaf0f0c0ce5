import Mathlib.Data.List.AList
import Mathlib.Data.List.Sort

/-!
# Records under keys

A table of a key-value store, as Mathlib's association lists without duplicate
keys.
-/

namespace VaireDb.Lib

open List AList

abbrev Records (Key Value : Type*) := AList fun _ : Key => Value

namespace Records

variable {Key Value : Type*} [DecidableEq Key]

def values (records : Records Key Value) : List Value :=
  records.entries.map Sigma.snd

variable {records : Records Key Value} {value : Value}

theorem erase_insert {key : Key} (absent : records.lookup key = none) :
    (records.insert key value).erase key = records := by
  have notKey : key ∉ records.entries.keys := lookup_eq_none.mp absent
  refine ext ?_
  have erased : ((records.insert key value).erase key).entries =
      kerase key (records.insert key value).entries := rfl
  have head : ∀ rest : List (Sigma fun _ : Key => Value),
      kerase key (⟨key, value⟩ :: rest) = rest := fun rest => kerase_cons_eq rfl
  rw [erased, entries_insert, head, kerase_of_notMem_keys notKey]

theorem lookup_insert_eq_some {key other : Key} {value found : Value}
    (stored : (records.insert key value).lookup other = some found) :
    other = key ∧ found = value ∨ records.lookup other = some found := by
  by_cases same : other = key
  · subst same
    rw [lookup_insert] at stored
    exact .inl ⟨rfl, (Option.some.inj stored).symm⟩
  · rw [lookup_insert_ne same] at stored
    exact .inr stored

theorem lookup_erase_eq_some {key other : Key} {found : Value}
    (stored : (records.erase key).lookup other = some found) :
    records.lookup other = some found := by
  by_cases same : other = key
  · subst same
    rw [lookup_erase] at stored
    cases stored
  · rwa [lookup_erase_ne same] at stored

def inOrder [LinearOrder Key] (records : Records Key Value) : List (Sigma fun _ : Key => Value) :=
  records.entries.insertionSort fun first second => first.1 ≤ second.1

theorem mem_inOrder [LinearOrder Key] {key : Key} :
    (⟨key, value⟩ : Sigma fun _ : Key => Value) ∈ records.inOrder ↔
      records.lookup key = some value := by
  unfold inOrder
  rw [mem_insertionSort]
  exact mem_lookup_iff.symm

omit [DecidableEq Key] in
theorem nodup_inOrder [LinearOrder Key] (records : Records Key Value) : records.inOrder.Nodup :=
  (perm_insertionSort _ _).nodup_iff.mpr records.nodupKeys.nodup

def filter (keep : Key → Value → Bool) (records : Records Key Value) : Records Key Value :=
  ⟨records.entries.filter fun entry => keep entry.1 entry.2,
    List.NodupKeys.sublist List.filter_sublist records.nodupKeys⟩

theorem lookup_filter (keep : Key → Value → Bool) (records : Records Key Value) (key : Key) :
    (records.filter keep).lookup key = (records.lookup key).filter (keep key) := by
  have kept : ∀ value, (records.filter keep).lookup key = some value ↔
      records.lookup key = some value ∧ keep key value = true := by
    intro value
    have found : (records.filter keep).lookup key = some value ↔
        (⟨key, value⟩ : Sigma fun _ => Value) ∈ (records.filter keep).entries :=
      mem_lookup_iff
    have before : records.lookup key = some value ↔
        (⟨key, value⟩ : Sigma fun _ => Value) ∈ records.entries :=
      mem_lookup_iff
    rw [found, before]
    exact mem_filter
  refine Option.ext fun value => ?_
  rw [Option.filter_eq_some_iff, kept]

end Records

end VaireDb.Lib
