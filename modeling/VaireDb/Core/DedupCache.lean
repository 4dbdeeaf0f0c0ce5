import Mathlib.Data.List.Induction
import VaireDb.Lib.FifoWindow
import VaireDb.Proto

/-!
# The cache of write results

`DedupCache` keeps the results of the latest batches by `write_id`, in the order
they were recorded.  `Coherent` says that its map and its queue hold the same
ids; `Tracked` adds that the queue is the window left by the log of every id
that was recorded, newest first, so that the window laws answer which ids the
cache still knows.
-/

namespace VaireDb.Core

open Lib List

structure DedupCache where
  results : String → Option (List WriteResult)
  order : List String
  capacity : Nat

namespace DedupCache

def new (capacity : Nat) : DedupCache where
  results := fun _ => none
  order := []
  capacity := capacity

/-- The results recorded for `writeId`, if the cache still has them. -/
def get (cache : DedupCache) (writeId : String) : Option (List WriteResult) :=
  cache.results writeId

def evict (cache : DedupCache) : DedupCache :=
  if cache.capacity ≤ cache.order.length then
    match cache.order with
    | [] => cache
    | evicted :: order =>
      { cache with
        results := Function.update cache.results evicted none
        order := order }
  else
    cache

/-- Record `results` for `writeId`.  An id that is present keeps what it has. -/
def insert (cache : DedupCache) (writeId : String) (results : List WriteResult) : DedupCache :=
  if (cache.results writeId).isSome then
    cache
  else
    let evicted := cache.evict
    { evicted with
      order := evicted.order ++ [writeId]
      results := Function.update evicted.results writeId (some results) }

/-- The map and the queue hold the same ids, each once. -/
structure Coherent (cache : DedupCache) : Prop where
  nodup : cache.order.Nodup
  keys : ∀ writeId, (cache.results writeId).isSome ↔ writeId ∈ cache.order

/-- What the log of recorded ids becomes when `writeId` is recorded: an id that
is still cached is not recorded again. -/
def recordId (cache : DedupCache) (writeId : String) (log : List String) : List String :=
  if (cache.results writeId).isSome then log else writeId :: log

/-- The cache is coherent and its queue is the window left by `log`. -/
structure Tracked (cache : DedupCache) (log : List String) : Prop where
  keys : ∀ writeId, (cache.results writeId).isSome ↔ writeId ∈ cache.order
  window : FifoWindow.Tracks cache.capacity cache.order log

@[simp] theorem evict_capacity {cache : DedupCache} :
    cache.evict.capacity = cache.capacity := by
  unfold evict
  split
  · split <;> rfl
  · rfl

@[simp] theorem insert_capacity {cache : DedupCache} {writeId : String}
    {results : List WriteResult} :
    (cache.insert writeId results).capacity = cache.capacity := by
  unfold insert
  split
  · rfl
  · exact evict_capacity

variable {cache : DedupCache} {writeId : String}

theorem insert_of_present (present : (cache.results writeId).isSome) (results : List WriteResult) :
    cache.insert writeId results = cache := by simp [insert, present]

theorem evict_order (cache : DedupCache) : cache.evict.order =
      if cache.capacity ≤ cache.order.length then cache.order.tail
      else cache.order := by
  unfold evict
  split
  · split
    · next empty => simp [empty]
    · next evicted order nonempty => simp [nonempty]
  · rfl

theorem get_of_get_insert_of_ne {writeId other : String}
    {recorded results : List WriteResult} (different : writeId ≠ other)
    (found : (cache.insert other recorded).get writeId = some results) :
    cache.get writeId = some results := by
  by_cases present : (cache.results other).isSome
  · rwa [insert_of_present present] at found
  · simp only [insert, get, present, Bool.false_eq_true, if_false,
      Function.update_of_ne different] at found
    change cache.results writeId = some results
    unfold evict at found
    split at found
    · split at found
      · exact found
      · rename_i evicted order nonempty
        by_cases same : writeId = evicted
        · simp [same] at found
        · simpa [same] using found
    · exact found

theorem Coherent.evict (coherent : cache.Coherent) :
    cache.evict.Coherent := by
  unfold DedupCache.evict
  split
  · split
    · exact coherent
    · rename_i evicted order nonempty
      have nodup := coherent.nodup
      rw [nonempty] at nodup
      refine ⟨(nodup_cons.mp nodup).2, ?_⟩
      intro writeId
      by_cases same : writeId = evicted
      · subst same
        simpa using (nodup_cons.mp nodup).1
      · have keys := coherent.keys writeId
        rw [nonempty] at keys
        simpa [same] using keys
  · exact coherent

theorem Coherent.insert (coherent : cache.Coherent)
    (writeId : String) (results : List WriteResult) :
    (cache.insert writeId results).Coherent := by
  by_cases present : (cache.results writeId).isSome
  · rwa [insert_of_present present]
  · have kept := coherent.evict
    have absent : writeId ∉ cache.evict.order := by
      intro member
      refine present ((coherent.keys writeId).mpr ?_)
      rw [evict_order] at member
      split at member
      · exact mem_of_mem_tail member
      · exact member
    simp only [DedupCache.insert, present]
    refine ⟨?_, ?_⟩
    · refine nodup_append.mpr ⟨kept.nodup, by simp, ?_⟩
      rintro key member other equal rfl
      exact absent (mem_singleton.mp equal ▸ member)
    · intro key
      by_cases same : key = writeId
      · simp [same]
      · simpa [same] using kept.keys key

variable {log : List String}

theorem Tracked.coherent (tracked : cache.Tracked log) : cache.Coherent :=
  ⟨tracked.window.nodup, tracked.keys⟩

theorem Tracked.new (capacity : Nat) : (DedupCache.new capacity).Tracked [] where
  keys := by simp [DedupCache.new]
  window := FifoWindow.Tracks.nil capacity

/-- Recording a batch keeps the cache in step with the log. -/
theorem Tracked.insert (tracked : cache.Tracked log) (writeId : String)
    (results : List WriteResult) :
    (cache.insert writeId results).Tracked (cache.recordId writeId log) := by
  by_cases present : (cache.results writeId).isSome
  · rw [insert_of_present present]
    simpa [recordId, present] using tracked
  · have absent : cache.results writeId = none := by simpa using present
    refine ⟨(tracked.coherent.insert writeId results).keys, ?_⟩
    have pushed : (cache.insert writeId results).order =
        FifoWindow.push cache.capacity cache.order writeId := by
      simp [DedupCache.insert, absent, FifoWindow.push, evict_order]
    rw [pushed, insert_capacity]
    simp only [recordId, present]
    refine tracked.window.push ?_
    intro member
    exact present ((tracked.keys writeId).mpr member)

/-- Which ids the cache still answers: those recorded with fewer distinct ids
recorded after them than the cache is wide. -/
theorem Tracked.get_isSome_iff (tracked : cache.Tracked log) (writeId : String) :
    (cache.get writeId).isSome ↔ writeId ∈ log ∧ (FifoWindow.since writeId log).dedup.length <
          FifoWindow.width cache.capacity := by
  rw [get, tracked.keys writeId]
  exact tracked.window.mem_iff writeId

section Calls

inductive Call where
  | get (writeId : String)
  | insert (writeId : String) (results : List WriteResult)

def after (capacity : Nat) (calls : List Call) : DedupCache :=
  calls.foldl (fun cache call =>
    match call with
    | .get _ => cache
    | .insert writeId results => cache.insert writeId results) (.new capacity)

abbrev Log := List (String × List WriteResult)

/-- What the calls record, newest first.  An insert of an id that is known counts for
nothing; `known` are the latest records. -/
def records (known : Log → Log) (calls : List Call) : Log :=
  calls.foldl (fun log call =>
    match call with
    | .get _ => log
    | .insert writeId results =>
      if ((known log).lookup writeId).isSome then log else (writeId, results) :: log) []

structure Holds (cache : DedupCache) (latest : Log) : Prop where
  order : cache.order = (latest.map Prod.fst).reverse
  results : ∀ writeId, cache.results writeId = latest.lookup writeId

theorem Holds.evict {log : Log} {room : Nat} (coherent : cache.Coherent)
    (width : max cache.capacity 1 = room + 1) (holds : cache.Holds (log.take (room + 1))) :
    cache.evict.Holds (log.take room) := by
  obtain ⟨order, results⟩ := holds
  rw [List.take_add_one] at order results
  cases oldest : log[room]? with
  | none =>
    have short : log.length ≤ room := List.getElem?_eq_none_iff.mp oldest
    simp only [oldest, Option.toList_none, List.append_nil] at order results
    have kept : cache.evict = cache := by
      unfold DedupCache.evict
      split
      · rename_i full
        have empty : cache.order = [] := by
          rw [order, List.length_reverse, List.length_map, List.length_take] at full
          rw [order, List.length_eq_zero_iff.mp (by omega : log.length = 0)]
          simp
        rw [empty]
      · rfl
    rw [kept]
    exact ⟨order, results⟩
  | some entry =>
    simp only [oldest, Option.toList_some, List.map_append, List.reverse_append] at order results
    have length : room < log.length := (List.getElem?_eq_some_iff.mp oldest).1
    have full : cache.capacity ≤ cache.order.length := by
      simp only [order, List.length_append, List.length_reverse, List.length_map, List.length_take]
      simp only [List.length_singleton]
      omega
    have absent : (log.take room).lookup entry.1 = none := by
      have nodup := coherent.nodup
      rw [order] at nodup
      refine List.lookup_eq_none_iff.mpr fun other member => bne_iff_ne.mpr fun same => ?_
      refine (List.nodup_cons.mp nodup).1 (List.mem_reverse.mpr ?_)
      exact List.mem_map.mpr ⟨other, member, same.symm⟩
    unfold DedupCache.evict
    rw [if_pos full, order]
    refine ⟨rfl, fun writeId => ?_⟩
    by_cases same : writeId = entry.1
    · simp [same, absent]
    · have other : [entry].lookup writeId = none :=
        List.lookup_eq_none_iff.mpr (by simpa using same)
      simp [same, results, List.lookup_append, other]

theorem Holds.insert {log : Log} {room : Nat} (coherent : cache.Coherent)
    (width : max cache.capacity 1 = room + 1) (holds : cache.Holds (log.take (room + 1)))
    (absent : cache.results writeId = none) (results : List WriteResult) :
    (cache.insert writeId results).Holds (((writeId, results) :: log).take (room + 1)) := by
  obtain ⟨order, kept⟩ := holds.evict coherent width
  simp only [DedupCache.insert, absent, Option.isSome_none, Bool.false_eq_true, if_false]
  refine ⟨by simp [order], fun key => ?_⟩
  by_cases same : key = writeId
  · simp [same]
  · have other : (key == writeId) = false := beq_false_of_ne same
    simp [same, kept, List.lookup_cons, other]

/-- After any calls the map and the queue hold the same ids, each once and at most
`max capacity 1` of them, and a lookup answers with the latest records. -/
theorem cache_holds_the_latest_records (capacity : Nat) (calls : List Call) :
    (after capacity calls).Coherent ∧ (after capacity calls).order.length ≤ max capacity 1 ∧
      (after capacity calls).Holds
        ((records (List.take (max capacity 1)) calls).take (max capacity 1)) := by
  obtain ⟨room, width⟩ : ∃ room, max capacity 1 = room + 1 := ⟨max capacity 1 - 1, by omega⟩
  have run : (after capacity calls).capacity = capacity ∧ (after capacity calls).Coherent ∧
      (after capacity calls).Holds ((records (take (room + 1)) calls).take (room + 1)) := by
    unfold after records
    induction calls using reverseRecOn with
    | nil => exact ⟨rfl, ⟨nodup_nil, by simp [new]⟩, ⟨rfl, by simp [new]⟩⟩
    | append_singleton calls call induction =>
      obtain ⟨size, coherent, holds⟩ := induction
      simp only [foldl_append, foldl_cons, foldl_nil]
      cases call with
      | get writeId => exact ⟨size, coherent, holds⟩
      | insert writeId results =>
        refine ⟨(insert_capacity).trans size, coherent.insert writeId results, ?_⟩
        simp only
        rw [← holds.results]
        split
        · next present => rwa [insert_of_present present]
        · rename_i absent
          exact holds.insert coherent (by rw [size, width]) (by simpa using absent) results
  obtain ⟨-, coherent, holds⟩ := run
  rw [width]
  refine ⟨coherent, ?_, holds⟩
  rw [holds.order, length_reverse, length_map]
  exact length_take_le _ _

/-- An id that is evicted and inserted again is known with its new results, and not
the id whose first insert is the latest. -/
theorem evicted_id_is_recorded_again : ¬ ∀ capacity calls writeId,
    (after capacity calls).get writeId =
      ((records id calls).take (max capacity 1)).lookup writeId := by
  intro first
  cases first 1 [.insert "a" [], .insert "b" [], .insert "a" []] "b"

end Calls

end DedupCache

end VaireDb.Core
