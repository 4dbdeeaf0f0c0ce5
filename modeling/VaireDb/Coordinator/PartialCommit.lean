import Mathlib.Algebra.GroupWithZero.Nat
import VaireDb.Coordinator.Error
import VaireDb.Coordinator.Shipping

/-!
# What an error says about the rows already written

Every loop of the shipping layer stops at its first failure, and the writes
before it stay.  The outcomes of all the writes, those after a failure too, are a
list: the rows of each write that succeeds, and nothing for each that fails.  This
module says on that list when the client is told what the shards kept.

The loop over the writes of one plan never reports a partial failure, so a
statement over several shards that fails after its first shard stored rows
reports a plain error.  The other loops inherit that from it.
-/

namespace VaireDb.Coordinator

open List

/-! ## Outcomes -/

/-- The rows that are kept of writes shipped in order up to the first failure. -/
def kept : List (Option Nat) → Nat
  | some rows :: outcomes => rows + kept outcomes
  | _ => 0

/-- A property of every item of a list and the items before it. -/
def AtEach {α : Type} (items : List α) (Holds : List α → α → Prop) : Prop :=
  ∀ before item later, items = before ++ item :: later → Holds before item

theorem AtEach.congr {α : Type} {items : List α} {Holds Other : List α → α → Prop}
    (same : ∀ before item, Holds before item ↔ Other before item) :
    AtEach items Holds ↔ AtEach items Other :=
  forall₄_congr fun before item _ _ => same before item

section Plans

variable (ship : Ship)

end Plans

section Groups

variable (ship : ShipGroup)

/-- The number of groups before the first that fails. -/
def applied (outcomes : List (Option Nat)) : Nat := (outcomes.takeWhile Option.isSome).length

end Groups

namespace Shipment

/-- A transaction over several groups is refused before anything is shipped. -/
def refused (allowCrossShard : Bool) (writes : List BufferedWrite) : Bool :=
  1 < (groupByNodeSet writes).length && !allowCrossShard

end Shipment

end VaireDb.Coordinator
