import VaireDb.Coordinator.Shard
import VaireDb.Lib.Records
import VaireDb.Sql.Ast

/-!
# The statements a node is sent, and its database

A node's database holds tables and indexes, and finds them by name without regard to
case.  What a table is depends on what is proved about it, so it is a parameter.

An index depends on its table: the database does not rename a table that has one, and
what it makes of a change may depend on whether the table has one.
-/

namespace VaireDb.Ddl

open Lib Sql Coordinator List AList

structure ShardIndex where
  table : String
  columns : List String
  unique : Bool
  deriving DecidableEq, Repr

structure ShardEngine (Table : Type) where
  tables : Records String Table
  indexes : Records String ShardIndex

/-- A statement for a node, without the spelling that depends on the client's. -/
inductive ShardDdl (Table : Type) where
  | createTable (name : String) (ifNotExists : Bool) (fresh : Table)
  | dropTableIfExists (name : String)
  | renameTable (name target : String)
  | alterTable (name : String) (change : Bool → Table → Option Table)
  | createIndexIfNotExists (name table : String) (columns : List String) (unique : Bool)
  | dropIndexIfExists (name : String)

namespace ShardEngine

variable {Table : Type}

/-- The name an identifier is found by. -/
def key (name : String) : String := asciiLowercase name

theorem key_append (first second : String) :
    key (first ++ second) = key first ++ key second := by simp [key, asciiLowercase]

theorem toLower_toLower {c : Char} : c.toLower.toLower = c.toLower := by
  by_cases upper : c.val ≥ 'A'.val ∧ c.val ≤ 'Z'.val
  · have lowered : c.toLower.val = c.val + ('a'.val - 'A'.val) := by
      delta Char.toLower
      rw [dif_pos upper]
    have high : ¬(c.toLower.val ≥ 'A'.val ∧ c.toLower.val ≤ 'Z'.val) := by
      rw [lowered]
      rintro ⟨_, atMost⟩
      have low := UInt32.le_iff_toNat_le.mp upper.1
      have top := UInt32.le_iff_toNat_le.mp upper.2
      have bound := UInt32.le_iff_toNat_le.mp atMost
      rw [UInt32.toNat_add] at bound
      have a : 'A'.val.toNat = 65 := rfl
      have z : 'Z'.val.toNat = 90 := rfl
      have gap : ('a'.val - 'A'.val).toNat = 32 := rfl
      rw [gap, z, Nat.mod_eq_of_lt (by omega)] at bound
      omega
    exact dif_neg high
  · have kept : c.toLower = c := dif_neg upper
    rw [kept, kept]

theorem key_key {name : String} : key (key name) = key name := by
  unfold key asciiLowercase
  rw [String.toList_ofList, map_map]
  refine congrArg String.ofList (map_congr_left fun c _ => toLower_toLower)

theorem key_canonicalizeIdent (ident : Ident) :
    key (canonicalizeIdent ident) = key ident.value := by
  unfold canonicalizeIdent
  split
  · rfl
  · exact key_key

theorem toLower_of_isDigit {c : Char} (digit : c.isDigit = true) :
    c.toLower = c := by
  have notUpper : ¬(c.val ≥ 'A'.val ∧ c.val ≤ 'Z'.val) := by
    simp only [Char.isDigit, Bool.and_eq_true, decide_eq_true_eq] at digit
    intro upper
    exact absurd (UInt32.le_trans upper.1 digit.2) (by decide)
  exact dif_neg notUpper

theorem toList_toString (bucket : Nat) :
    (toString bucket).toList = Nat.toDigits 10 bucket := by simp [toString, Nat.repr]

theorem isDigit_of_mem {bucket : Nat} {c : Char}
    (member : c ∈ Nat.toDigits 10 bucket) : c.isDigit = true :=
  Nat.isDigit_of_mem_toDigits (by decide) (by decide) member

theorem key_toString (bucket : Nat) : key (toString bucket) = toString bucket := by
  have same : (Nat.toDigits 10 bucket).map Char.toLower = Nat.toDigits 10 bucket :=
    map_congr_left (fun c member => toLower_of_isDigit (isDigit_of_mem member))
      |>.trans (map_id' _)
  unfold key asciiLowercase
  rw [toList_toString, same, ← toList_toString, String.ofList_toList]

theorem key_shardTableName (name : String) (bucket : Nat) : key (shardTableName name bucket) =
      key (physicalBaseName name) ++ "_shard" ++ toString bucket := by
  unfold shardTableName
  rw [key_append, key_append, key_toString]
  rfl

variable {bucket other : Nat}

theorem toDigits_inj (same : Nat.toDigits 10 bucket = Nat.toDigits 10 other) :
    bucket = other := by
  have value := congrArg (Nat.ofDigitChars 10 · 0) same
  simpa only [Nat.ofDigitChars_toDigits (b := 10) (by decide) (by decide)] using value

theorem logicalShardId_inj (same : logicalShardId bucket = logicalShardId other) :
    bucket = other := by
  have lists := congrArg String.toList same
  unfold logicalShardId at lists
  rw [String.toList_append, String.toList_append, toList_toString, toList_toString] at lists
  exact toDigits_inj (append_cancel_left lists)

theorem takeWhile_digits (base : List Char) (bucket : Nat) :
    ((base ++ "_shard".toList ++ Nat.toDigits 10 bucket).reverse).takeWhile Char.isDigit =
      (Nat.toDigits 10 bucket).reverse := by
  have digits : ∀ c ∈ (Nat.toDigits 10 bucket).reverse, c.isDigit = true :=
    fun c member => isDigit_of_mem (mem_reverse.mp member)
  rw [reverse_append, reverse_append, takeWhile_append_of_pos digits]
  simp

theorem suffixed_inj {first second : String} :
    first ++ "_shard" ++ toString bucket = second ++ "_shard" ++ toString other ↔
      first = second ∧ bucket = other := by
  constructor
  · intro same
    have lists := congrArg String.toList same
    simp only [String.toList_append, toList_toString] at lists
    have digits := congrArg (fun text : List Char => text.reverse.takeWhile Char.isDigit) lists
    simp only [takeWhile_digits, reverse_inj] at digits
    rw [digits] at lists
    refine ⟨String.toList_inj.mp ?_, toDigits_inj digits⟩
    exact append_cancel_right (append_cancel_right lists)
  · rintro ⟨rfl, rfl⟩
    rfl

theorem key_shardTableName_inj {first second : String} :
    key (shardTableName first bucket) = key (shardTableName second other) ↔
      key (physicalBaseName first) = key (physicalBaseName second) ∧ bucket = other := by
  rw [key_shardTableName, key_shardTableName, suffixed_inj]

variable (engine : ShardEngine Table)

def table (name : String) : Option Table :=
  engine.tables.lookup (key name)

def index (name : String) : Option ShardIndex :=
  engine.indexes.lookup (key name)

/-- Some index depends on the table. -/
def indexed (name : String) : Bool :=
  engine.indexes.values.any fun index => index.table = key name

/-- An index is there only with its table. -/
def IndexesHaveTables : Prop :=
  ∀ name, engine.table name = none → engine.indexed name = false

def createTable (name : String) (ifNotExists : Bool) (fresh : Table) : Option (ShardEngine Table) :=
  match engine.table name with
  | some _ => if ifNotExists then some engine else none
  | none => some { engine with tables := engine.tables.insert (key name) fresh }

def dropTableIfExists (name : String) : ShardEngine Table where
  tables := engine.tables.erase (key name)
  indexes := engine.indexes.filter fun _ index => index.table ≠ key name

def renameTable (name target : String) : Option (ShardEngine Table) :=
  match engine.table name with
  | none => none
  | some found =>
    if engine.indexed name ∨ key target ≠ key name ∧ (engine.table target).isSome then
      none
    else
      some { engine with
        tables := (engine.tables.erase (key name)).insert (key target) found }

/-- Change a table; an index of it is left as it is. -/
def alterTable (name : String) (change : Bool → Table → Option Table) :
    Option (ShardEngine Table) :=
  match engine.table name with
  | none => none
  | some found =>
    (change (engine.indexed name) found).map fun changed =>
      { engine with tables := engine.tables.insert (key name) changed }

def createIndexIfNotExists (name table : String)
    (columns : List String) (unique : Bool) : Option (ShardEngine Table) :=
  match engine.index name with
  | some _ => some engine
  | none =>
    if (engine.table table).isSome then
      some { engine with
        indexes := engine.indexes.insert (key name)
          { table := key table, columns := columns.map key, unique := unique } }
    else
      none

def dropIndexIfExists (name : String) : ShardEngine Table :=
  { engine with indexes := engine.indexes.erase (key name) }

def execute : ShardDdl Table → Option (ShardEngine Table)
  | .createTable name ifNotExists fresh => engine.createTable name ifNotExists fresh
  | .dropTableIfExists name => some (engine.dropTableIfExists name)
  | .renameTable name target => engine.renameTable name target
  | .alterTable name change => engine.alterTable name change
  | .createIndexIfNotExists name table columns unique =>
    engine.createIndexIfNotExists name table columns unique
  | .dropIndexIfExists name => some (engine.dropIndexIfExists name)

def executeBatch (statements : List (ShardDdl Table)) : Option (ShardEngine Table) :=
  statements.foldlM execute engine

variable {engine after : ShardEngine Table} {name other : String}

theorem table_createTable_other {ifNotExists : Bool} {fresh : Table}
    (executed : engine.createTable name ifNotExists fresh = some after)
    (different : key other ≠ key name) : after.table other = engine.table other := by
  unfold createTable at executed
  split at executed
  · split at executed <;> cases executed
    rfl
  · cases executed
    exact lookup_insert_ne different

@[simp] theorem table_dropTable : (engine.dropTableIfExists name).table name = none :=
  lookup_erase _ _

variable {target : String}

/-- A table is renamed if it is there, no index depends on it, and no other table has
the new name. -/
theorem renameTable_eq_some_iff : engine.renameTable name target = some after ↔
      ∃ found, engine.table name = some found ∧ engine.indexed name = false ∧
        (key target ≠ key name → engine.table target = none) ∧ after = { engine with
          tables := (engine.tables.erase (key name)).insert (key target) found } := by
  unfold renameTable
  cases engine.table name with
  | none => simp
  | some found =>
    simp only [Option.some.injEq, exists_eq_left']
    split
    · rename_i refused
      constructor
      · rintro ⟨⟩
      · rintro ⟨unindexed, free, _⟩
        rcases refused with indexed | ⟨different, taken⟩
        · cases unindexed.symm.trans indexed
        · rw [free different] at taken
          cases taken
    · rename_i allowed
      simp only [not_or, not_and, Bool.not_eq_true, Option.isSome_eq_false_iff,
        Option.isNone_iff_eq_none] at allowed
      constructor
      · rintro ⟨⟩
        exact ⟨allowed.1, allowed.2, rfl⟩
      · rintro ⟨_, _, rfl⟩
        rfl

theorem table_renameTable_other (executed : engine.renameTable name target = some after)
    (notName : key other ≠ key name) (notTarget : key other ≠ key target) :
    after.table other = engine.table other := by
  obtain ⟨found, _, _, _, rfl⟩ := renameTable_eq_some_iff.mp executed
  exact (lookup_insert_ne notTarget).trans (lookup_erase_ne notName)

theorem indexed_renameTable (executed : engine.renameTable name target = some after) :
    after.indexed other = engine.indexed other := by
  obtain ⟨found, _, _, _, rfl⟩ := renameTable_eq_some_iff.mp executed
  rfl

theorem alterTable_some {change : Bool → Table → Option Table}
    (executed : engine.alterTable name change = some after) :
    (∃ indexed found changed, engine.table name = some found ∧
      change indexed found = some changed ∧ after.table name = some changed) ∧
    (∀ other, key other ≠ key name → after.table other = engine.table other) ∧
    after.indexes = engine.indexes := by
  unfold alterTable at executed
  split at executed
  · cases executed
  rename_i found there
  obtain ⟨changed, accepted, rfl⟩ := Option.map_eq_some_iff.mp executed
  exact ⟨⟨_, found, changed, there, accepted, lookup_insert _⟩,
    fun other different => lookup_insert_ne different, rfl⟩

end ShardEngine

end VaireDb.Ddl
