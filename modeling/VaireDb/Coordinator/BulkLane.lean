import Mathlib
import VaireDb.Coordinator.BulkInsert

/-!
# The two lanes of materialized rows

A row that is planned in bulk and the same row as literals reach the same shard, in
the same place of its order.  What is left is the value of every cell: a literal is
read by the node, a wire value is there already, and both are cast to the declared
type of the column.  They are the same for every type but a dictionary of
dictionaries of integers or booleans, which the bulk lane ships as text.
-/

namespace VaireDb.Coordinator

open Anonymization Routing Rows Sql List Lib.Traverse

/-- A dictionary of dictionaries whose values the literal lane writes bare. -/
def NestedBare : ArrowType → Prop
  | .dictionary (.dictionary values) =>
    literalKind values = .ok .number ∨ literalKind values = .ok .boolean
  | _ => False

section Values

variable {cell : Cell} {dataType : ArrowType} {kind : LiteralKind}

theorem literalKind_of_hasType (typed : cell.HasType dataType)
    (present : cell ≠ .null) (known : literalKind dataType = .ok kind) :
    (kind = .number ∧ ∃ value, cell = .integer value) ∨
    (kind = .boolean ∧ ∃ value, cell = .boolean value) ∨
    (kind = .quoted ∧ ∃ content, cell = .text content ∨ cell = .rendered content) := by
  induction dataType with
  | dictionary values induction =>
    refine induction ?_ known
    cases cell <;> exact typed
  | null => cases cell <;> simp_all [Cell.HasType]
  | other => cases known
  | _ =>
    cases known
    cases cell <;> simp_all [Cell.HasType]

theorem literalText_of_quoted (typed : cell.HasType dataType)
    (known : literalKind dataType = .ok .quoted) :
    cell.literalText = cell.itself := by
  by_cases absent : cell = .null
  · rw [absent]
    rfl
  · rcases literalKind_of_hasType typed absent known with
      ⟨bare, -⟩ | ⟨bare, -⟩ | ⟨-, content, rfl | rfl⟩
    · cases bare
    · cases bare
    · rfl
    · rfl

theorem wireCell_of_nested (nested : NestedBare dataType) :
    wireCell dataType cell = cell.literalText := by
  match dataType, nested with
  | .dictionary (.dictionary _), _ => rfl

theorem wireCell_of_not_nested (typed : cell.HasType dataType)
    (known : literalKind dataType = .ok kind) (flat : ¬ NestedBare dataType) :
    wireCell dataType cell = cell.itself := by
  cases dataType with
  | boolean | integer => rfl
  | null | float | decimal | temporal =>
    cases known
    exact literalText_of_quoted typed rfl
  | text type =>
    cases type with
    | utf8 | largeUtf8 => rfl
    | utf8View => exact literalText_of_quoted typed rfl
  | other => cases known
  | dictionary values =>
    by_cases travels : travelsAsItself values
    · exact if_pos travels
    · have spelled : wireCell (.dictionary values) cell = cell.literalText :=
        if_neg travels
      rw [spelled]
      refine literalText_of_quoted typed ?_
      cases values with
      | boolean | integer => exact absurd rfl travels
      | null | float | decimal | temporal | text => rfl
      | other => cases known
      | dictionary inner =>
        cases kind with
        | number => exact absurd (.inl known) flat
        | boolean => exact absurd (.inr known) flat
        | quoted => exact known

theorem nodeLiteral_cellLiteral (typed : cell.HasType dataType)
    (known : literalKind dataType = .ok kind) :
    nodeLiteral (cellLiteral kind cell) = some cell.itself := by
  by_cases absent : cell = .null
  · rw [absent]
    rfl
  · rcases literalKind_of_hasType typed absent known with
      ⟨rfl, value, rfl⟩ | ⟨rfl, value, rfl⟩ | ⟨rfl, content, rfl | rfl⟩
    · exact congrArg (Option.map NodeValue.integer) (Int.toInt?_repr value)
    · cases value <;> rfl
    · rfl
    · rfl

theorem itself_eq_wireCell_iff (typed : cell.HasType dataType)
    (known : literalKind dataType = .ok kind) :
    cell.itself = wireCell dataType cell ↔ (NestedBare dataType → cell = .null) := by
  by_cases nested : NestedBare dataType
  · rw [wireCell_of_nested nested]
    constructor
    · intro same _
      by_contra absent
      have bare : kind ≠ .quoted := by
        match dataType, nested with
        | .dictionary (.dictionary values), nested =>
          rintro rfl
          rcases nested with number | boolean
          · cases number.symm.trans known
          · cases boolean.symm.trans known
      rcases literalKind_of_hasType typed absent known with
        ⟨-, value, rfl⟩ | ⟨-, value, rfl⟩ | ⟨quoted, -⟩
      · cases same
      · cases same
      · exact bare quoted
    · intro null
      rw [null nested]
      rfl
  · rw [wireCell_of_not_nested typed known nested]
    simp [nested]

variable {batch : RecordBatch}

variable {row : Nat}

theorem hasType_getD {column : Column}
    (member : column ∈ batch.columns) (within : row < batch.numRows) :
    column.cells.getD row .null ∈ column.cells := by
  have inside : row < column.cells.length := by
    rwa [batch.aligned column member]
  rw [getD_eq_getElem?_getD, getElem?_eq_getElem inside]
  exact getElem_mem _

variable {kinds : List LiteralKind}

theorem nodeLiteral_rowLiterals
    (spelled : columnKinds batch = .ok kinds) (within : row < batch.numRows) :
    (rowLiterals batch.columns kinds row).mapM nodeLiteral = some (batch.columns.map fun column =>
        (column.cells.getD row .null).itself) := by
  rw [forall₂_iff_mapM]
  have related := columnKinds_forall₂ spelled
  have typed : ∀ column ∈ batch.columns, (column.cells.getD row .null).HasType column.dataType :=
    fun column member => column.typed _ (hasType_getD member within)
  clear spelled
  generalize batch.columns = columns at related typed
  induction related with
  | nil => exact .nil
  | cons head _ induction =>
    rw [forall_mem_cons] at typed
    exact .cons (nodeLiteral_cellLiteral typed.1 head) (induction typed.2)

theorem itself_eq_wireRow_iff
    (spelled : columnKinds batch = .ok kinds) (within : row < batch.numRows) :
    (batch.columns.map fun column => (column.cells.getD row .null).itself) = wireRow batch row ↔
      ∀ column ∈ batch.columns, NestedBare column.dataType →
        column.cells.getD row .null = .null := by
  rw [wireRow, map_inj_left]
  refine forall₂_congr fun column member => ?_
  obtain ⟨position, there⟩ := getElem?_of_mem member
  obtain ⟨kind, -, known⟩ :=
    getElem?_of_forall₂ (columnKinds_forall₂ spelled) there
  exact itself_eq_wireCell_iff (column.typed _ (hasType_getD member within)) known

theorem rows_agree_iff (spelled : columnKinds batch = .ok kinds) : (∀ row < batch.numRows,
        (rowLiterals batch.columns kinds row).mapM nodeLiteral = some (wireRow batch row)) ↔
      ∀ column ∈ batch.columns, NestedBare column.dataType →
        ∀ cell ∈ column.cells, cell = .null := by
  constructor
  · intro same column member nested cell inside
    obtain ⟨row, there⟩ := List.getElem?_of_mem inside
    have within : row < batch.numRows := by
      rw [← batch.aligned column member]
      exact (List.getElem?_eq_some_iff.mp there).1
    have agree := same row within
    rw [nodeLiteral_rowLiterals spelled within, Option.some.injEq,
      itself_eq_wireRow_iff spelled within] at agree
    have null := agree column member nested
    rwa [List.getD_eq_getElem?_getD, there, Option.getD_some] at null
  · intro null row within
    rw [nodeLiteral_rowLiterals spelled within, Option.some.injEq,
      itself_eq_wireRow_iff spelled within]
    exact fun column member nested =>
      null column member nested _ (hasType_getD member within)

end Values

section Lanes

variable {display : SqlDisplay} {hash : String → UInt64}
  {encodedSize memorySize : List (List NodeValue) → Nat}
  {hmac : String → String → String} {resolver : String → Option Secret}
  {texts : Conversions}
  {toWriteParam : Option ScalarValue → Nat → Except CoordinatorError WriteParam}
  {table : TableMeta} {schema : TableSchema} {target : RowTarget}
  {keyColumn : Nat}

/-- The kinds of a batch that has them. -/
private def kindsOf (batch : RecordBatch) : List LiteralKind :=
  (columnKinds batch).toOption.getD []

/-- The rows of a shard in a batch, in both forms. -/
private def ownEntries (display : SqlDisplay) (hash : String → UInt64)
    (table : TableMeta) (keyColumn : Nat) (shard : ShardMeta)
    (batch : RecordBatch) : List (List NodeValue × List Expr) :=
  ((List.range batch.numRows).filter fun row =>
    OwnRow display hash table keyColumn shard
      (rowLiterals batch.columns (kindsOf batch) row)).map fun row =>
        (wireRow batch row, rowLiterals batch.columns (kindsOf batch) row)

private def AllPlanned (display : SqlDisplay) (hash : String → UInt64)
    (table : TableMeta) (schema : TableSchema) (target : RowTarget)
    (keyColumn : Nat) (batches : List RecordBatch) (bulk : List (List BulkWrite)) :
    Prop :=
  List.Forall₂ (fun batch writes => BulkPlanned display hash table schema target
    batch (kindsOf batch) keyColumn writes) batches bulk

variable {batches : List RecordBatch} {bulk : List (List BulkWrite)}

theorem bulkRowsOf_eq (planned : AllPlanned display hash table schema target keyColumn batches bulk)
    (shard : ShardMeta) :
    bulkRowsOf shard bulk.flatten =
      (batches.flatMap (ownEntries display hash table keyColumn shard)).map Prod.fst := by
  induction planned with
  | nil => rfl
  | cons head _ induction =>
    rw [flatten_cons, bulkRowsOf_append, induction, head.ownRows shard,
      flatMap_cons, map_append, ownEntries, map_map]
    rfl

variable {batch : RecordBatch}

theorem arity_of_literal {writes : List ShardWrite}
    (accepted : planLiteralRows display hash hmac resolver texts toWriteParam table
      schema target batch = .ok writes) :
    batch.columns.length = target.columns.length := by
  unfold planLiteralRows insertStatementsFromBatches at accepted
  by_contra different
  have width : batch.columns.length ≠ target.template.columns.length := by
    rwa [target.template_eq.1, quotedColumnNames, length_map]
  have refused : ∃ reason, batchRows target.template.columns.length batch = .error reason := by
    unfold batchRows
    rw [if_pos width]
    exact ⟨_, rfl⟩
  obtain ⟨reason, refused⟩ := refused
  rw [mapM_cons, refused] at accepted
  split at accepted
  · cases accepted
  rename_i done
  split at done
  · cases done
  · cases done

theorem shardRowsOf_eq {literal : List (List ShardWrite)}
    (planned : AllPlanned display hash table schema target keyColumn batches bulk)
    (accepted : Forall₂ (fun batch writes => planLiteralRows display hash hmac
      resolver texts toWriteParam table schema target batch = .ok writes) batches literal)
    (shard : ShardMeta) :
    shardRowsOf shard literal.flatten =
      (batches.flatMap (ownEntries display hash table keyColumn shard)).map Prod.snd := by
  induction planned generalizing literal with
  | nil =>
    obtain rfl := forall₂_nil_left_iff.mp accepted
    rfl
  | cons head _ induction =>
    obtain ⟨writes, others, done, rest, rfl⟩ :=
      forall₂_cons_left_iff.mp accepted
    obtain ⟨same, again, own⟩ := head.literalRows (arity_of_literal done)
    cases done.symm.trans again
    rw [flatMap_cons, map_append, ← induction rest, flatten_cons, ownEntries, map_map]
    have first := own shard
    simp only [shardRowsOf, filter_append, flatMap_append] at first ⊢
    rw [first]
    rfl

theorem stored_eq_iff {bulk : List BulkWrite} {literal : List ShardWrite}
    {entries : ShardMeta → List (List NodeValue × List Expr)}
    (bulkRows : ∀ shard, bulkRowsOf shard bulk = (entries shard).map Prod.fst)
    (literalRows : ∀ shard, shardRowsOf shard literal = (entries shard).map Prod.snd) :
    (∀ (V : Type) (cast : Nat → NodeValue → V) shard,
        bulkStored cast shard bulk = literalStored cast shard literal) ↔
      ∀ shard, ∀ entry ∈ entries shard, entry.2.mapM nodeLiteral = some entry.1 := by
  have ofBulk : ∀ (V : Type) (cast : Nat → NodeValue → V) shard, bulkStored cast shard bulk =
        (entries shard).map fun entry => some (castRow cast entry.1) := by
    intro V cast shard
    rw [bulkStored, ← map_flatMap]
    exact (congrArg _ (bulkRows shard)).trans (map_map ..)
  have ofLiteral : ∀ (V : Type) (cast : Nat → NodeValue → V) shard,
      literalStored cast shard literal = (entries shard).map fun entry =>
          (entry.2.mapM nodeLiteral).map (castRow cast) := by
    intro V cast shard
    rw [literalStored, ← map_flatMap]
    exact (congrArg _ (literalRows shard)).trans (map_map ..)
  constructor
  · intro same shard entry member
    have plain : ∀ row : List NodeValue, castRow (fun _ value => value) row = row :=
      fun row => ext_getElem? fun position => by simp [castRow]
    have stored := same NodeValue (fun _ value => value) shard
    rw [ofBulk, ofLiteral, map_inj_left] at stored
    have agree := stored entry member
    cases read : entry.2.mapM nodeLiteral with
    | none => rw [read] at agree; cases agree
    | some row =>
      rw [read, Option.map_some, plain, plain] at agree
      exact agree.symm
  · intro same V cast shard
    rw [ofBulk, ofLiteral]
    refine map_congr_left fun entry member => ?_
    rw [same shard entry member, Option.map_some]

theorem exists_shard_of_row {kinds : List LiteralKind}
    {writes : List BulkWrite} {row : Nat}
    (planned : BulkPlanned display hash table schema target batch kinds keyColumn
      writes) (within : row < batch.numRows) :
    ∃ shard, OwnRow display hash table keyColumn shard (rowLiterals batch.columns kinds row) := by
  obtain ⟨expr, routing, given, routed⟩ := planned.routable row within
  have inBucket : rowBucket display hash table [] keyColumn (rowLiterals batch.columns kinds row) =
        some (computeShardIndex hash routing table.shards.length) := by
    simp [rowBucket, rowRouting, given, routed]
  obtain ⟨shard, owner⟩ := planned.owned row within _ inBucket
  have bucket := (shardForBucket_hashBucket owner).2
  exact ⟨shard, bucket.symm ▸ owner, bucket.symm ▸ inBucket⟩

theorem entries_agree_iff
    (planned : AllPlanned display hash table schema target keyColumn batches bulk) :
    (∀ shard, ∀ entry ∈ batches.flatMap (ownEntries display hash table keyColumn shard),
          entry.2.mapM nodeLiteral = some entry.1) ↔
      ∀ batch ∈ batches, ∀ column ∈ batch.columns, NestedBare column.dataType →
        ∀ cell ∈ column.cells, cell = .null := by
  have each : ∀ batch ∈ batches, ∃ writes, BulkPlanned display hash table schema
      target batch (kindsOf batch) keyColumn writes := by
    intro batch member
    obtain ⟨position, there⟩ := getElem?_of_mem member
    obtain ⟨writes, -, done⟩ := getElem?_of_forall₂ planned there
    exact ⟨writes, done⟩
  constructor
  · intro agree batch member
    obtain ⟨writes, done⟩ := each batch member
    refine (rows_agree_iff done.spelled).mp fun row within => ?_
    obtain ⟨shard, own⟩ := exists_shard_of_row done within
    refine agree shard (wireRow batch row, rowLiterals batch.columns (kindsOf batch) row) ?_
    refine mem_flatMap.mpr ⟨batch, member, mem_map.mpr ⟨row, ?_, rfl⟩⟩
    exact mem_filter.mpr ⟨mem_range.mpr within, by simpa using own⟩
  · intro null shard entry member
    obtain ⟨batch, inBatches, inside⟩ := mem_flatMap.mp member
    obtain ⟨row, own, rfl⟩ := mem_map.mp inside
    obtain ⟨writes, done⟩ := each batch inBatches
    exact (rows_agree_iff done.spelled).mpr (null batch inBatches) row
      (mem_range.mp (mem_filter.mp own).1)

variable (hmac resolver texts toWriteParam)

/-- The rows of batches the bulk planner accepts have keys the literal lane
accepts; and the literal lane stores the same rows on every shard, in the same
order, exactly if the batches have the target's width and no dictionary of
dictionaries in them has a bare value. -/
theorem bulk_lane_stores_literal_rows_iff {batches : List RecordBatch}
    {bulk : List (List BulkWrite)}
    (accepted : List.Forall₂ (fun batch writes => planBulkInsert display hash
      encodedSize memorySize table schema target batch = .ok (some writes)) batches bulk) :
    (∀ batch ∈ batches, ∃ kinds keyIndex, columnKinds batch = .ok kinds ∧
      shardKeyColumnIndex target.template.columns table.shardKey = some keyIndex ∧
      ∀ row < batch.numRows, validateRowShardKey display table.shardKey keyIndex []
        (rowLiterals batch.columns kinds row) = .ok ()) ∧
    ((∃ literal, List.Forall₂ (fun batch writes => planLiteralRows display hash hmac resolver
          texts toWriteParam table schema target batch = .ok writes) batches literal ∧
        ∀ (V : Type) (cast : Nat → NodeValue → V) shard, bulkStored cast shard bulk.flatten =
            literalStored cast shard literal.flatten) ↔
      ∀ batch ∈ batches, batch.columns.length = target.columns.length ∧
        ∀ column ∈ batch.columns, NestedBare column.dataType →
          ∀ cell ∈ column.cells, cell = .null) := by
  obtain ⟨keyColumn, planned⟩ : ∃ keyColumn, AllPlanned display hash table schema
      target keyColumn batches bulk := by
    have each := accepted
    cases accepted with
    | nil => exact ⟨0, .nil⟩
    | cons head tail =>
      obtain ⟨kinds, keyColumn, done⟩ := exists_bulkPlanned head
      refine ⟨keyColumn, each.imp fun batch writes accepted => ?_⟩
      obtain ⟨kinds, key, planned⟩ := exists_bulkPlanned accepted
      cases done.keyed.symm.trans planned.keyed
      have same : kindsOf batch = kinds := by
        rw [kindsOf, planned.spelled]
        rfl
      rwa [same]
  constructor
  · intro batch member
    obtain ⟨position, there⟩ := getElem?_of_mem member
    obtain ⟨writes, -, done⟩ := getElem?_of_forall₂ planned there
    refine ⟨kindsOf batch, keyColumn, done.spelled,
      (shardKeyColumnIndex_template target _).trans done.keyed, ?_⟩
    intro row within
    obtain ⟨expr, routing, given, routed⟩ := done.routable row within
    simp only [validateRowShardKey, given, routed]
  · constructor
    · rintro ⟨literal, literalAccepted, same⟩
      have agree := (stored_eq_iff (bulkRowsOf_eq planned)
        (shardRowsOf_eq planned literalAccepted)).mp same
      have null := (entries_agree_iff planned).mp agree
      intro batch member
      obtain ⟨position, there⟩ := getElem?_of_mem member
      obtain ⟨writes, -, done⟩ :=
        getElem?_of_forall₂ literalAccepted there
      exact ⟨arity_of_literal done, null batch member⟩
    · intro wellFormed
      have accepts : ∀ batch ∈ batches, ∃ writes, planLiteralRows display hash hmac
          resolver texts toWriteParam table schema target batch = .ok writes := by
        intro batch member
        obtain ⟨position, there⟩ := getElem?_of_mem member
        obtain ⟨_, -, done⟩ := getElem?_of_forall₂ planned there
        obtain ⟨writes, literalAccepted, -⟩ :=
          done.literalRows (wellFormed batch member).1
        exact ⟨writes, literalAccepted⟩
      obtain ⟨literal, gathered⟩ := exists_mapM_eq_ok accepts
      have literalAccepted := forall₂_of_mapM_ok gathered
      refine ⟨literal, literalAccepted, ?_⟩
      refine (stored_eq_iff (bulkRowsOf_eq planned) (shardRowsOf_eq planned literalAccepted)).mpr ?_
      exact (entries_agree_iff planned).mpr fun batch member =>
        (wellFormed batch member).2

end Lanes

def flagsTable : TableMeta where
  tableName := "flags"
  shardKey := "id"
  shards :=
    [{ shardId := "flags:shard0"
       tableName := "flags"
       primaryNodeId := "n1"
       replicaNodeIds := []
       hashBucket := 0 }]

def flagsSchema : TableSchema where
  columns := ["id", "raised"]
  anonymized := []

def flagsTarget : RowTarget where
  table := "flags"
  columns := ["id", "raised"]
  template :=
    { table := [{ value := "flags", quoted := true }]
      columns := quotedColumnNames ["id", "raised"]
      source := .values [[.value .null, .value .null]]
      onConflict := none }
  built := rfl

/-- One row: the key `a`, and `true` in a column of the given type. -/
def flagBatch (dataType : ArrowType)
    (typed : (Cell.boolean true).HasType dataType) : RecordBatch where
  columns :=
    [{ name := "id"
       dataType := .text .utf8
       cells := [.text "a"]
       typed := by simp [Cell.HasType] },
     { name := "raised"
       dataType := dataType
       cells := [.boolean true]
       typed := by simpa using typed }]
  numRows := 1
  aligned := by simp

/-- The casts of the columns, the second of which is an `INTEGER`.  None of the texts
here is an integer. -/
def flagCast (position : Nat) (value : NodeValue) : Option NodeValue :=
  if position = 0 then
    some value
  else
    match value with
    | .boolean true => some (.integer 1)
    | .boolean false => some (.integer 0)
    | .text _ => none
    | value => some value

/-- The same table on two shards. -/
def pairOfFlags : TableMeta where
  tableName := "flags"
  shardKey := "id"
  shards := [1, 0].map fun bucket =>
    { shardId := "flags:shard" ++ toString bucket
      tableName := "flags"
      primaryNodeId := "n1"
      replicaNodeIds := []
      hashBucket := bucket }

def flagHash (routing : String) : UInt64 := if routing = "'a'" then 0 else 1

/-- Three rows: `a` and `true`, `b` and no flag, `c` and `false`. -/
def threeFlags : RecordBatch where
  columns :=
    [{ name := "id"
       dataType := .text .utf8
       cells := [.text "a", .text "b", .text "c"]
       typed := by simp [Cell.HasType] },
     { name := "raised"
       dataType := .boolean
       cells := [.boolean true, .null, .boolean false]
       typed := by simp [Cell.HasType] }]
  numRows := 3
  aligned := by simp

/-- Rows of two shards are stored alike, and the second shard has two of them. -/
theorem boolean_column_is_stored_alike : ∃ bulk,
    planBulkInsert plainDisplay flagHash List.length List.length pairOfFlags
        flagsSchema flagsTarget threeFlags = .ok (some bulk) ∧
    ∀ texts toWriteParam, ∃ literal, planLiteralRows plainDisplay flagHash (fun _ text => text)
        (fun _ => none) texts toWriteParam pairOfFlags flagsSchema flagsTarget threeFlags =
          .ok literal ∧ (∀ shard, bulkStored flagCast shard bulk =
        literalStored flagCast shard literal) ∧
      (pairOfFlags.shards.map fun shard => literalStored flagCast shard literal) =
        [[some [some (.text "b"), some .null], some [some (.text "c"), some (.integer 0)]],
          [some [some (.text "a"), some (.integer 1)]]] := by
  obtain ⟨bulk, accepted⟩ : ∃ bulk, planBulkInsert plainDisplay flagHash length length
      pairOfFlags flagsSchema flagsTarget threeFlags = .ok (some bulk) := ⟨_, rfl⟩
  refine ⟨bulk, accepted, fun texts toWriteParam => ?_⟩
  obtain ⟨-, same⟩ := bulk_lane_stores_literal_rows_iff (fun _ text => text)
    (fun _ => none) texts toWriteParam (.cons accepted .nil)
  have wellFormed : ∀ batch ∈ [threeFlags], batch.columns.length =
      flagsTarget.columns.length ∧ ∀ column ∈ batch.columns, NestedBare column.dataType → ∀ cell ∈
      column.cells, cell = .null := by simp [threeFlags, flagsTarget, NestedBare]
  obtain ⟨literals, planned, stored⟩ := same.mpr wellFormed
  obtain ⟨literal, _, head, none, rfl⟩ := forall₂_cons_left_iff.mp planned
  obtain rfl := forall₂_nil_left_iff.mp none
  refine ⟨literal, head, fun shard => ?_, ?_⟩
  · simpa using stored _ flagCast shard
  · cases head
    rfl

/-- A dictionary of dictionaries of booleans: the literal `true` is cast to 1, the
text is not. -/
theorem nested_dictionary_is_stored_otherwise : ∃ bulk,
    planBulkInsert plainDisplay (fun _ => 0) List.length List.length flagsTable
        flagsSchema flagsTarget
        (flagBatch (.dictionary (.dictionary .boolean)) trivial) = .ok (some bulk) ∧
    ∀ texts toWriteParam, ∃ literal, planLiteralRows plainDisplay (fun _ => 0) (fun _ text => text)
        (fun _ => none) texts toWriteParam flagsTable flagsSchema flagsTarget
        (flagBatch (.dictionary (.dictionary .boolean)) trivial) = .ok literal ∧
      (flagsTable.shards.map fun shard => bulkStored flagCast shard bulk) =
        [[some [some (.text "a"), none]]] ∧
      (flagsTable.shards.map fun shard => literalStored flagCast shard literal) =
        [[some [some (.text "a"), some (.integer 1)]]] := by
  refine ⟨_, rfl, fun texts toWriteParam => ⟨_, rfl, ?_, rfl⟩⟩
  have alone := bulkPayloads_singleton length maxBulkPayloadBytes length
    [NodeValue.text "a", NodeValue.text "true"]
  show [bulkStored flagCast _ (((bulkPayloads length maxBulkPayloadBytes
    length [[NodeValue.text "a", NodeValue.text "true"]]).map _) ++ [])] = _
  rw [alone]
  rfl

end VaireDb.Coordinator
