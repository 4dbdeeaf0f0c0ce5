import Mathlib.Tactic.Common

/-!
# Shards and their names

The catalog's record of one shard, and the names its physical table and its
logical id are given.
-/

namespace VaireDb.Coordinator

structure ShardMeta where
  shardId : String
  tableName : String
  primaryNodeId : String
  replicaNodeIds : List String
  hashBucket : Nat
  deriving DecidableEq, Repr

namespace ShardMeta

def nodes (shard : ShardMeta) : List String :=
  shard.primaryNodeId :: shard.replicaNodeIds

end ShardMeta

/-- A catalog name as one plain identifier. -/
def physicalBaseName (tableName : String) : String :=
  String.ofList (tableName.toList.map fun c => if c = '.' then '_' else c)

/-- The shard-local table of a logical table on one hash bucket. -/
def shardTableName (tableName : String) (hashBucket : Nat) : String :=
  physicalBaseName tableName ++ "_shard" ++ toString hashBucket

def logicalShardId (index : Nat) : String := "shard" ++ toString index

end VaireDb.Coordinator
