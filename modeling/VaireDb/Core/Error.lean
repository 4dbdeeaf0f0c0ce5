import Mathlib.Data.List.Infix
import VaireDb.Proto

/-!
# Errors of a core node

`CoreError`, its display text, the code each variant reports, and the
classification of a DuckDB failure by the words of its message.
-/

namespace VaireDb.Core

inductive CoreError where
  | engine (message : String)
  | shardNotFound (message : String)
  | writeConflict (message : String)
  | typeMismatch (message : String)
  | divisionByZero
  | writeQueue (message : String)
  | heartbeat (message : String)
  deriving DecidableEq, Repr

namespace CoreError

def display : CoreError → String
  | engine message => "engine error: " ++ message
  | shardNotFound message => "shard not found: " ++ message
  | writeConflict message => "write conflict: " ++ message
  | typeMismatch message => "type mismatch: " ++ message
  | divisionByZero => "division by zero"
  | writeQueue message => "write queue error: " ++ message
  | heartbeat message => "heartbeat error: " ++ message

def vdbErrorCode : CoreError → VdbErrorCode
  | shardNotFound _ => .shardNotFound
  | writeConflict _ => .writeConflict
  | typeMismatch _ => .typeMismatch
  | divisionByZero => .divisionByZero
  | writeQueue _ => .writeQueueFull
  | engine _ => .engineError
  | heartbeat _ => .internalError

def containsWords (text words : String) : Bool :=
  decide (words.toList <:+: text.toList)

/-- Classify a DuckDB failure by its message.  `lower` is the message in lower
case. -/
def fromDuckdb (lower message : String) : CoreError :=
  if containsWords lower "table" && (containsWords lower "does not exist" ||
        containsWords lower "not found") then
    shardNotFound message
  else if containsWords lower "division by zero" ||
      containsWords lower "divide by zero" then
    divisionByZero
  else if containsWords lower "unique constraint" || containsWords lower "duplicate key" ||
      containsWords lower "primary key constraint" then
    writeConflict message
  else if containsWords lower "conversion error" || containsWords lower "cannot cast" ||
      containsWords lower "type mismatch" then
    typeMismatch message
  else
    engine ("write execution failed: " ++ message)

end CoreError

end VaireDb.Core
