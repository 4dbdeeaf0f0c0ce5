import VaireDb.Coordinator.Error
import VaireDb.Sql.Ast

/-!
# Where DuckDB reads PostgreSQL differently

`rejectDuckDbDivergent` judges a statement as the client wrote it, and
`transformToDuckDb` rewrites the accepted one before it is shipped.  Both work
node by node; the statement-level functions run them at every depth.

The conversions of string contents that the rewrites call (`TO_CHAR` templates
and `bytea` text) are parameters.
-/

namespace VaireDb.Sql

open Coordinator

structure Conversions where
  translatePgDatetimeFormat : String → String
  /-- The bytes of a `bytea` text, or the message and code of its refusal. -/
  byteaDecode : String → Except (String × VdbErrorCode) (List UInt8)

def displayIdent (ident : Ident) : String :=
  if ident.quoted then "\"" ++ ident.value ++ "\"" else ident.value

def displayName (name : ObjectName) : String :=
  String.intercalate "." (name.map displayIdent)

def DataType.charLength : DataType → Option (String × Nat)
  | character (some length) => some ("CHARACTER", length)
  | char (some length) => some ("CHAR", length)
  | characterVarying (some length) => some ("CHARACTER VARYING", length)
  | charVarying (some length) => some ("CHAR VARYING", length)
  | varchar (some length) => some ("VARCHAR", length)
  | _ => none

def isByteOrderCollation (collation : ObjectName) : Bool :=
  match collation.getLast? with
  | none => false
  | some name =>
    name.value == "C" || name.value == "POSIX" || asciiLowercase name.value == "ucs_basic" ||
      asciiLowercase name.value == "default"

def isDivision : Expr → Bool
  | .binaryOp _ .divide _ | .binaryOp _ .modulo _ => true
  | _ => false

def containsDivision (expr : Expr) : Bool :=
  expr.subexpressions.any isDivision

def untranslatableByteaCast : CoordinatorError :=
  .unsupported ("CAST to BYTEA is only supported on the write path for a string " ++
    "literal: PostgreSQL reads the text through its own bytea input conversion, " ++
    "where '\\xDEADBEEF' is four bytes, and a shard would instead reinterpret " ++
    "the characters and store different bytes; write the value as a literal, or " ++
    "send it as a bytea parameter")

variable (texts : Conversions)

def rejectUntranslatableByteaCast : Expr → Except CoordinatorError Unit
  | .value (.singleQuotedString content) =>
    match texts.byteaDecode content with
    | .ok _ => .ok ()
    | .error (message, code) => .error (.invalidValue message code)
  | .value .null | .value (.placeholder _) => .ok ()
  | _ => .error untranslatableByteaCast

inductive SimilarToReject where
  | nonLiteralPattern
  | invalidEscape
  | invalidPattern (cause : String)

def SimilarToReject.message : SimilarToReject → String
  | nonLiteralPattern =>
    "SIMILAR TO with a non-literal pattern is not supported: the pattern is " ++
      "translated to a regular expression before the query runs, so it has to " ++
      "be a string literal; use regexp_like() to match a computed pattern"
  | invalidEscape => "invalid escape string: it must be empty or one character"
  | invalidPattern cause => "invalid SIMILAR TO pattern: " ++ cause

/-- The state of the scan over a `SIMILAR TO` pattern. -/
structure SimilarToScan where
  out : List Char
  afterEscape : Bool
  inCharClass : Bool
  quotes : Nat

/-- One character of the pattern. -/
def SimilarToScan.step (escape : Option Char) (scan : SimilarToScan) (c : Char) :
    SimilarToScan :=
  if scan.afterEscape then
    if c = '"' ∧ scan.inCharClass = false then
      { scan with
        out := scan.out ++ [if scan.quotes % 2 = 0 then '(' else ')']
        quotes := scan.quotes + 1
        afterEscape := false }
    else
      { scan with out := scan.out ++ ['\\', c], afterEscape := false }
  else if some c = escape then
    { scan with afterEscape := true }
  else if scan.inCharClass then
    { scan with
      out := scan.out ++ (if c = '\\' then ['\\', c] else [c])
      inCharClass := c ≠ ']' }
  else if c = '[' then
    { scan with out := scan.out ++ ['['], inCharClass := true }
  else if c = '%' then
    { scan with out := scan.out ++ ['.', '*'] }
  else if c = '_' then
    { scan with out := scan.out ++ ['.'] }
  else if c = '(' then
    { scan with out := scan.out ++ ['(', '?', ':'] }
  else if c = '\\' ∨ c = '.' ∨ c = '^' ∨ c = '$' then
    { scan with out := scan.out ++ ['\\', c] }
  else
    { scan with out := scan.out ++ [c] }

def similarToRegex (pattern : String) (escape : Option Char) : Except String String :=
  let scan := pattern.toList.foldl (SimilarToScan.step escape)
    { out := ['^', '(', '?', ':']
      afterEscape := false
      inCharClass := false
      quotes := 0 }
  if scan.afterEscape then
    .error "the pattern ends with its escape character"
  else
    .ok (String.ofList (scan.out ++ [')', '$']))

def similarToRegexFromAst (pattern : Expr) (escapeChar : Option Value) :
    Except SimilarToReject String :=
  match pattern with
  | .value (.singleQuotedString text) =>
    let translate escape :=
      match similarToRegex text escape with
      | .ok regex => .ok regex
      | .error cause => .error (.invalidPattern cause)
    match escapeChar with
    | none => translate (some '\\')
    | some (.singleQuotedString content) =>
      match content.toList with
      | [] => translate none
      | [c] => translate (some c)
      | _ => .error .invalidEscape
    | some _ => .error .invalidEscape
  | _ => .error .nonLiteralPattern

/-- The judgement on one expression node. -/
def checkExpr : Expr → Except CoordinatorError Unit
  | .collate _ collation =>
    if isByteOrderCollation collation then
      .ok ()
    else
      .error (.unsupported ("COLLATE " ++ displayName collation ++
        " is not supported on the write path: VaireDB compares and orders " ++
        "text by byte value, and a shard applying its own collation instead " ++
        "would not agree with the read path; omit the COLLATE, or use \"C\""))
  | .cast kind inner dataType =>
    match dataType.charLength with
    | some (name, length) =>
      .error (.unsupported ("CAST to " ++ name ++ "(" ++ toString length ++
        ") is not supported: the length is not enforced, so the cast would " ++
        "neither truncate nor pad and the value would be stored unchanged; " ++
        "cast to TEXT, or truncate explicitly with substr()"))
    | none =>
      if dataType = .bytea ∧ (kind = .cast ∨ kind = .doubleColon) then
        rejectUntranslatableByteaCast texts inner
      else
        .ok ()
  | .binaryOp _ op right =>
    if (op = .divide ∨ op = .modulo) ∧ containsDivision right then
      .error (.unsupported ("a division or modulo whose divisor is itself a " ++
        "division or modulo is not supported on the write path: the divisor " ++
        "is evaluated twice to check it against zero, so nesting one inside " ++
        "another would grow the statement exponentially; compute the inner " ++
        "division first, or parenthesize the expression so the divisions are " ++
        "not nested"))
    else
      .ok ()
  | .similarTo _ _ pattern escapeChar =>
    match similarToRegexFromAst pattern escapeChar with
    | .ok _ => .ok ()
    | .error reject => .error (.unsupported reject.message)
  | _ => .ok ()

/-- Refuse a statement for the first of its expressions that is refused. -/
def rejectDuckDbDivergent (stmt : Statement Expr) : Except CoordinatorError Unit :=
  stmt.expressions.forM (checkExpr texts)

def call (name : String) (args : List Expr) : Expr :=
  .function [Ident.new name] args

def string (content : String) : Expr := .value (.singleQuotedString content)

def int (text : String) : Expr := .value (.number text)

def negateIf (negated : Bool) (inner : Expr) : Expr :=
  if negated then .unaryOp .not inner else inner

def translateFormatArg : Expr → Expr
  | .value (.singleQuotedString format) =>
    string (texts.translatePgDatetimeFormat format)
  | arg => arg

/-- `TO_CHAR(value, format)` is DuckDB's `STRFTIME(format, value)`. -/
def transformFunction : Expr → Expr
  | .function name args =>
    if asciiUppercase (displayName name) = "TO_CHAR" then
      match args with
      | [subject, format] => call "STRFTIME" [translateFormatArg texts format, subject]
      | _ => call "STRFTIME" args
    else
      .function name args
  | expr => expr

/-- `CASE WHEN divisor = 0 THEN error('division by zero') ELSE ... END`. -/
def guardedDivision (dividend : Expr) (op : BinaryOperator) (divisor : Expr) :
    Expr :=
  .caseWhen (.binaryOp divisor .eq (int "0")) (call "error" [string "division by zero"])
    (.binaryOp dividend op divisor)

/-- A string subscript names a field. -/
def isFieldName : Expr → Bool
  | .value (.singleQuotedString _) | .value (.doubleQuotedString _)
  | .value (.escapedStringLiteral _) => true
  | _ => false

def clampIndex (subscript : Expr) : Expr :=
  call "nullif" [call "greatest" [subscript, int "0"], int "0"]

/-- `CASE WHEN bound < least THEN least ELSE bound END`. -/
def clampBound (least : String) (bound : Expr) : Expr :=
  .caseWhen (.binaryOp bound .lt (int least)) (int least) bound

def clampLowerBound : Expr → Expr := clampBound "1"

def clampUpperBound : Expr → Expr := clampBound "0"

def clampBounds : SliceShape → List Expr → List Expr
  | .lower, [lower] => [clampLowerBound lower]
  | .upper, [upper] => [clampUpperBound upper]
  | .both, [lower, upper] => [clampLowerBound lower, clampUpperBound upper]
  | _, bounds => bounds

/-- Two uppercase hexadecimal digits a byte. -/
def hexOf (bytes : List UInt8) : String :=
  String.ofList (bytes.flatMap fun byte =>
    [(Nat.digitChar (byte.toNat / 16)).toUpper, (Nat.digitChar (byte.toNat % 16)).toUpper])

/-- The rewrite of one expression node whose children are rewritten. -/
def transformPgSemantics : Expr → Expr
  | .binaryOp left op right =>
    match op with
    | .pgRegexMatch => call "regexp_matches" [left, right]
    | .pgRegexNotMatch =>
      negateIf true (call "regexp_matches" [left, right])
    | .pgRegexIMatch => call "regexp_matches" [left, right, string "i"]
    | .pgRegexNotIMatch =>
      negateIf true (call "regexp_matches" [left, right, string "i"])
    | .divide => guardedDivision left .divide right
    | .modulo => guardedDivision left .modulo right
    | _ => .binaryOp left op right
  | .like insensitive negated subject pattern none =>
    .like insensitive negated subject pattern (some (.singleQuotedString "\\"))
  | .collate inner collation =>
    if isByteOrderCollation collation then inner else .collate inner collation
  | .index root subscript =>
    if isFieldName subscript then .index root subscript
    else .index root (clampIndex subscript)
  | .slice root shape bounds => .slice root shape (clampBounds shape bounds)
  | .cast kind inner dataType =>
    match kind, dataType, inner with
    | .cast, .bytea, .value (.singleQuotedString content)
    | .doubleColon, .bytea, .value (.singleQuotedString content) =>
      match texts.byteaDecode content with
      | .ok bytes => call "unhex" [string (hexOf bytes)]
      | .error _ => .cast kind inner dataType
    | _, _, _ => .cast kind inner dataType
  | .similarTo negated subject pattern escapeChar =>
    match similarToRegexFromAst pattern escapeChar with
    | .ok regex =>
      negateIf negated (call "regexp_matches" [subject, string regex])
    | .error _ => .similarTo negated subject pattern escapeChar
  | expr => expr

def transformExpr (expr : Expr) : Expr :=
  transformPgSemantics texts (transformFunction texts expr)

/-- `WHEN NOT MATCHED` spelled out. -/
def MergeClause.transform {ε : Type} (clause : MergeClause ε) : MergeClause ε :=
  if clause.clauseKind = .notMatched then
    { clause with clauseKind := .notMatchedByTarget }
  else
    clause

/-- The rewrite of a write statement.  A `CREATE TABLE` only has its types and
options rewritten, which no expression of this model depends on. -/
def transformToDuckDb : Statement Expr → Statement Expr
  | .insert stmt => (Statement.insert stmt).mapExpressions (transformExpr texts)
  | .update stmt => (Statement.update stmt).mapExpressions (transformExpr texts)
  | .delete stmt => (Statement.delete stmt).mapExpressions (transformExpr texts)
  | .merge stmt =>
    (Statement.merge
      { stmt with
        into := true
        optimizerHints := []
        clauses := stmt.clauses.map MergeClause.transform }).mapExpressions
      (transformExpr texts)
  | stmt => stmt

end VaireDb.Sql
