import VaireDb.Routing.Numeric
import VaireDb.Sql.ShardLocal

/-!
# The routing string of a shard key

A shard key written in a statement is reduced to a string, and the string is
hashed to a bucket.  The string comes from the *spelling* of the key: the token
as it would be rendered, with numbers in canonical form.  The last section says
which two spellings of one value agree in it.
-/

namespace VaireDb.Routing

open Lib Sql

/-- How the parser's library renders what it parsed: the escapes inside string
literals, and whole expressions in messages. -/
structure SqlDisplay where
  escapeSingleQuoted : String → String
  escapeEscaped : String → String
  escapeUnicode : String → String
  expr : Expr → String

/-- `replace("''", "'")`. -/
def undoubleQuotes : List Char → List Char
  | '\x27' :: '\x27' :: rest => '\x27' :: undoubleQuotes rest
  | c :: rest => c :: undoubleQuotes rest
  | [] => []

/-- The text of a token that is tried as a number: the content of a quoted one. -/
def unquoted (token : List Char) : List Char :=
  match trim token with
  | '\x27' :: rest =>
    if rest.getLast? = some '\x27' then undoubleQuotes rest.dropLast
    else '\x27' :: rest
  | trimmed => trimmed

/-- The canonical form of a routing token: that of the number it denotes, or
itself. -/
def canonicalizeRoutingValue (token : String) : String :=
  match canonicalizeNumeric (unquoted token.toList) with
  | some canonical => String.ofList canonical
  | none => token

def tokenNumber (token : String) : Option ℚ := numericValue (unquoted token.toList)

/-- Two tokens denote the same number, or are the same text and no number. -/
@[irreducible] def SameToken (left right : String) : Prop :=
  match tokenNumber left, tokenNumber right with
  | some first, some second => first = second
  | none, none => left = right
  | _, _ => False

theorem unquoted_canonicalText (decimal : Decimal) :
    unquoted (canonicalText decimal) = canonicalText decimal := by
  have clean := canonicalText_clean decimal
  unfold unquoted
  rw [trim_eq_self fun c member => (clean c member).1]
  split
  · rename_i rest known
    exact ((clean '\x27' (by simp [known])).2.2 rfl).elim
  · rfl

theorem tokenNumber_canonicalText (decimal : Decimal) :
    tokenNumber (String.ofList (canonicalText decimal)) = some decimal.value := by
  unfold tokenNumber
  rw [String.toList_ofList, unquoted_canonicalText, numericValue_canonicalText]

theorem canonicalizeRoutingValue_of_numeric {token : String} {decimal : Decimal}
    (numeric : numericDecimal (unquoted token.toList) = some decimal) :
    canonicalizeRoutingValue token = String.ofList (canonicalText decimal) ∧
      tokenNumber token = some decimal.value := by
  unfold canonicalizeRoutingValue tokenNumber
  rw [canonicalizeNumeric_eq, numericValue_eq, numeric]
  exact ⟨rfl, rfl⟩

theorem canonicalizeRoutingValue_of_text {token : String}
    (text : numericDecimal (unquoted token.toList) = none) :
    canonicalizeRoutingValue token = token ∧ tokenNumber token = none := by
  unfold canonicalizeRoutingValue tokenNumber
  rw [canonicalizeNumeric_eq, numericValue_eq, text]
  exact ⟨rfl, rfl⟩

/-- The routing strings of two tokens are equal exactly if the tokens denote the
same number, or are the same text and no number. -/
theorem canonicalizeRoutingValue_eq_iff (left right : String) :
    canonicalizeRoutingValue left = canonicalizeRoutingValue right ↔ SameToken left right := by
  unfold SameToken
  cases leftNumber : numericDecimal (unquoted left.toList) with
  | some first =>
    obtain ⟨leftText, leftValue⟩ :=
      canonicalizeRoutingValue_of_numeric leftNumber
    cases rightNumber : numericDecimal (unquoted right.toList) with
    | some second =>
      obtain ⟨rightText, rightValue⟩ :=
        canonicalizeRoutingValue_of_numeric rightNumber
      rw [leftText, leftValue, rightText, rightValue, String.ofList_inj]
      exact canonicalText_eq_iff first second
    | none =>
      obtain ⟨rightText, rightValue⟩ :=
        canonicalizeRoutingValue_of_text rightNumber
      rw [leftText, leftValue, rightText, rightValue]
      refine iff_of_false (fun same => ?_) id
      rw [← same, tokenNumber_canonicalText] at rightValue
      cases rightValue
  | none =>
    obtain ⟨leftText, leftValue⟩ :=
      canonicalizeRoutingValue_of_text leftNumber
    cases rightNumber : numericDecimal (unquoted right.toList) with
    | some second =>
      obtain ⟨rightText, rightValue⟩ :=
        canonicalizeRoutingValue_of_numeric rightNumber
      rw [leftText, leftValue, rightText, rightValue]
      refine iff_of_false (fun same => ?_) id
      rw [same, tokenNumber_canonicalText] at leftValue
      cases leftValue
    | none =>
      obtain ⟨rightText, rightValue⟩ :=
        canonicalizeRoutingValue_of_text rightNumber
      rw [leftText, leftValue, rightText, rightValue]

inductive IntegerType where
  | int8
  | int16
  | int32
  | int64
  | uint8
  | uint16
  | uint32
  | uint64
  deriving DecidableEq, Repr

inductive TextType where
  | utf8
  | largeUtf8
  | utf8View
  deriving DecidableEq, Repr

inductive DecimalType where
  | decimal128
  | decimal256
  deriving DecidableEq, Repr

/-- A decoded bind parameter.  Floats and dates carry their display; the types
that cannot be routed carry their name. -/
inductive ScalarValue where
  | text (type : TextType) (value : Option String)
  | boolean (value : Option Bool)
  | integer (type : IntegerType) (value : Option Int)
  | float (bits : Nat) (display : Option String)
  | decimal (type : DecimalType) (value : Option Int) (scale : Int)
  | date (bits : Nat) (display : Option String)
  | other (dataType : String) (isNull : Bool)
  deriving DecidableEq, Repr

inductive RoutedValue where
  | value (routing : String)
  | null
  | unroutable (reason : String)
  deriving DecidableEq, Repr

/-- A single-quoted literal with the quotes inside doubled. -/
def quoteLiteral (content : String) : String :=
  String.ofList ('\x27' :: content.toList.flatMap (fun c =>
    if c = '\x27' then ['\x27', '\x27'] else [c]) ++ ['\x27'])

/-- The digits of a mantissa scaled by a power of ten, as plain text. -/
def scaledPlainString (neg : Bool) (digits : List Char) (scale : Int) : String :=
  let body :=
    if scale ≤ 0 then
      if digits.any (· ≠ '0') then
        digits ++ List.replicate (-scale).toNat '0'
      else
        digits
    else if scale.toNat < digits.length then
      digits.take (digits.length - scale.toNat) ++ '.' :: digits.drop (digits.length - scale.toNat)
    else
      ['0', '.'] ++ List.replicate (scale.toNat - digits.length) '0' ++ digits
  String.ofList (if neg then '-' :: body else body)

/-- The token of a bind parameter that is not null and whose type can be
routed. -/
def scalarToken : ScalarValue → Option String
  | .text _ (some content) => some (quoteLiteral content)
  | .boolean (some true) => some "true"
  | .boolean (some false) => some "false"
  | .integer _ (some value) => some (toString value)
  | .float _ (some display) => some display
  | .decimal _ (some value) scale =>
    some (scaledPlainString (value < 0) (Nat.repr value.natAbs).toList scale)
  | .date _ (some display) => some (quoteLiteral display)
  | _ => none

def unroutableScalar (dataType : String) : RoutedValue :=
  .unroutable ("a shard-key bind parameter of type " ++ dataType ++
    " cannot be routed: its bound form and its SQL literal form do not agree, so " ++
    "the row would be placed on a shard no lookup of the same value would " ++
    "search; send the shard key as a literal instead")

def scalarRoutingValue : ScalarValue → RoutedValue
  | .other dataType isNull =>
    if isNull then .null else unroutableScalar dataType
  | scalar =>
    match scalarToken scalar with
    | some token => .value (canonicalizeRoutingValue token)
    | none => .null

section Expressions

variable (display : SqlDisplay)

/-- How a literal is rendered. -/
def displayValue : Value → String
  | .number text => text
  | .singleQuotedString content =>
    "'" ++ display.escapeSingleQuoted content ++ "'"
  | .dollarQuotedString content tag =>
    "$" ++ tag.getD "" ++ "$" ++ content ++ "$" ++ tag.getD "" ++ "$"
  | .escapedStringLiteral content => "E'" ++ display.escapeEscaped content ++ "'"
  | .unicodeStringLiteral content => "U&'" ++ display.escapeUnicode content ++ "'"
  | .nationalStringLiteral content => "N'" ++ content ++ "'"
  | .doubleQuotedString content => "\"" ++ content ++ "\""
  | .hexStringLiteral content => "X'" ++ content ++ "'"
  | .boolean true => "true"
  | .boolean false => "false"
  | .null => "NULL"
  | .placeholder name => name

/-- The content of a string literal. -/
def intoString : Value → Option String
  | .singleQuotedString content | .dollarQuotedString content _
  | .escapedStringLiteral content | .unicodeStringLiteral content
  | .nationalStringLiteral content | .doubleQuotedString content
  | .hexStringLiteral content => some content
  | _ => none

def unroutableExpr (expr : Expr) : RoutedValue :=
  .unroutable ("shard-key expression `" ++ display.expr expr ++
    "` is not a constant; the coordinator hashes the shard key before the write " ++
    "reaches a shard, so it must be a literal or a bind parameter")

def valueRoutingValue (params : List ScalarValue) (expr : Expr) : Value → RoutedValue
  | .null => .null
  | .placeholder name =>
    match placeholderIndex name with
    | some position =>
      match params[position]? with
      | some scalar => scalarRoutingValue scalar
      | none =>
        .unroutable ("no value was bound for shard-key parameter " ++ name)
    | none =>
      .unroutable ("shard-key placeholder `" ++ name ++ "` is not a positional `$N` parameter")
  | .doubleQuotedString _ | .hexStringLiteral _ => unroutableExpr display expr
  | literal => .value (canonicalizeRoutingValue (displayValue display literal))

def exprRoutingValue (params : List ScalarValue) : Expr → RoutedValue
  | .nested inner => exprRoutingValue params inner
  | .value literal => valueRoutingValue display params (.value literal) literal
  | .unaryOp .minus (.value (.number text)) =>
    .value (canonicalizeRoutingValue ("-" ++ text))
  | .unaryOp .plus (.value (.number text)) =>
    .value (canonicalizeRoutingValue ("+" ++ text))
  | .typedString dataType literal =>
    match intoString literal with
    | some content => .value (canonicalizeRoutingValue (quoteLiteral content))
    | none => unroutableExpr display (.typedString dataType literal)
  | expr => unroutableExpr display expr

def exprToken (params : List ScalarValue) : Expr → Option String
  | .nested inner => exprToken params inner
  | .value (.placeholder name) =>
    (placeholderIndex name).bind fun position =>
      params[position]?.bind scalarToken
  | .value .null | .value (.doubleQuotedString _)
  | .value (.hexStringLiteral _) => none
  | .value literal => some (displayValue display literal)
  | .unaryOp .minus (.value (.number text)) => some ("-" ++ text)
  | .unaryOp .plus (.value (.number text)) => some ("+" ++ text)
  | .typedString _ literal => (intoString literal).map quoteLiteral
  | _ => none

theorem valueRoutingValue_eq_value_iff {params : List ScalarValue}
    {expr : Expr} {literal : Value} {routing : String} :
    valueRoutingValue display params expr literal = .value routing ↔
      ∃ token, exprToken display params (.value literal) = some token ∧
        canonicalizeRoutingValue token = routing := by
  cases literal with
  | placeholder name =>
    simp only [valueRoutingValue, exprToken]
    cases placeholderIndex name with
    | none => simp
    | some position =>
      cases known : params[position]? with
      | none => simp [known]
      | some scalar =>
        simp only [known, Option.bind_some]
        unfold scalarRoutingValue
        split
        · rename_i dataType isNull
          cases isNull <;> simp [unroutableScalar, scalarToken]
        · split
          · next token known => simp [known]
          · next unknown => simp [unknown]
  | null | doubleQuotedString | hexStringLiteral =>
    simp [valueRoutingValue, exprToken, unroutableExpr]
  | _ => simp [valueRoutingValue, exprToken]

/-- A routable expression is routed by the canonical form of its token. -/
theorem exprRoutingValue_eq_value_iff (params : List ScalarValue) (expr : Expr) (routing : String) :
    exprRoutingValue display params expr = .value routing ↔
      ∃ token, exprToken display params expr = some token ∧
        canonicalizeRoutingValue token = routing := by
  induction expr using Expr.inductionOnChildren with
  | step expr induction =>
    cases expr with
    | nested inner =>
      simp only [exprRoutingValue, exprToken]
      exact induction inner (by simp [Expr.children])
    | value literal =>
      exact valueRoutingValue_eq_value_iff display
    | typedString dataType literal =>
      simp only [exprRoutingValue, exprToken]
      cases intoString literal <;> simp [unroutableExpr]
    | unaryOp op operand =>
      cases op with
      | plus | minus =>
        cases operand with
        | value literal =>
          cases literal <;>
            simp [exprRoutingValue, exprToken, unroutableExpr]
        | _ => simp [exprRoutingValue, exprToken, unroutableExpr]
      | not | other => simp [exprRoutingValue, exprToken, unroutableExpr]
    | _ => simp [exprRoutingValue, exprToken, unroutableExpr]

/-- The bucket of a routing string; `hash` is the routing contract's hash. -/
def computeShardIndex (hash : String → UInt64) (routing : String) (shardCount : Nat) : Nat :=
  (hash routing).toNat % shardCount

/-- The buckets of two strings agree for every hash and shard count exactly if the
strings are equal. -/
theorem computeShardIndex_eq_iff {left right : String} :
    (∀ hash shardCount, computeShardIndex hash left shardCount =
      computeShardIndex hash right shardCount) ↔ left = right := by
  constructor
  · intro same
    by_contra different
    have buckets := same (fun routing => if routing = left then 0 else 1) 2
    simp [computeShardIndex, Ne.symm different] at buckets
  · rintro rfl hash shardCount
    rfl

/-- Two spellings, each with its bind parameters, go to one bucket. -/
def OneBucket (left right : Expr) (leftParams rightParams : List ScalarValue) : Prop :=
  ∀ leftRouting rightRouting, exprRoutingValue display leftParams left = .value leftRouting →
    exprRoutingValue display rightParams right = .value rightRouting →
    ∀ hash shardCount, computeShardIndex hash leftRouting shardCount =
      computeShardIndex hash rightRouting shardCount

/-- Two spellings have tokens that denote the same number, or that are the same text and no
number. -/
def SpelledAlike (left right : Expr) (leftParams rightParams : List ScalarValue) : Prop :=
  ∀ leftToken rightToken, exprToken display leftParams left = some leftToken →
    exprToken display rightParams right = some rightToken → SameToken leftToken rightToken

/-- Two spellings of one value go to one bucket exactly if they are spelled alike. -/
theorem oneBucket_iff_spelledAlike (left right : Expr)
    (leftParams rightParams : List ScalarValue) :
    OneBucket display left right leftParams rightParams ↔
      SpelledAlike display left right leftParams rightParams := by
  constructor
  · intro oneBucket leftToken rightToken leftKnown rightKnown
    apply (canonicalizeRoutingValue_eq_iff leftToken rightToken).mp
    apply (computeShardIndex_eq_iff).mp
    apply oneBucket
    · rw [exprRoutingValue_eq_value_iff]
      exact ⟨leftToken, leftKnown, rfl⟩
    · rw [exprRoutingValue_eq_value_iff]
      exact ⟨rightToken, rightKnown, rfl⟩
  · intro alike leftRouting rightRouting leftRouted rightRouted
    obtain ⟨leftToken, leftKnown, rfl⟩ :=
      (exprRoutingValue_eq_value_iff display _ _ _).mp leftRouted
    obtain ⟨rightToken, rightKnown, rfl⟩ :=
      (exprRoutingValue_eq_value_iff display _ _ _).mp rightRouted
    apply (computeShardIndex_eq_iff).mpr
    apply (canonicalizeRoutingValue_eq_iff leftToken rightToken).mpr
    exact alike leftToken rightToken leftKnown rightKnown

end Expressions

/-- What an `INTEGER` column keeps of a number that is written with or without a
sign. -/
def integerColumn : Expr → List ScalarValue → Option Int
  | .nested inner, params => integerColumn inner params
  | .value (.number text), _ => parseI32 text.toList
  | .unaryOp .plus (.value (.number text)), _ => parseI32 text.toList
  | .unaryOp .minus (.value (.number text)), _ =>
    (parseI32 text.toList).map fun value => -value
  | _, _ => none

theorem exprRoutingValue_signedFive (display : SqlDisplay) :
    exprRoutingValue display [] (.unaryOp .plus (.value (.number "5"))) = .value "+5" :=
  congrArg RoutedValue.value (by decide : canonicalizeRoutingValue "+5" = "+5")

theorem exprRoutingValue_five (display : SqlDisplay) :
    exprRoutingValue display [] (.value (.number "5")) = .value "5" :=
  congrArg RoutedValue.value (by decide : canonicalizeRoutingValue "5" = "5")

/-- An `INTEGER` column keeps `+5` and `5` as the same value, but their routing
strings are different. -/
theorem signed_spelling_routes_apart :
    integerColumn (.unaryOp .plus (.value (.number "5"))) [] = some 5 ∧
    integerColumn (.value (.number "5")) [] = some 5 ∧ ∀ display : SqlDisplay,
    exprRoutingValue display [] (.unaryOp .plus (.value (.number "5"))) = .value "+5" ∧
    exprRoutingValue display [] (.value (.number "5")) = .value "5" ∧
    ¬ OneBucket display (.unaryOp .plus (.value (.number "5"))) (.value (.number "5")) [] [] := by
  refine ⟨rfl, rfl, fun display => ?_⟩
  have signed := exprRoutingValue_signedFive display
  have plain := exprRoutingValue_five display
  refine ⟨signed, plain, fun oneBucket => ?_⟩
  have buckets := oneBucket "+5" "5" signed plain
  have same := (computeShardIndex_eq_iff).mp buckets
  revert same
  decide

end VaireDb.Routing
