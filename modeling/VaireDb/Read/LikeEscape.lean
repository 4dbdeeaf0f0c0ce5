import VaireDb.Proto
import VaireDb.Sql.Ast

/-!
# `LIKE` with an escape character

The planner reads every pattern with a backslash as its escape, so a pattern with another
escape is respelled before.  A pattern that has a backslash already is not looked at.
-/

namespace VaireDb.Read

open Sql

def notEndWithEscape : ErrorDetail where
  code := .invalidParameterValue
  message := "LIKE pattern must not end with escape character"

def likePatternWithBackslashEscape (escape : Option Char) :
    List Char → Except ErrorDetail (List Char)
  | [] => .ok []
  | c :: rest =>
    if some c = escape then
      match rest with
      | [] => .error notEndWithEscape
      | next :: rest =>
        (likePatternWithBackslashEscape escape rest).map fun out => '\\' :: next :: out
    else if c = '\\' then
      (likePatternWithBackslashEscape escape rest).map fun out => '\\' :: '\\' :: out
    else (likePatternWithBackslashEscape escape rest).map (c :: ·)

def nonLiteralLikePattern : ErrorDetail where
  code := .featureNotSupported
  message := "LIKE with a non-literal pattern and a non-backslash ESCAPE is not supported: " ++
    "the pattern's escape character is rewritten to a backslash before the query runs, so " ++
    "the pattern has to be a string literal; use ESCAPE '\\' to match a computed pattern"

/-- The pattern and the escape of a `LIKE` that has one. -/
def rewriteLikeEscape (pattern : Expr) (escapeChar : Value) :
    Except ErrorDetail (Expr × Value) := do
  let escape ← match escapeChar with
    | .singleQuotedString content =>
      match content.toList with
      | [] => .ok none
      | [c] => .ok (some c)
      | _ => .error invalidEscape
    | _ => .error invalidEscape
  if escape = some '\\' then
    return (pattern, escapeChar)
  match pattern with
  | .value (.singleQuotedString literal) =>
    let respelled ← likePatternWithBackslashEscape escape literal.toList
    return (.value (.singleQuotedString (String.ofList respelled)), .singleQuotedString "\\")
  | _ => .error nonLiteralLikePattern
where
  invalidEscape : ErrorDetail :=
    { code := .invalidParameterValue
      message := "invalid escape string: it must be empty or one character" }

/-! ## What a pattern matches -/

inductive LikePiece where
  | literal (c : Char)
  | anyChar
  | anyString

def pieceOf : Char → LikePiece
  | '%' => .anyString
  | '_' => .anyChar
  | c => .literal c

/-- The pieces of a pattern, unless it ends in an unpaired escape. -/
def likePieces (escape : Option Char) : List Char → Option (List LikePiece)
  | [] => some []
  | c :: rest =>
    if some c = escape then
      match rest with
      | [] => none
      | next :: rest => (likePieces escape rest).map (.literal next :: ·)
    else (likePieces escape rest).map (pieceOf c :: ·)

inductive Matches : List LikePiece → List Char → Prop where
  | nil : Matches [] []
  | literal : Matches pieces target → Matches (.literal c :: pieces) (c :: target)
  | anyChar : Matches pieces target → Matches (.anyChar :: pieces) (c :: target)
  | empty : Matches pieces target → Matches (.anyString :: pieces) target
  | longer : Matches (.anyString :: pieces) target → Matches (.anyString :: pieces) (c :: target)

def Like (escape : Option Char) (pattern target : String) : Prop :=
  ∃ pieces, likePieces escape pattern.toList = some pieces ∧ Matches pieces target.toList

def escapeValue (escape : Option Char) : Value :=
  .singleQuotedString (String.ofList escape.toList)

/-- A `LIKE` that is refused has a pattern that is not a literal or ends in an unpaired
escape.  Any other matches what it matched before. -/
def LikeKept (escape : Option Char) (pattern : Expr) : Prop :=
  match rewriteLikeEscape pattern (escapeValue escape) with
  | .error _ =>
    ∀ text, pattern = .value (.singleQuotedString text) → likePieces escape text.toList = none
  | .ok (respelled, escapeChar) =>
    escapeChar = .singleQuotedString "\\" ∧ ∃ text shown,
      pattern = .value (.singleQuotedString text) ∧ likePieces escape text.toList ≠ none ∧
      respelled = .value (.singleQuotedString shown) ∧
      ∀ target, Like (some '\\') shown target ↔ Like escape text target

variable {escape : Option Char} {pattern : Expr}

theorem likePieces_cons {c : Char} {rest : List Char} (differs : some c ≠ escape) :
    likePieces escape (c :: rest) = (likePieces escape rest).map (pieceOf c :: ·) := by
  rw [likePieces.eq_def]
  simp [differs]

/-- A pattern is refused, or is respelled with the pieces it had. -/
def Respelled (done : Except ErrorDetail (List Char)) (read : Option (List LikePiece)) : Prop :=
  (∃ error, done = .error error ∧ read = none) ∨
    ∃ out, done = .ok out ∧ read.isSome ∧ likePieces (some '\\') out = read

theorem Respelled.cons {done : Except ErrorDetail (List Char)} {read : Option (List LikePiece)}
    (tail : Respelled done read) {piece : LikePiece} {front : List Char → List Char}
    (spelled : ∀ out, likePieces (some '\\') (front out) =
      (likePieces (some '\\') out).map (piece :: ·)) :
    Respelled (done.map front) (read.map (piece :: ·)) := by
  rcases tail with ⟨error, rfl, rfl⟩ | ⟨out, rfl, known, kept⟩
  · exact .inl ⟨error, rfl, rfl⟩
  · exact .inr ⟨front out, rfl, by simpa using known, by rw [spelled, kept]⟩

theorem respelled_likePattern (text : List Char) :
    Respelled (likePatternWithBackslashEscape escape text) (likePieces escape text) := by
  fun_induction likePatternWithBackslashEscape escape text with
  | case1 => exact .inr ⟨[], rfl, rfl, rfl⟩
  | case2 c same => exact .inl ⟨_, rfl, by simp [likePieces, same]⟩
  | case3 c same next rest induction =>
    rw [likePieces, if_pos same]
    exact induction.cons fun out => by simp [likePieces]
  | case4 rest differs induction =>
    rw [likePieces_cons differs]
    exact induction.cons fun out => by simp [likePieces, pieceOf]
  | case5 c rest differs ordinary induction =>
    rw [likePieces_cons differs]
    exact induction.cons fun out => likePieces_cons (by simpa using ordinary)

theorem rewriteLikeEscape_literal (other : escape ≠ some '\\') (text : String) :
    rewriteLikeEscape (.value (.singleQuotedString text)) (escapeValue escape) =
      (likePatternWithBackslashEscape escape text.toList).map fun respelled =>
        (.value (.singleQuotedString (String.ofList respelled)), .singleQuotedString "\\") := by
  cases escape <;>
    simp_all [rewriteLikeEscape, escapeValue, bind, Except.bind, pure, Except.pure, Except.map]

theorem rewriteLikeEscape_computed (other : escape ≠ some '\\')
    (computed : ∀ text, pattern = .value (.singleQuotedString text) → False) :
    rewriteLikeEscape pattern (escapeValue escape) = .error nonLiteralLikePattern := by
  cases escape <;> simp_all [rewriteLikeEscape, escapeValue, bind, Except.bind]

/-- A pattern with a backslash as its escape is passed on even if it cannot be read. -/
theorem like_kept_iff (escape : Option Char) (pattern : Expr) :
    LikeKept escape pattern ↔ (escape = some '\\' →
      ∃ text, pattern = .value (.singleQuotedString text) ∧
        likePieces escape text.toList ≠ none) := by
  by_cases same : escape = some '\\'
  · subst same
    constructor
    · rintro ⟨-, text, -, literal, paired, -, -⟩ -
      exact ⟨text, literal, paired⟩
    · intro readable
      obtain ⟨text, rfl, paired⟩ := readable rfl
      exact ⟨rfl, text, text, rfl, paired, rfl, fun _ => Iff.rfl⟩
  · refine iff_of_true ?_ fun backslash => absurd backslash same
    by_cases computed : ∀ text, pattern = .value (.singleQuotedString text) → False
    · rw [LikeKept, rewriteLikeEscape_computed same computed]
      exact fun text literal => (computed text literal).elim
    · obtain ⟨text, rfl⟩ := not_forall_not.mp computed
      rw [LikeKept, rewriteLikeEscape_literal same]
      rcases @respelled_likePattern escape text.toList with
        ⟨error, failed, unpaired⟩ | ⟨out, done, paired, kept⟩
      · rw [failed]
        rintro _ ⟨⟩
        exact unpaired
      · rw [done]
        refine ⟨rfl, text, _, rfl, Option.isSome_iff_ne_none.mp paired, rfl, fun target => ?_⟩
        rw [Like, String.toList_ofList, kept, Like]

/-- `'a\' ESCAPE '\'` ends in an unpaired escape and is not refused. -/
theorem unpaired_backslash_is_accepted :
    likePieces (some '\\') "a\\".toList = none ∧
    rewriteLikeEscape (.value (.singleQuotedString "a\\")) (.singleQuotedString "\\") =
      .ok (.value (.singleQuotedString "a\\"), .singleQuotedString "\\") ∧
    ¬LikeKept (some '\\') (.value (.singleQuotedString "a\\")) := by
  refine ⟨by decide, rfl, ?_⟩
  rintro ⟨-, text, -, ⟨⟩, paired, -⟩
  exact paired (by decide)

end VaireDb.Read
