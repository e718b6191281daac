import TinyPascal.Text.Blank
import TinyPascal.Text.Letter
import TinyPascal.Text.Numeric
import TinyPascal.Token.Basic

/-!
# From source text to tokens

A source text is cut into pieces from left to right, and each piece is the longest that fits. Blanks
and comments make no token. A comment ends at the first closing mark after its opening mark, so
comments do not nest. The token list ends with the end of input.

The text is refused where no piece starts, and where a string or a comment is never closed.
-/
namespace TinyPascal

inductive LexicalFault where
  | invalidCharacter (c : Char)
  | unterminatedString
  | unterminatedComment
deriving DecidableEq, Repr

structure LexicalError where
  fault : LexicalFault
  position : Position
deriving DecidableEq, Repr

namespace LexicalFault

def text : LexicalFault → String
  | invalidCharacter c => "invalid character '" ++ .ofList (Text.escapeChar true c) ++ "'"
  | unterminatedString => "unterminated string"
  | unterminatedComment => "unterminated comment"

end LexicalFault

def LexicalError.message (e : LexicalError) : String :=
  "Lexical error at " ++ e.position.text ++ ": " ++ e.fault.text

namespace Lexer

def isWordStart (c : Char) : Bool :=
  Text.isLetter c || c == '_'

def isWordPart (c : Char) : Bool :=
  Text.isLetter c || Text.isNumeric c || c == '_'

/-- Splits what follows an opening quote at the first quote that no backslash takes with it: the
body of the string and what follows its closing quote. -/
def splitString : List Char → Option (List Char × List Char)
  | [] => none
  | '"' :: rest => some ([], rest)
  | '\\' :: c :: rest => (splitString rest).map fun (body, after) => ('\\' :: c :: body, after)
  | c :: rest => (splitString rest).map fun (body, after) => (c :: body, after)

/-- The character that stands for itself after a backslash, apart from `n` and `t`. -/
def unescapeChar (c : Char) : Char :=
  if c = 'n' then '\n' else if c = 't' then '\t' else c

def unescape : List Char → List Char
  | '\\' :: c :: rest => unescapeChar c :: unescape rest
  | c :: rest => c :: unescape rest
  | [] => []

/-- Splits what follows the opening of a comment at its first closing mark: the body of the comment
and what follows it. -/
def splitComment : List Char → Option (List Char × List Char)
  | [] => none
  | '*' :: '/' :: rest => some ([], rest)
  | c :: rest => (splitComment rest).map fun (body, after) => (c :: body, after)

/-- The longest mark at the head of a text, and what follows it. -/
def splitMark : List Char → Option (Mark × List Char)
  | ':' :: '=' :: rest => some (.assign, rest)
  | '<' :: '>' :: rest => some (.notEqual, rest)
  | '<' :: '=' :: rest => some (.lessEqual, rest)
  | '>' :: '=' :: rest => some (.greaterEqual, rest)
  | '+' :: rest => some (.plus, rest)
  | '-' :: rest => some (.minus, rest)
  | '*' :: rest => some (.star, rest)
  | '/' :: rest => some (.slash, rest)
  | '=' :: rest => some (.equal, rest)
  | '<' :: rest => some (.less, rest)
  | '>' :: rest => some (.greater, rest)
  | ';' :: rest => some (.semicolon, rest)
  | '.' :: rest => some (.dot, rest)
  | ',' :: rest => some (.comma, rest)
  | ':' :: rest => some (.colon, rest)
  | '(' :: rest => some (.leftParen, rest)
  | ')' :: rest => some (.rightParen, rest)
  | _ => none

/-- A piece of a source text: its spelling, and the kind and text of the token it makes, if any. -/
structure Piece where
  spelling : List Char
  token? : Option (TokenKind × String)

namespace Piece

/-- A piece that makes no token. -/
def gap (spelling : List Char) : Piece := ⟨spelling, none⟩

/-- A piece whose token has the spelling as its text. -/
def verbatim (kind : TokenKind) (spelling : List Char) : Piece :=
  ⟨spelling, some (kind, .ofList spelling)⟩

end Piece

/-- The first piece of the text `c :: rest`, and what follows it. -/
def splitPiece (c : Char) (rest : List Char) : Except LexicalFault (Piece × List Char) :=
  if Text.isBlank c then
    .ok (.gap [c], rest)
  else if isWordStart c then
    let word := c :: rest.takeWhile isWordPart
    .ok (.verbatim (.ofWord (.ofList word)) word, rest.dropWhile isWordPart)
  else if c.isDigit then
    .ok (.verbatim .integerLiteral (c :: rest.takeWhile Char.isDigit), rest.dropWhile Char.isDigit)
  else if c = '"' then
    match splitString rest with
    | some (body, after) =>
      .ok (⟨'"' :: body ++ ['"'], some (.stringLiteral, .ofList (unescape body))⟩, after)
    | none => .error .unterminatedString
  else if c = '/' ∧ rest.head? = some '*' then
    match splitComment rest.tail with
    | some (body, after) => .ok (.gap ('/' :: '*' :: body ++ ['*', '/']), after)
    | none => .error .unterminatedComment
  else
    match splitMark (c :: rest) with
    | some (mark, after) => .ok (.verbatim (.mark mark) mark.spelling.toList, after)
    | none => .error (.invalidCharacter c)

theorem splitString_length {text body after : List Char}
    (h : splitString text = some (body, after)) : after.length < text.length := by
  fun_induction splitString text generalizing body with
  | case1 => simp at h
  | case2 => simp_all
  | case3 c rest ih =>
    obtain ⟨⟨b, a⟩, hs, he⟩ := Option.map_eq_some_iff.1 h
    simp only [Prod.mk.injEq] at he
    have := ih (he.2 ▸ hs)
    simp only [List.length_cons]
    omega
  | case4 c rest _ _ ih =>
    obtain ⟨⟨b, a⟩, hs, he⟩ := Option.map_eq_some_iff.1 h
    simp only [Prod.mk.injEq] at he
    have := ih (he.2 ▸ hs)
    simp only [List.length_cons]
    omega

theorem splitComment_length {text body after : List Char}
    (h : splitComment text = some (body, after)) : after.length < text.length := by
  fun_induction splitComment text generalizing body with
  | case1 => simp at h
  | case2 rest =>
    simp only [Option.some.injEq, Prod.mk.injEq] at h
    simp only [← h.2, List.length_cons]
    omega
  | case3 c rest _ ih =>
    obtain ⟨⟨b, a⟩, hs, he⟩ := Option.map_eq_some_iff.1 h
    simp only [Prod.mk.injEq] at he
    have := ih (he.2 ▸ hs)
    simp only [List.length_cons]
    omega

theorem splitMark_length {text after : List Char} {mark : Mark}
    (h : splitMark text = some (mark, after)) : after.length < text.length := by
  unfold splitMark at h
  split at h <;> simp only [Option.some.injEq, Prod.mk.injEq, reduceCtorEq] at h <;>
    simp only [← h.2, List.length_cons] <;> omega

/-- What follows a piece is shorter than what the piece was cut from. -/
theorem splitPiece_length {c : Char} {rest after : List Char} {piece : Piece}
    (h : splitPiece c rest = .ok (piece, after)) : after.length < (c :: rest).length := by
  have hword := (List.dropWhile_sublist isWordPart (l := rest)).length_le
  have hdigit := (List.dropWhile_sublist Char.isDigit (l := rest)).length_le
  simp only [List.length_cons]
  unfold splitPiece at h
  split at h
  · simp only [Except.ok.injEq, Prod.mk.injEq] at h
    simp [← h.2]
  split at h
  · simp only [Except.ok.injEq, Prod.mk.injEq] at h
    rw [← h.2]
    omega
  split at h
  · simp only [Except.ok.injEq, Prod.mk.injEq] at h
    rw [← h.2]
    omega
  split at h
  · split at h
    · rename_i hs
      simp only [Except.ok.injEq, Prod.mk.injEq] at h
      have := splitString_length hs
      rw [← h.2]
      omega
    · simp at h
  split at h
  · split at h
    · rename_i hs
      simp only [Except.ok.injEq, Prod.mk.injEq] at h
      have := splitComment_length hs
      rw [List.length_tail] at this
      rw [← h.2]
      omega
    · simp at h
  · split at h
    · rename_i hs
      simp only [Except.ok.injEq, Prod.mk.injEq] at h
      have := splitMark_length hs
      rw [List.length_cons] at this
      rw [← h.2]
      exact this
    · simp at h

/-- The place a fault is reported at, for a text that starts at `p`: an invalid character is itself
the place, and what is never closed is missed at the end of the text. -/
def faultPosition (p : Position) (text : List Char) : LexicalFault → Position
  | .invalidCharacter _ => p
  | .unterminatedString | .unterminatedComment => p.advanceBy text

def tokensFrom (p : Position) (text : List Char) : Except LexicalError (List Token) :=
  match text with
  | [] => .ok [⟨.endOfInput, "", p⟩]
  | c :: rest =>
    match _h : splitPiece c rest with
    | .error fault => .error ⟨fault, faultPosition p (c :: rest) fault⟩
    | .ok (piece, after) =>
      match tokensFrom (p.advanceBy piece.spelling) after with
      | .error e => .error e
      | .ok tokens =>
        match piece.token? with
        | some (kind, lexeme) => .ok (⟨kind, lexeme, p⟩ :: tokens)
        | none => .ok tokens
termination_by text.length
decreasing_by exact splitPiece_length _h

end Lexer

def tokenize (source : String) : Except LexicalError (List Token) :=
  Lexer.tokensFrom .start source.toList

end TinyPascal
