import TinyPascal.Text.Extender
import TinyPascal.Text.Printable

/-!
# Escaped text

How a text is shown inside quotes: quotes and the backslash get a backslash, four control characters
have a letter or digit of their own, and what cannot be shown is written as its code point in
hexadecimal. An extender is written by its code point only where no character stands before it.
-/
namespace TinyPascal.Text

/-- The code point of `c` in lower-case hexadecimal between braces, after a backslash and a `u`. -/
def codePointEscape (c : Char) : List Char :=
  "\\u\x7b".toList ++ Nat.toDigits 16 c.toNat ++ "\x7d".toList

/-- The escaped form of a character; `alone` says that no character stands before it. -/
def escapeChar (alone : Bool) (c : Char) : List Char :=
  match c with
  | '\x00' => ['\\', '0']
  | '\t' => ['\\', 't']
  | '\r' => ['\\', 'r']
  | '\n' => ['\\', 'n']
  | '\\' => ['\\', '\\']
  | '\'' => ['\\', '\'']
  | '"' => ['\\', '"']
  | c => if (alone && isExtender c) || !isPrintable c then codePointEscape c else [c]

def escape : List Char → List Char
  | [] => []
  | c :: rest => escapeChar true c ++ rest.flatMap (escapeChar false)

end TinyPascal.Text
