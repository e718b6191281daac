/-!
# Decimal numerals

Natural numbers as runs of ASCII digits, most significant first and without leading zeros, and the
value of such a run with any number of leading zeros.
-/
namespace TinyPascal.Text

def decimalDigits (n : Nat) : List Char :=
  Nat.toDigits 10 n

def decimal (n : Nat) : String :=
  .ofList (decimalDigits n)

def decimalValue (digits : List Char) : Nat :=
  digits.foldl (fun value digit => 10 * value + (digit.toNat - '0'.toNat)) 0

def decimalValue? (text : List Char) : Option Nat :=
  if text ≠ [] ∧ text.all Char.isDigit then some (decimalValue text) else none

end TinyPascal.Text
