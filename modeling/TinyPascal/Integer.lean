import TinyPascal.Text.Decimal

/-!
# The integers of the language

Integers are 64-bit words in two's complement, but arithmetic on them is exact: an operation whose
result does not fit has none. Division rounds toward negative infinity. The text of an integer is
its decimal numeral, and any numeral with an optional sign whose value fits is read back.
-/
namespace TinyPascal

abbrev Integer := Int64

namespace Integer

def ofInt? (n : Int) : Option Integer :=
  if Int64.minValue.toInt ≤ n ∧ n ≤ Int64.maxValue.toInt then some (Int64.ofInt n) else none

def add? (a b : Integer) : Option Integer :=
  ofInt? (a.toInt + b.toInt)

def sub? (a b : Integer) : Option Integer :=
  ofInt? (a.toInt - b.toInt)

def mul? (a b : Integer) : Option Integer :=
  ofInt? (a.toInt * b.toInt)

def neg? (a : Integer) : Option Integer :=
  ofInt? (-a.toInt)

/-- The quotient rounded toward negative infinity. There is none for a divisor of zero and for the
least integer divided by minus one. The truncated quotient is one too large exactly when the
division leaves a remainder and the operands differ in sign. -/
def floorDiv? (a b : Integer) : Option Integer :=
  if b = 0 ∨ (a = Int64.minValue ∧ b = -1) then none
  else if a % b ≠ 0 ∧ decide (a < 0) ≠ decide (b < 0) then some (a / b - 1)
  else some (a / b)

def text (n : Integer) : String :=
  match n.toInt with
  | .ofNat m => Text.decimal m
  | .negSucc m => "-" ++ Text.decimal (m + 1)

/-- Reads an optional sign and one or more decimal digits whose value fits. -/
def ofText? (s : String) : Option Integer :=
  match s.toList with
  | '-' :: digits => (Text.decimalValue? digits).bind fun n => ofInt? (-(n : Int))
  | '+' :: digits => (Text.decimalValue? digits).bind fun n => ofInt? n
  | digits => (Text.decimalValue? digits).bind fun n => ofInt? n

end Integer

end TinyPascal
