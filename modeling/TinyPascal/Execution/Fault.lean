import TinyPascal.Execution.Value

/-!
# Runtime faults

Why a run stops before its end. Two of the causes are interruptions rather than mistakes: a loop
that its guard stopped, and an interrupt from outside.
-/
namespace TinyPascal

inductive TypeMismatch where
  | notAnInteger (found : Ty)
  | notNegatable (found : Ty)
  | incomparable (left right : Ty)
  | notArithmetic (op : BinaryOp)
  | notRelational (op : BinaryOp)
deriving DecidableEq, Repr

inductive InputDefect where
  | notANumber (line : String)
  | endOfInput
deriving DecidableEq, Repr

/-- Why a run stops. -/
inductive RuntimeFault where
  | divisionByZero
  | unboundVariable (name : String)
  | typeMismatch (mismatch : TypeMismatch)
  | overflow
  | invalidInput (name : String) (defect : InputDefect)
  | io (details : String)
  | loopStopped (iterations : Nat)
  | aborted
deriving DecidableEq, Repr

structure RuntimeError where
  fault : RuntimeFault
  position : Position
deriving DecidableEq, Repr

def TypeMismatch.text : TypeMismatch → String
  | notAnInteger found => "expected an integer, found " ++ found.name
  | notNegatable found => "unary '-' requires an integer operand, found " ++ found.name
  | incomparable left right => "cannot compare " ++ left.name ++ " with " ++ right.name
  | notArithmetic op => "'" ++ op.symbol ++ "' is not an arithmetic operator"
  | notRelational op => "'" ++ op.symbol ++ "' is not a relational operator"

def InputDefect.text : InputDefect → String
  | notANumber line => "invalid value '" ++ line ++ "'"
  | endOfInput => "end of input"

namespace RuntimeFault

/-- Whether a fault is an interruption rather than a mistake. -/
def isInterruption : RuntimeFault → Bool
  | loopStopped _ | aborted => true
  | _ => false

def text : RuntimeFault → String
  | divisionByZero => "division by zero"
  | unboundVariable name => "variable '" ++ name ++ "' is not defined"
  | typeMismatch mismatch => mismatch.text
  | overflow => "integer overflow"
  | invalidInput name defect => "invalid input for '" ++ name ++ "': " ++ defect.text
  | io details => "I/O failure: " ++ details
  | loopStopped iterations =>
    "loop stopped by user after " ++ Text.decimal iterations ++ " iterations"
  | aborted => "interrupted by user"

end RuntimeFault

def RuntimeError.message (e : RuntimeError) : String :=
  (if e.fault.isInterruption then "Execution interrupted at " else "Runtime error at ") ++
    e.position.text ++ ": " ++ e.fault.text

end TinyPascal
