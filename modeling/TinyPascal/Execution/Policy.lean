import TinyPascal.Integer

/-!
# Execution policies

A policy says after how many iterations the guard of a loop is consulted, what the guard then does,
and what becomes of a line of input that is no integer.
-/
namespace TinyPascal

/-- What happens when a loop reaches its limit: the user is asked on the console, or the loop goes
on or is stopped without a question, or an adviser outside the program is consulted. -/
inductive LoopGuard where
  | prompt
  | proceed
  | abort
  | consult
deriving DecidableEq, Repr

/-- What is stored for a line of input that is no integer: a fixed value, with a warning, or
nothing, and the run fails. -/
inductive InputFallback where
  | substitute (value : Integer)
  | fail
deriving DecidableEq, Repr

/-- How a program is run. The guard is consulted after every multiple of the limit. There is no
guard without a limit, and none with the limit zero, of which no number of them is a multiple. -/
structure Policy where
  loopLimit : Option Nat := some 1000
  loopGuard : LoopGuard := .prompt
  inputFallback : InputFallback := .substitute 0
deriving DecidableEq, Repr

namespace Policy

def guards (policy : Policy) (iterations : Nat) : Bool :=
  policy.loopLimit.any fun limit => iterations % limit == 0

end Policy

end TinyPascal
