import TinyPascal.Execution.Policy
import TinyPascal.Execution.Run
import TinyPascal.Text.Blank
import TinyPascal.Typing.Analysis

/-!
# Execution of statements

The interrupt is looked at before every statement. A loop may go on forever, so executing takes a
bound on the iterations of each loop, its fuel. Running out of fuel is told apart from every
outcome of the program, and a run that does not run out of fuel is the same with more.
-/
namespace TinyPascal

namespace Exec

/-- What is stored in `target` instead of a line with a defect. -/
def fallback (policy : Policy) (target : Identifier) (defect : InputDefect) (p : Position) :
    Exec Integer := do
  match policy.inputFallback with
  | .substitute value =>
    warn (defect.text ++ ", assigning " ++ value.text ++ " to " ++ target.name) p
    return value
  | .fail => fail (.invalidInput target.name defect) p

/-- The integer that a line of input stands for, without the blanks around it. -/
def inputValue (policy : Policy) (target : Identifier) (p : Position) :
    Option String → Exec Integer
  | some line =>
    match Integer.ofText? (Text.trim line) with
    | some value => return value
    | none => fallback policy target (.notANumber (Text.trim line)) p
  | none => fallback policy target .endOfInput p

def readTarget (policy : Policy) (p : Position) (target : Identifier) : Exec Unit := do
  let line ← readLine ("Enter a value for " ++ target.name ++ ": ") p
  let value ← inputValue policy target p line
  assign target (.int value)

def readTargets (policy : Policy) (p : Position) : List Identifier → Exec Unit
  | [] => return
  | target :: rest => do
    readTarget policy p target
    readTargets policy p rest

def textOfAll : List Expr → Exec String
  | [] => return ""
  | value :: rest => do
    let text := (← evaluate value).text
    return text ++ (← textOfAll rest)

def isYes (answer : String) : Bool :=
  let word := (Text.trim answer).map Char.toLower
  word == "y" || word == "yes"

/-- Whether the loop at `p` goes on after so many iterations, now that its limit is reached. -/
def confirm (policy : Policy) (p : Position) (iterations : Nat) : Exec Bool := do
  match policy.loopGuard with
  | .proceed => return true
  | .abort => return false
  | .consult => ask (.consult iterations)
  | .prompt =>
    let question := "Loop executed " ++ Text.decimal iterations ++ " times. Continue? (y/n): "
    return (← readLine question p).any isYes

def guardLoop (policy : Policy) (p : Position) (iterations : Nat) : Exec Unit := do
  if policy.guards iterations then
    if !(← confirm policy p iterations) then
      note (.loopStopped iterations p)
      fail (.loopStopped iterations) p

/-- Repeats `body` while `condition` holds, for at most `fuel` more iterations after those `done`.
The count has no bound; a counter of 64 bits agrees with it below `2 ^ 64` iterations of one loop,
and would then start again from zero. -/
def loop (policy : Policy) (p : Position) (condition : Exec Bool) (body : Exec Unit) :
    (fuel done : Nat) → Exec Unit
  | 0, _ => halt .outOfFuel
  | fuel + 1, done => do
    if ← condition then
      body
      guardLoop policy p (done + 1)
      loop policy p condition body fuel (done + 1)
    else
      note (.loopFinished done p)

end Exec

open Exec

namespace Statement

mutual

/-- Executes a statement, with `fuel` iterations for each loop. -/
def exec (policy : Policy) (fuel : Nat) : Statement → Exec Unit
  | .assign target value p => do
    checkInterrupt p
    Exec.assign target (← evaluate value)
  | .read targets p => do
    checkInterrupt p
    readTargets policy p targets
  | .write values p => do
    checkInterrupt p
    Exec.writeLine (← textOfAll values) p
  | .block body p => do
    checkInterrupt p
    execAll policy fuel body
  | .ifThen condition consequent p => do
    checkInterrupt p
    if ← holds condition then
      consequent.exec policy fuel
  | .ifElse condition consequent alternative p => do
    checkInterrupt p
    if ← holds condition then
      consequent.exec policy fuel
    else
      alternative.exec policy fuel
  | .whileDo condition body p => do
    checkInterrupt p
    loop policy p (holds condition) (body.exec policy fuel) fuel 0

def execAll (policy : Policy) (fuel : Nat) : List Statement → Exec Unit
  | [] => return
  | s :: rest => do
    s.exec policy fuel
    execAll policy fuel rest

end

end Statement

/-- Executes a checked program from its initial store. -/
def CheckedProgram.exec (policy : Policy) (fuel : Nat) (checked : CheckedProgram) : Exec Unit := do
  setStore (.ofSymbols checked.symbols)
  note (.started checked.program.name.name checked.symbols.size)
  Statement.execAll policy fuel checked.program.statements
  note .finished

end TinyPascal
