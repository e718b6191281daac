import TinyPascal.Console.Basic
import TinyPascal.Execution.Statement

/-!
# Sessions

A session executes commands one after the other on one store, one console and one adviser. A command
that fails leaves what it has done so far, and the session goes on with the next.
-/
namespace TinyPascal

/-- What a session can be told to do. A program is run from its initial store, and a statement is
executed from the present one, checked or not. -/
inductive Command where
  | execute (checked : CheckedProgram)
  | statement (statement : Statement)
  | evaluate (expression : Expr)
  | raise

inductive Response where
  | done
  | value (value : Value)
  | raised (already : Bool)
deriving DecidableEq, Repr

def Command.exec (policy : Policy) (fuel : Nat) : Command → Exec Response
  | execute checked => do
    checked.exec policy fuel
    return .done
  | statement s => do
    s.exec policy fuel
    return .done
  | evaluate e => return .value (← Exec.evaluate e)
  | raise => return .raised (← Exec.raise)

/-- The state between two commands. -/
structure Session (σ γ : Type) where
  state : State
  console : σ
  adviser : γ

namespace Session

variable {σ γ : Type}

def start (interrupted : Bool) (console : σ) (adviser : γ) : Session σ γ :=
  ⟨⟨∅, interrupted⟩, console, adviser⟩

/-- Conducts a command: what it came to, the moments meanwhile, and the session after it. -/
def perform (console : Console σ) (adviser : Adviser γ) (policy : Policy) (fuel : Nat)
    (session : Session σ γ) (command : Command) :
    Except Halt Response × List Moment × Session σ γ :=
  let conducted := (command.exec policy fuel session.state).conduct console adviser
    session.console session.adviser
  (conducted.outcome, conducted.moments,
    ⟨conducted.state, conducted.console, conducted.adviser⟩)

end Session

end TinyPascal
