import TinyPascal.Execution.Evaluation

/-!
# Runs

A run is what the outside sees of an execution: either it has ended, with an outcome and a final
state, or it is paused on a request and goes on once the request is answered. Every answer may also
raise the interrupt, and what is raised stays raised.

Nothing in a run depends on how requests are answered. Consoles and advisers are attached later, and
the same run can be conducted on any of them.
-/
namespace TinyPascal

structure State where
  store : Store
  interrupted : Bool

/-- What an execution reports without expecting an answer. -/
inductive Note where
  | started (program : String) (size : Nat)
  | finished
  | loopFinished (iterations : Nat) (position : Position)
  | loopStopped (iterations : Nat) (position : Position)
  | interrupted (position : Position)
deriving DecidableEq, Repr

/-- What an execution asks of its surroundings. -/
inductive Request where
  | readLine (prompt : String)
  | writeLine (line : String)
  | warn (message : String)
  | consult (iterations : Nat)
  | note (note : Note)
deriving DecidableEq, Repr

/-- The result that a request asks for. The console may fail, with a description of the failure, and
a line that is read is absent at the end of input. -/
def Request.Result : Request → Type
  | readLine _ => Except String (Option String)
  | writeLine _ => Except String Unit
  | warn _ => Except String Unit
  | consult _ => Bool
  | note _ => Unit

/-- The answer to a request: its result, and whether the interrupt was raised meanwhile. -/
structure Answer (α : Type) where
  result : α
  raises : Bool := false
deriving DecidableEq, Repr

/-- Why an execution does not come to a result: the program failed or was interrupted, or a loop
used up the iterations it was allowed. -/
inductive Halt where
  | error (e : RuntimeError)
  | outOfFuel
deriving DecidableEq, Repr

/-- An execution as seen from outside. -/
inductive Run (α : Type) where
  | ended (outcome : Except Halt α) (state : State)
  | paused (request : Request) (state : State) (resume : Answer request.Result → Run α)

/-- Goes on with `next` where a run ends with a result. -/
def Run.andThen {α β : Type} : Run α → (α → State → Run β) → Run β
  | .ended (.ok a) state, next => next a state
  | .ended (.error halt) state, _ => .ended (.error halt) state
  | .paused request state resume, next => .paused request state fun answer =>
    (resume answer).andThen next

namespace Run

variable {α β δ : Type}

@[simp] theorem andThen_ok (a : α) (state : State) (next : α → State → Run β) :
    (ended (.ok a) state).andThen next = next a state := rfl

@[simp] theorem andThen_error (halt : Halt) (state : State) (next : α → State → Run β) :
    (ended (.error halt) state).andThen next = ended (.error halt) state := rfl

@[simp] theorem andThen_paused (request : Request) (state : State)
    (resume : Answer request.Result → Run α) (next : α → State → Run β) :
    (paused request state resume).andThen next =
      paused request state fun answer => (resume answer).andThen next := rfl

theorem andThen_assoc (run : Run α) (next : α → State → Run β) (last : β → State → Run δ) :
    (run.andThen next).andThen last =
      run.andThen fun a state => (next a state).andThen last := by
  induction run with
  | ended outcome state => cases outcome <;> rfl
  | paused request state resume ih => simp [ih]

theorem andThen_ended (run : Run α) :
    (run.andThen fun a state => ended (.ok a) state) = run := by
  induction run with
  | ended outcome state => cases outcome <;> rfl
  | paused request state resume ih => simp [ih]

end Run

/-- An action of the execution: a run from every state. -/
def Exec (α : Type) := State → Run α

namespace Exec

instance : Monad Exec where
  pure a := fun state => .ended (.ok a) state
  bind action next := fun state => (action state).andThen next

instance : LawfulMonad Exec :=
  .mk' _ (fun _ => funext fun _ => Run.andThen_ended _) (fun _ _ => rfl)
    (fun _ _ _ => funext fun _ => Run.andThen_assoc _ _ _)

def state : Exec State := fun state =>
  .ended (.ok state) state

def setStore (store : Store) : Exec Unit := fun state =>
  .ended (.ok ()) { state with store }

/-- Raises the interrupt, and says whether it was raised before. -/
def raise : Exec Bool := fun state =>
  .ended (.ok state.interrupted) { state with interrupted := true }

def halt {α : Type} (cause : Halt) : Exec α := fun state =>
  .ended (.error cause) state

def fail {α : Type} (fault : RuntimeFault) (p : Position) : Exec α :=
  halt (.error ⟨fault, p⟩)

def ofExcept {α : Type} : Except RuntimeError α → Exec α
  | .ok a => pure a
  | .error e => halt (.error e)

/-- Makes a request and waits for the result. -/
def ask (request : Request) : Exec request.Result := fun state =>
  .paused request state fun answer =>
    .ended (.ok answer.result) { state with interrupted := state.interrupted || answer.raises }

def note (n : Note) : Exec Unit :=
  ask (.note n)

/-- Stops at `p` if the interrupt is raised. -/
def checkInterrupt (p : Position) : Exec Unit := do
  if (← state).interrupted then
    note (.interrupted p)
    fail .aborted p

/-- The result of a console call, whose failure stops the run at `p`. -/
def orFail {α : Type} (p : Position) : Except String α → Exec α
  | .ok a => pure a
  | .error details => fail (.io details) p

def writeLine (line : String) (p : Position) : Exec Unit := do
  orFail p (← ask (.writeLine line))

def warn (message : String) (p : Position) : Exec Unit := do
  orFail p (← ask (.warn message))

/-- Prompts for a line, for the statement at `p`. A failure of the console comes before an
interrupt, and an interrupt before the use of the line. -/
def readLine (prompt : String) (p : Position) : Exec (Option String) := do
  let line ← orFail p (← ask (.readLine prompt))
  checkInterrupt p
  return line

def evaluate (e : Expr) : Exec Value := do
  ofExcept (e.eval (← state).store)

def holds (condition : Expr) : Exec Bool := do
  return (← evaluate condition).isTruthy

def assign (target : Identifier) (value : Value) : Exec Unit := do
  setStore (← ofExcept (RuntimeError.locate target.position
    ((← state).store.assign target.name value)))

end Exec

end TinyPascal
