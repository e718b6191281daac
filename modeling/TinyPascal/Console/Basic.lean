import TinyPascal.Execution.Run

/-!
# Consoles, and runs conducted on them

A console is a state machine that answers the console calls of a run, and an adviser is one that
answers the questions of loop guards. Conducting a run on the two gives its outcome, its final state
and the moments at which it was paused. Notes need no answer and never raise the interrupt.
-/
namespace TinyPascal

/-- A machine that reads lines, writes lines and shows warnings. -/
structure Console (σ : Type) where
  readLine : String → σ → Answer (Except String (Option String)) × σ
  writeLine : String → σ → Answer (Except String Unit) × σ
  warn : String → σ → Answer (Except String Unit) × σ

/-- A machine that decides whether loops go on. -/
structure Adviser (γ : Type) where
  consult : Nat → γ → Answer Bool × γ

/-- An adviser that never lets a loop go on. -/
def Adviser.silent : Adviser Unit where
  consult _ state := ({ result := false }, state)

/-- A pause of a run: the request, the state of the execution at the time, and the answer. -/
structure Moment where
  request : Request
  state : State
  answer : Answer request.Result

/-- A run that was conducted to its end. -/
structure Conducted (α σ γ : Type) where
  outcome : Except Halt α
  state : State
  console : σ
  adviser : γ
  moments : List Moment

/-- Goes on from the end of a conducted run that came to a result. -/
def Conducted.andThen {α β σ γ : Type} (conducted : Conducted α σ γ)
    (next : α → State → σ → γ → Conducted β σ γ) : Conducted β σ γ :=
  match conducted.outcome with
  | .ok a =>
    let rest := next a conducted.state conducted.console conducted.adviser
    { rest with moments := conducted.moments ++ rest.moments }
  | .error halt => { conducted with outcome := .error halt }

def Request.answered {σ γ : Type} (console : Console σ) (adviser : Adviser γ) (s : σ) (g : γ) :
    (request : Request) → Answer request.Result × σ × γ
  | readLine prompt => let (answer, s) := console.readLine prompt s; (answer, s, g)
  | writeLine line => let (answer, s) := console.writeLine line s; (answer, s, g)
  | warn message => let (answer, s) := console.warn message s; (answer, s, g)
  | consult iterations => let (answer, g) := adviser.consult iterations g; (answer, s, g)
  | note _ => ({ result := () }, s, g)

namespace Run

variable {α σ γ : Type}

/-- Conducts a run to its end. `past` holds the earlier moments, the latest first. -/
def conductAfter (console : Console σ) (adviser : Adviser γ) :
    Run α → (past : List Moment) → σ → γ → Conducted α σ γ
  | .ended outcome state, past, s, g => ⟨outcome, state, s, g, past.reverse⟩
  | .paused request state resume, past, s, g =>
    let (answer, s, g) := request.answered console adviser s g
    (resume answer).conductAfter console adviser (⟨request, state, answer⟩ :: past) s g

def conduct (console : Console σ) (adviser : Adviser γ) (run : Run α) (s : σ) (g : γ) :
    Conducted α σ γ :=
  run.conductAfter console adviser [] s g

theorem conductAfter_eq (console : Console σ) (adviser : Adviser γ) (run : Run α)
    (past : List Moment) (s : σ) (g : γ) :
    run.conductAfter console adviser past s g =
      { run.conduct console adviser s g with
        moments := past.reverse ++ (run.conduct console adviser s g).moments } := by
  unfold conduct
  induction run generalizing past s g with
  | ended outcome state => simp [conductAfter]
  | paused request state resume ih =>
    simp only [conductAfter]
    rw [ih _ (_ :: past), ih _ [_]]
    simp

@[simp] theorem conduct_ended (console : Console σ) (adviser : Adviser γ)
    (outcome : Except Halt α) (state : State) (s : σ) (g : γ) :
    (ended outcome state).conduct console adviser s g = ⟨outcome, state, s, g, []⟩ := rfl

/-- The first moment of a paused run, followed by those of the run that goes on. -/
theorem conduct_paused (console : Console σ) (adviser : Adviser γ) (request : Request)
    (state : State) (resume : Answer request.Result → Run α) (s : σ) (g : γ) :
    (paused request state resume).conduct console adviser s g =
      let (answer, s, g) := request.answered console adviser s g
      let rest := (resume answer).conduct console adviser s g
      { rest with moments := ⟨request, state, answer⟩ :: rest.moments } := by
  simp only [conduct, conductAfter]
  rw [conductAfter_eq]
  rfl

/-- To conduct one run after another is to conduct the first, and then the second from where the
first has left the console and the adviser. -/
theorem conduct_andThen {β : Type} (console : Console σ) (adviser : Adviser γ) (run : Run α)
    (next : α → State → Run β) (s : σ) (g : γ) :
    (run.andThen next).conduct console adviser s g =
      (run.conduct console adviser s g).andThen fun a state s g =>
        (next a state).conduct console adviser s g := by
  induction run generalizing s g with
  | ended outcome state => cases outcome <;> simp [Conducted.andThen]
  | paused request state resume ih =>
    simp only [andThen_paused, conduct_paused, ih, Conducted.andThen]
    split <;> simp

end Run

end TinyPascal
