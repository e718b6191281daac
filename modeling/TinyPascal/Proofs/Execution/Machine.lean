import Mathlib.Logic.Relation
import TinyPascal.Interpreter
import TinyPascal.Proofs.Execution.Observation

/-!
# Execution step by step

A machine that executes a program in small steps, with a list of tasks that are left. Between two
steps its state can be looked at, so the states it reaches are those of every moment of a run, also
of a run without end. All that the execution of a statement gives or shows, the machine reaches.
-/
namespace TinyPascal

open Exec

/-- A piece of work that is left to do. A loop at `p` tests its condition and asks its guard after
`done` iterations. -/
inductive Task where
  | statement (s : Statement)
  | read (targets : List Identifier) (p : Position)
  | test (condition : Expr) (body : Statement) (p : Position) (done : Nat)
  | guard (condition : Expr) (body : Statement) (p : Position) (done : Nat)
  | note (n : Note)

namespace Task

/-- One step of a task, and the tasks that it leaves. -/
def step (policy : Policy) : Task → Exec (List Task)
  | statement (.assign target value p) => do
    checkInterrupt p
    Exec.assign target (← evaluate value)
    return []
  | statement (.read targets p) => do
    checkInterrupt p
    return [read targets p]
  | statement (.write values p) => do
    checkInterrupt p
    writeLine (← textOfAll values) p
    return []
  | statement (.block body p) => do
    checkInterrupt p
    return body.map statement
  | statement (.ifThen condition consequent p) => do
    checkInterrupt p
    return if ← holds condition then [statement consequent] else []
  | statement (.ifElse condition consequent alternative p) => do
    checkInterrupt p
    return if ← holds condition then [statement consequent] else [statement alternative]
  | statement (.whileDo condition body p) => do
    checkInterrupt p
    return [test condition body p 0]
  | read [] _ => return []
  | read (target :: rest) p => do
    readTarget policy p target
    return [read rest p]
  | test condition body p done => do
    if ← holds condition then
      return [statement body, guard condition body p (done + 1)]
    else
      Exec.note (.loopFinished done p)
      return []
  | guard condition body p done => do
    guardLoop policy p done
    return [test condition body p done]
  | note n => do
    Exec.note n
    return []

def condition? : Task → Option Expr
  | statement (.ifThen condition _ _) | statement (.ifElse condition _ _ _)
  | test condition _ _ _ => some condition
  | _ => none

end Task

structure Config where
  tasks : List Task
  state : State

namespace Config

/-- One step of the first task, for some answers to its requests. -/
inductive Step (policy : Policy) : Config → Config → Prop where
  | step {t : Task} {first rest : List Task} {state next : State}
      (h : (t.step policy state).Gives first next) :
      Step policy ⟨t :: rest, state⟩ ⟨first ++ rest, next⟩

abbrev Reaches (policy : Policy) : Config → Config → Prop := Relation.ReflTransGen (Step policy)

/-- What the next step shows. The run may also be cut off here. -/
inductive Shows (policy : Policy) : Config → Observation → Prop where
  | step {t : Task} {rest : List Task} {state : State} {o : Observation}
      (h : (t.step policy state).Shows o) : Shows policy ⟨t :: rest, state⟩ o
  | exhaustion {tasks : List Task} {state : State} :
      Shows policy ⟨tasks, state⟩ (.exhaustion state)

end Config

open Config

/-- The machine reaches all that an action gives or shows if it starts with the given tasks. -/
def Simulates (policy : Policy) (action : Exec Unit) (tasks : List Task) : Prop :=
  ∀ (state : State) (rest : List Task),
    (∀ last, (action state).Gives () last → Reaches policy ⟨tasks ++ rest, state⟩ ⟨rest, last⟩) ∧
    ∀ o, (action state).Shows o →
      ∃ config, Reaches policy ⟨tasks ++ rest, state⟩ config ∧ config.Shows policy o

namespace Simulates

variable {policy : Policy}

theorem done : Simulates policy (pure ()) [] := by
  intro state rest
  constructor
  · intro last h
    cases h
    exact .refl
  · intro o h
    cases h

theorem exhausted (tasks : List Task) : Simulates policy (halt .outOfFuel) tasks := by
  intro state rest
  constructor
  · intro last h
    cases h
  · intro o h
    cases h
    exact ⟨_, .refl, .exhaustion⟩

/-- An action is simulated if its first part is a step of a task and each continuation is simulated
by the tasks that the step leaves. -/
theorem step {α : Type} {t : Task} {first : Exec α} {next : α → Exec Unit} {left : α → List Task}
    (hstep : t.step policy = first >>= fun a => pure (left a))
    (hnext : ∀ a, Simulates policy (next a) (left a)) :
    Simulates policy (first >>= next) [t] := by
  intro state rest
  have hmove : ∀ {a mid}, (first state).Gives a mid →
      Step policy ⟨[t] ++ rest, state⟩ ⟨left a ++ rest, mid⟩ := by
    intro a mid ha
    apply Step.step
    rw [hstep]
    exact ha.andThen .ended
  constructor
  · intro last h
    obtain ⟨a, mid, ha, h⟩ := Run.Gives.of_andThen h
    exact .head (hmove ha) ((hnext a mid rest).1 last h)
  · intro o h
    rcases Run.Shows.of_andThen h with h | ⟨a, mid, ha, h⟩
    · refine ⟨_, .refl, .step ?_⟩
      rw [hstep]
      exact h.andThen _
    · obtain ⟨config, hreach, hshows⟩ := (hnext a mid rest).2 o h
      exact ⟨config, .head (hmove ha) hreach, hshows⟩

theorem append {x y : Exec Unit} {ts us : List Task} (hx : Simulates policy x ts)
    (hy : Simulates policy y us) : Simulates policy (x >>= fun _ => y) (ts ++ us) := by
  intro state rest
  rw [List.append_assoc]
  constructor
  · intro last h
    obtain ⟨_, mid, ha, h⟩ := Run.Gives.of_andThen h
    exact ((hx state (us ++ rest)).1 mid ha).trans ((hy mid rest).1 last h)
  · intro o h
    rcases Run.Shows.of_andThen h with h | ⟨_, mid, ha, h⟩
    · exact (hx state (us ++ rest)).2 o h
    · obtain ⟨config, hreach, hshows⟩ := (hy mid rest).2 o h
      exact ⟨config, ((hx state (us ++ rest)).1 mid ha).trans hreach, hshows⟩

theorem single {t : Task} {action : Exec Unit}
    (hstep : t.step policy = action >>= fun _ => pure []) : Simulates policy action [t] := by
  have h : Simulates policy (action >>= fun _ => pure ()) [t] := step hstep fun _ => done
  rwa [bind_pure_unit] at h

theorem branch {t : Task} {first : Exec Bool} {x y : Exec Unit} {ts us : List Task}
    (hstep : t.step policy = first >>= fun b => pure (if b then ts else us))
    (hx : Simulates policy x ts) (hy : Simulates policy y us) :
    Simulates policy (first >>= fun b => if b then x else y) [t] := by
  refine step hstep fun b => ?_
  cases b with
  | true => exact hx
  | false => exact hy

theorem readTargets (p : Position) (targets : List Identifier) :
    Simulates policy (readTargets policy p targets) [.read targets p] := by
  induction targets with
  | nil => exact single rfl
  | cons target rest ih => exact step rfl fun _ => ih

/-- A loop is simulated by the test of its condition, by induction on its fuel. The note at the end
of the loop belongs to the step that finds the condition false. -/
theorem loop {condition : Expr} {body : Statement} {p : Position} {action : Exec Unit}
    (hbody : Simulates policy action [.statement body]) (fuel done : Nat) :
    Simulates policy (loop policy p (holds condition) action fuel done)
      [.test condition body p done] := by
  induction fuel generalizing done with
  | zero => exact exhausted _
  | succ fuel ih =>
    have hround : Simulates policy
        (action >>= fun _ => guardLoop policy p (done + 1) >>= fun _ =>
          Exec.loop policy p (holds condition) action fuel (done + 1))
        [.statement body, .guard condition body p (done + 1)] :=
      hbody.append (step rfl fun _ => ih (done + 1))
    let first : Exec Bool := holds condition >>= fun b =>
      if b then pure true else Exec.note (.loopFinished done p) >>= fun _ => pure false
    have hstep : Task.step policy (.test condition body p done) = first >>= fun b =>
        pure (if b then [.statement body, .guard condition body p (done + 1)] else []) := by
      simp only [Task.step, first, bind_assoc]
      congr 1
      funext b
      cases b <;> simp
    have hloop : Exec.loop policy p (holds condition) action (fuel + 1) done = first >>= fun b =>
        if b then (action >>= fun _ => guardLoop policy p (done + 1) >>= fun _ =>
          Exec.loop policy p (holds condition) action fuel (done + 1)) else pure () := by
      simp only [Exec.loop, first, bind_assoc]
      congr 1
      funext b
      cases b <;> simp
    rw [hloop]
    exact branch hstep hround Simulates.done

end Simulates

namespace Statement

variable {policy : Policy} {fuel : Nat}

mutual

theorem simulates : ∀ s : Statement, Simulates policy (s.exec policy fuel) [.statement s]
  | .assign target value p => by
    rw [exec]
    exact .single (by simp [Task.step])
  | .read targets p => by
    rw [exec]
    exact .step rfl fun _ => .readTargets p targets
  | .write values p => by
    rw [exec]
    exact .single (by simp [Task.step])
  | .block body p => by
    rw [exec]
    exact .step rfl fun _ => simulatesAll body
  | .ifThen condition consequent p => by
    rw [exec, ← bind_assoc]
    exact .branch (by simp [Task.step]) (simulates consequent) .done
  | .ifElse condition consequent alternative p => by
    rw [exec, ← bind_assoc]
    exact .branch (by simp [Task.step]) (simulates consequent) (simulates alternative)
  | .whileDo condition body p => by
    rw [exec]
    exact .step rfl fun _ => .loop (simulates body) fuel 0

theorem simulatesAll : ∀ body : List Statement,
    Simulates policy (execAll policy fuel body) (body.map .statement)
  | [] => by
    rw [execAll]
    exact .done
  | s :: rest => by
    rw [execAll]
    exact (simulates s).append (simulatesAll rest)

end

end Statement

namespace CheckedProgram

def tasks (checked : CheckedProgram) : List Task :=
  .note (.started checked.program.name.name checked.symbols.size) ::
    (checked.program.statements.map .statement ++ [.note .finished])

def initial (checked : CheckedProgram) (interrupted : Bool) : Config :=
  ⟨checked.tasks, ⟨.ofSymbols checked.symbols, interrupted⟩⟩

variable {policy : Policy} {fuel : Nat} {interrupted : Bool} {checked : CheckedProgram}

theorem simulates_start : Simulates policy
    (do
      Exec.note (.started checked.program.name.name checked.symbols.size)
      Statement.execAll policy fuel checked.program.statements
      Exec.note .finished)
    checked.tasks := by
  have hstarted : Simulates policy
      (Exec.note (.started checked.program.name.name checked.symbols.size)) [.note _] := .single rfl
  have hfinished : Simulates policy (Exec.note .finished) [.note .finished] := .single rfl
  exact hstarted.append ((Statement.simulatesAll _).append hfinished)

/-- A program that comes to its end leaves the machine without tasks. -/
theorem reaches_of_gives {last : State}
    (h : (checked.start policy fuel interrupted).Gives () last) :
    Reaches policy (checked.initial interrupted) ⟨[], last⟩ := by
  have hreach := (simulates_start (checked.initial interrupted).state []).1 last h
  rwa [List.append_nil] at hreach

/-- All that the run of a program shows is shown at a configuration that the machine reaches. -/
theorem reaches_of_shows {o : Observation}
    (h : (checked.start policy fuel interrupted).Shows o) :
    ∃ config, Reaches policy (checked.initial interrupted) config ∧ config.Shows policy o := by
  have hreach := (simulates_start (checked.initial interrupted).state []).2 o h
  rwa [List.append_nil] at hreach

end CheckedProgram

end TinyPascal
