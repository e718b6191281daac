import TinyPascal.Console.Scripted
import TinyPascal.Execution.Session
import TinyPascal.Proofs.Execution.Logic

/-!
# The frame of an execution

Which variables there are is settled when a program starts, and a statement changes only the
variables that it assigns or reads into, wherever it stops. The invariant compares every store that
comes up with the one at the start, so it also covers failures, guards that stop a loop, interrupts
and loops without end.
-/
namespace TinyPascal

open Exec

namespace Statement

mutual

/-- The names that a statement assigns or reads into, also inside other statements. -/
def targets : Statement → List String
  | assign target _ _ => [target.name]
  | read targets _ => targets.map Identifier.name
  | write _ _ => []
  | block body _ => targetsOfAll body
  | ifThen _ consequent _ => consequent.targets
  | ifElse _ consequent alternative _ => consequent.targets ++ alternative.targets
  | whileDo _ body _ => body.targets

def targetsOfAll : List Statement → List String
  | [] => []
  | s :: rest => s.targets ++ targetsOfAll rest

end

end Statement

namespace Store

/-- `before.ChangesOnly names after`: the two stores hold the same variables, with the same values
except perhaps for those named. -/
structure ChangesOnly (names : List String) (before after : Store) : Prop where
  mem_iff : ∀ name, name ∈ after ↔ name ∈ before
  getElem?_eq : ∀ name, name ∉ names → after[name]? = before[name]?

namespace ChangesOnly

variable {names : List String} {before middle after : Store}

theorem refl (names : List String) (store : Store) : store.ChangesOnly names store :=
  ⟨fun _ => Iff.rfl, fun _ _ => rfl⟩

/-- An assignment replaces a value and adds no name. -/
theorem assign (h : before.ChangesOnly names middle) {name : String} {value : Value}
    (hname : name ∈ names) (hassign : middle.assign name value = .ok after) :
    before.ChangesOnly names after := by
  unfold Store.assign at hassign
  split at hassign
  · next hbound =>
    cases hassign
    constructor
    · intro other
      rw [← h.mem_iff, Std.TreeMap.mem_insert, Std.LawfulEqOrd.compare_eq_iff_eq]
      constructor
      · rintro (rfl | hother)
        · exact hbound
        · exact hother
      · exact .inr
    · intro other hother
      have hne : name ≠ other := by
        rintro rfl
        exact hother hname
      rw [Std.TreeMap.getElem?_insert, if_neg (mt Std.LawfulEqOrd.eq_of_compare hne)]
      exact h.getElem?_eq other hother
  · cases hassign

end ChangesOnly

theorem mem_ofSymbols {symbols : SymbolTable} {name : String} :
    name ∈ ofSymbols symbols ↔ name ∈ symbols :=
  Std.TreeMap.mem_map

end Store

namespace Exec

variable {α : Type} {names : List String} {before : Store}

/-- From stores that differ from `before` in the given names only, an action leads to such stores
and shows no others. -/
abbrev Confined (names : List String) (before : Store) (action : Exec α) : Prop :=
  Meets (fun state => before.ChangesOnly names state.store)
    (fun o => before.ChangesOnly names o.state.store) action fun _ => True

theorem permissive_confined (names : List String) (before : Store) :
    Permissive (fun state => before.ChangesOnly names state.store)
      fun o => before.ChangesOnly names o.state.store where
  raise _ hstate := hstate
  pause _ hstate := hstate
  failure _ hstate _ := hstate
  consult _ hstate := hstate

theorem confined_evaluate (e : Expr) : Confined names before (evaluate e) :=
  .evaluate_of_failure (fun _ _ hstate => hstate) e

theorem confined_assign {target : Identifier} (h : target.name ∈ names) (value : Value) :
    Confined names before (Exec.assign target value) :=
  .assign (fun _ _ hstate hassign => hstate.assign h hassign) fun _ _ hstate _ => hstate

end Exec

namespace Statement

variable {policy : Policy} {fuel : Nat} {names : List String} {before : Store}

mutual

theorem confined : ∀ s : Statement, s.targets ⊆ names → Confined names before (s.exec policy fuel)
  | .assign target value p, h => by
    rw [targets, List.cons_subset] at h
    rw [exec]
    exact ((permissive_confined names before).checkInterrupt p).bind fun _ _ =>
      (confined_evaluate value).bind fun v _ => confined_assign h.1 v
  | .read targets p, h => by
    rw [Statement.targets] at h
    rw [exec]
    refine ((permissive_confined names before).checkInterrupt p).bind fun _ _ => ?_
    exact (permissive_confined names before).readTargets policy p fun target htarget n =>
      confined_assign (h (List.mem_map_of_mem htarget)) (.int n)
  | .write values p, _ => by
    rw [exec]
    refine ((permissive_confined names before).checkInterrupt p).bind fun _ _ => ?_
    exact (Meets.textOfAll fun e _ => confined_evaluate e).bind fun line _ =>
      (permissive_confined names before).writeLine line p
  | .block body p, h => by
    rw [targets] at h
    rw [exec]
    exact ((permissive_confined names before).checkInterrupt p).bind fun _ _ => confinedAll body h
  | .ifThen condition consequent p, h => by
    rw [targets] at h
    rw [exec]
    refine ((permissive_confined names before).checkInterrupt p).bind fun _ _ => ?_
    exact (Meets.holds (confined_evaluate condition)).bind fun _ _ =>
      .ite (confined consequent h) (.pure trivial)
  | .ifElse condition consequent alternative p, h => by
    rw [targets, List.append_subset] at h
    rw [exec]
    refine ((permissive_confined names before).checkInterrupt p).bind fun _ _ => ?_
    exact (Meets.holds (confined_evaluate condition)).bind fun _ _ =>
      .ite (confined consequent h.1) (confined alternative h.2)
  | .whileDo condition body p, h => by
    rw [targets] at h
    rw [exec]
    refine ((permissive_confined names before).checkInterrupt p).bind fun _ _ => ?_
    exact (permissive_confined names before).loop (fun _ hstate => hstate) policy p
      (Meets.holds (confined_evaluate condition)) (confined body h) fuel 0

theorem confinedAll : ∀ body : List Statement, targetsOfAll body ⊆ names →
    Confined names before (execAll policy fuel body)
  | [], _ => by
    rw [execAll]
    exact .pure trivial
  | s :: rest, h => by
    rw [targetsOfAll, List.append_subset] at h
    rw [execAll]
    exact (confined s h.1).bind fun _ _ => confinedAll rest h.2

end

end Statement

/-- After its store is reset, the execution of a program is confined to its targets. -/
theorem CheckedProgram.confined (policy : Policy) (fuel : Nat) (checked : CheckedProgram)
    (before : Store) :
    Confined (Statement.targetsOfAll checked.program.statements) before (do
      Exec.note (.started checked.program.name.name checked.symbols.size)
      Statement.execAll policy fuel checked.program.statements
      Exec.note .finished) := by
  have hpermissive := permissive_confined (Statement.targetsOfAll checked.program.statements) before
  exact (hpermissive.note _).bind fun _ _ =>
    (Statement.confinedAll _ (List.Subset.refl _)).bind fun _ _ => hpermissive.note _

namespace Command

def symbolsAfter (symbols : SymbolTable) : Command → SymbolTable
  | execute checked => checked.symbols
  | _ => symbols

/-- The symbols of the program executed last in a list of commands. There are none before the first
program. -/
def lastSymbols (commands : List Command) : SymbolTable :=
  commands.foldl symbolsAfter ∅

end Command

namespace Session

variable {σ γ : Type} (console : Console σ) (adviser : Adviser γ)

/-- The session after commands that are conducted one after the other, each with the fuel given for
it. -/
def performAll (policy : Policy) (session : Session σ γ) (calls : List (Command × Nat)) :
    Session σ γ :=
  calls.foldl (fun session call => (session.perform console adviser policy call.2 call.1).2.2)
    session

variable {policy : Policy} {fuel : Nat} {session : Session σ γ} {symbols : SymbolTable}

/-- Whatever it comes to, a statement leaves a store that differs in its targets only. -/
theorem changesOnly_perform_statement (s : Statement) :
    session.state.store.ChangesOnly s.targets
      (session.perform console adviser policy fuel (.statement s)).2.2.state.store := by
  have h : Confined s.targets session.state.store
      (s.exec policy fuel >>= fun _ => pure Response.done) :=
    (s.confined (List.Subset.refl _)).bind fun _ _ => .pure trivial
  exact h.state_conduct console adviser session.state (.refl _ _) session.console session.adviser

/-- Whatever it comes to, a program leaves a store with the names of its symbols, as the store is
reset first. -/
theorem mem_store_perform_execute (checked : CheckedProgram) (name : String) :
    name ∈ (session.perform console adviser policy fuel (.execute checked)).2.2.state.store ↔
      name ∈ checked.symbols := by
  have hdone : Confined _ (.ofSymbols checked.symbols) (_ >>= fun _ => pure Response.done) :=
    (checked.confined policy fuel _).bind fun _ _ => .pure trivial
  have hlast := hdone.state_conduct console adviser
    ⟨.ofSymbols checked.symbols, session.state.interrupted⟩ (.refl _ _) session.console
    session.adviser
  exact (hlast.mem_iff name).trans Store.mem_ofSymbols

/-- Every command keeps the names of the store, except that a program brings its own. -/
theorem mem_store_perform (h : ∀ name, name ∈ session.state.store ↔ name ∈ symbols)
    (command : Command) (name : String) :
    name ∈ (session.perform console adviser policy fuel command).2.2.state.store ↔
      name ∈ command.symbolsAfter symbols := by
  cases command with
  | execute checked => exact mem_store_perform_execute console adviser checked name
  | statement s =>
    exact ((changesOnly_perform_statement console adviser s).mem_iff name).trans (h name)
  | evaluate e =>
    have hevaluate : Confined [] session.state.store
        (Exec.evaluate e >>= fun value => pure (Response.value value)) :=
      (confined_evaluate e).bind fun _ _ => .pure trivial
    have hlast := hevaluate.state_conduct console adviser session.state (.refl _ _) session.console
      session.adviser
    exact (hlast.mem_iff name).trans (h name)
  | raise => exact h name

theorem mem_store_performAll (h : ∀ name, name ∈ session.state.store ↔ name ∈ symbols)
    (calls : List (Command × Nat)) (name : String) :
    name ∈ (session.performAll console adviser policy calls).state.store ↔
      name ∈ (calls.map Prod.fst).foldl Command.symbolsAfter symbols := by
  induction calls generalizing session symbols with
  | nil => exact h name
  | cons call rest ih => exact ih (mem_store_perform console adviser h call.1)

end Session

/-- In a session the names of the store are always those of the program executed last, whatever the
commands came to, and a statement leaves all variables as they are but its targets. -/
theorem names_and_frame_of_session {σ γ : Type} (console : Console σ) (adviser : Adviser γ)
    (policy : Policy) :
    (∀ (interrupted : Bool) (s : σ) (g : γ) (calls : List (Command × Nat)) (name : String),
      name ∈ ((Session.start interrupted s g).performAll console adviser policy calls).state.store ↔
        name ∈ Command.lastSymbols (calls.map Prod.fst)) ∧
    ∀ (session : Session σ γ) (fuel : Nat) (s : Statement) (name : String), name ∉ s.targets →
      (session.perform console adviser policy fuel (.statement s)).2.2.state.store[name]? =
        session.state.store[name]? := by
  constructor
  · intro interrupted s g calls name
    exact Session.mem_store_performAll console adviser (fun _ => Iff.rfl) calls name
  · intro session fuel statement name hname
    exact (Session.changesOnly_perform_statement console adviser statement).getElem?_eq name hname

/-- Assigns to `x`, and then reads into `x` and into `z`. -/
def Statement.readTwo : Statement :=
  .block [.assign ⟨"x", .start⟩ (.int 5 .start) .start,
    .read [⟨"x", .start⟩, ⟨"z", .start⟩] .start] .start

/-- Where there is no `z`, the statement fails after it has changed `x`, and keeps `y`. -/
theorem names_and_frame_of_session_readTwo :
    let session : Session Script Unit :=
      ⟨⟨((∅ : Store).insert "x" (.int 7)).insert "y" (.int 8), false⟩,
        ⟨["1", "2"], #[], #[], #[]⟩, ()⟩
    let performed := session.perform Script.console Adviser.silent {} 0 (.statement .readTwo)
    performed.1 = .error (.error ⟨.unboundVariable "z", .start⟩) ∧
      performed.2.2.state.store["x"]? = some (.int 1) ∧ "y" ∉ Statement.readTwo.targets ∧
      performed.2.2.state.store["y"]? = session.state.store["y"]? := by
  have hother : "y" ∉ Statement.readTwo.targets := by decide
  refine ⟨rfl, by decide +kernel, hother, ?_⟩
  exact (names_and_frame_of_session Script.console Adviser.silent {}).2 _ 0 .readTwo "y" hother

end TinyPascal
