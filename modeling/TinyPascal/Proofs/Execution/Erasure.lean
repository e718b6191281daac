import TinyPascal.Interpreter
import TinyPascal.Proofs.Typing.Erasure

/-!
# Runs without positions

Positions get into notes and errors and nowhere else. A program and the program without positions
run side by side: they make the same requests, up to the positions of notes, and go on alike from
the same answers, with stores that hold the same values. On one console and one adviser they make
the same calls and end with the same result.
-/
namespace TinyPascal

def RuntimeError.erase (e : RuntimeError) : RuntimeError := ⟨e.fault, .start⟩

def Halt.erase : Halt → Halt
  | error e => error e.erase
  | outOfFuel => outOfFuel

def Note.erase : Note → Note
  | started program size => started program size
  | finished => finished
  | loopFinished iterations _ => loopFinished iterations .start
  | loopStopped iterations _ => loopStopped iterations .start
  | interrupted _ => interrupted .start

/-- A request without the place of a note. The other requests have no places. -/
def Request.erase : Request → Request
  | note n => note n.erase
  | request => request

/-- Two states hold the same values, and the interrupt is raised in both or in none. -/
structure State.Agrees (state other : State) : Prop where
  store : state.store.Equiv other.store
  interrupted : other.interrupted = state.interrupted

namespace Run

variable {α β : Type} {run other : Run α}

/-- `run.Parallel other`: from the same answers, the two runs make the same requests and come to the
same outcome, up to positions, in states that agree. -/
inductive Parallel : Run α → Run α → Prop where
  | ended {a : α} {state other : State} (hstate : state.Agrees other) :
      Parallel (.ended (.ok a) state) (.ended (.ok a) other)
  | halted {cause cause' : Halt} {state other : State} (hcause : cause'.erase = cause.erase)
      (hstate : state.Agrees other) :
      Parallel (.ended (.error cause) state) (.ended (.error cause') other)
  | paused {request : Request} {state other : State} {resume next : Answer request.Result → Run α}
      (hstate : state.Agrees other) (h : ∀ answer, Parallel (resume answer) (next answer)) :
      Parallel (.paused request state resume) (.paused request other next)
  | noted {n n' : Note} {state other : State} {resume : Answer (Request.note n).Result → Run α}
      {next : Answer (Request.note n').Result → Run α} (hnote : n'.erase = n.erase)
      (hstate : state.Agrees other) (h : ∀ answer, Parallel (resume answer) (next answer)) :
      Parallel (.paused (.note n) state resume) (.paused (.note n') other next)

theorem Parallel.andThen (h : run.Parallel other) {next after : α → State → Run β}
    (hnext : ∀ a state last, state.Agrees last → (next a state).Parallel (after a last)) :
    (run.andThen next).Parallel (other.andThen after) := by
  induction h with
  | ended hstate => exact hnext _ _ _ hstate
  | halted hcause hstate => exact .halted hcause hstate
  | paused hstate _ ih => exact .paused hstate ih
  | noted hnote hstate _ ih => exact .noted hnote hstate ih

end Run

section

variable {store other : Store}

theorem RuntimeError.locate_eq {α : Type} (p : Position) (result : Except RuntimeFault α) :
    locate .start result = (locate p result).mapError RuntimeError.erase := by
  cases result <;> rfl

theorem Store.fetch_eq (h : store.Equiv other) (name : String) :
    other.fetch name = store.fetch name := by
  rw [fetch, fetch, h.getElem?_eq]

/-- The value of an expression does not depend on where its parts stand. -/
theorem Expr.eval_erase (h : store.Equiv other) (e : Expr) :
    e.erase.eval other = (e.eval store).mapError RuntimeError.erase := by
  induction e with
  | int value p | str value p => rfl
  | var name p => rw [erase, eval, eval, Store.fetch_eq h, RuntimeError.locate_eq p]
  | neg operand p ih =>
    rw [erase, eval, eval, ih]
    cases operand.eval store with
    | error e => rfl
    | ok value => exact RuntimeError.locate_eq p value.negate
  | binary op left right p ihl ihr =>
    rw [erase, eval, eval, ihl, ihr]
    cases left.eval store with
    | error e => rfl
    | ok l =>
      cases right.eval store with
      | error e => rfl
      | ok r => exact RuntimeError.locate_eq p (op.apply l r)

end

namespace Exec

variable {α β : Type} {p q : Position} {policy : Policy}

/-- From states that agree, the two actions run side by side. -/
def Parallel (x y : Exec α) : Prop :=
  ∀ state other, state.Agrees other → (x state).Parallel (y other)

namespace Parallel

theorem pure (a : α) : Parallel (pure a) (pure a) := fun _ _ h => .ended h

theorem bind {x y : Exec α} {f g : α → Exec β} (hx : Parallel x y)
    (hnext : ∀ a, Parallel (f a) (g a)) : Parallel (x >>= f) (y >>= g) :=
  fun state other h => (hx state other h).andThen fun a => hnext a

theorem ite {condition : Bool} {x y x' y' : Exec α} (hx : Parallel x x') (hy : Parallel y y') :
    Parallel (if condition then x else y) (if condition then x' else y') := by
  cases condition with
  | true => exact hx
  | false => exact hy

theorem halt {cause cause' : Halt} (h : cause'.erase = cause.erase) :
    Parallel (halt cause : Exec α) (Exec.halt cause') := fun _ _ hstate => .halted h hstate

theorem fail (fault : RuntimeFault) : Parallel (fail fault p : Exec α) (Exec.fail fault q) :=
  halt rfl

theorem ask (request : Request) : Parallel (ask request) (Exec.ask request) := by
  intro state other h
  refine .paused h fun answer => .ended ⟨h.store, ?_⟩
  rw [h.interrupted]

theorem note {n n' : Note} (hnote : n'.erase = n.erase) :
    Parallel (note n) (Exec.note n') := by
  intro state other h
  refine .noted hnote h fun answer => .ended ⟨h.store, ?_⟩
  rw [h.interrupted]

theorem checkInterrupt : Parallel (checkInterrupt p) (Exec.checkInterrupt q) := by
  intro state other h
  have haction : Parallel (do Exec.note (.interrupted p); Exec.fail .aborted p : Exec Unit)
      (do Exec.note (.interrupted q); Exec.fail .aborted q) :=
    bind (note rfl) fun _ => fail .aborted
  change (if state.interrupted then _ else _ : Exec Unit) state |>.Parallel
    ((if other.interrupted then _ else _ : Exec Unit) other)
  rw [h.interrupted]
  exact ite haction (pure ()) state other h

theorem orFail (result : Except String α) : Parallel (orFail p result) (Exec.orFail q result) := by
  cases result with
  | ok a => exact pure a
  | error details => exact fail (.io details)

theorem writeLine (line : String) : Parallel (writeLine line p) (Exec.writeLine line q) :=
  bind (ask _) fun result => orFail result

theorem warn (message : String) : Parallel (warn message p) (Exec.warn message q) :=
  bind (ask _) fun result => orFail result

theorem readLine (prompt : String) : Parallel (readLine prompt p) (Exec.readLine prompt q) :=
  bind (ask _) fun result => bind (orFail result) fun line => bind checkInterrupt fun _ => pure line

theorem ofExcept (result : Except RuntimeError α) :
    Parallel (ofExcept result) (Exec.ofExcept (result.mapError RuntimeError.erase)) := by
  cases result with
  | ok a => exact pure a
  | error e => exact halt rfl

theorem evaluate (e : Expr) : Parallel (evaluate e) (Exec.evaluate e.erase) := by
  intro state other h
  have hresult := ofExcept (e.eval state.store) state other h
  rw [← Expr.eval_erase h.store] at hresult
  exact hresult

theorem holds (condition : Expr) : Parallel (holds condition) (Exec.holds condition.erase) :=
  bind (evaluate condition) fun value => pure value.isTruthy

theorem assign (target : Identifier) (value : Value) :
    Parallel (assign target value) (Exec.assign target.erase value) := by
  intro state other h
  change ((Exec.ofExcept (RuntimeError.locate target.position
      (state.store.assign target.name value)) state).andThen Exec.setStore).Parallel
    ((Exec.ofExcept (RuntimeError.locate .start
      (other.store.assign target.name value)) other).andThen Exec.setStore)
  rw [Store.assign, Store.assign, h.store.contains_eq]
  split
  · exact .ended ⟨h.store.insert target.name value, h.interrupted⟩
  · exact .halted rfl h

theorem fallback (target : Identifier) (defect : InputDefect) :
    Parallel (fallback policy target defect p) (Exec.fallback policy target.erase defect q) := by
  rw [Exec.fallback, Exec.fallback]
  split
  · next value _ => exact bind (warn _) fun _ => pure value
  · exact fail _

theorem inputValue (target : Identifier) (line : Option String) :
    Parallel (inputValue policy target p line) (Exec.inputValue policy target.erase q line) := by
  cases line with
  | none => exact fallback target .endOfInput
  | some line =>
    rw [Exec.inputValue, Exec.inputValue]
    split
    · next value _ => exact pure value
    · exact fallback target _

theorem readTargets (targets : List Identifier) :
    Parallel (readTargets policy p targets)
      (Exec.readTargets policy q (targets.map Identifier.erase)) := by
  induction targets with
  | nil => exact pure ()
  | cons target rest ih =>
    have htarget : Parallel (readTarget policy p target) (readTarget policy q target.erase) :=
      bind (readLine _) fun line => bind (inputValue target line) fun value =>
        assign target (.int value)
    exact bind htarget fun _ => ih

theorem textOfAll (values : List Expr) :
    Parallel (textOfAll values) (Exec.textOfAll (values.map Expr.erase)) := by
  induction values with
  | nil => exact pure ""
  | cons value rest ih => exact bind (evaluate value) fun _ => bind ih fun _ => pure _

theorem guardLoop (iterations : ℕ) :
    Parallel (guardLoop policy p iterations) (Exec.guardLoop policy q iterations) := by
  have hconfirm : Parallel (confirm policy p iterations) (confirm policy q iterations) := by
    rw [confirm, confirm]
    split
    · exact pure true
    · exact pure false
    · exact ask _
    · exact bind (readLine _) fun answer => pure _
  exact ite (bind hconfirm fun _ => ite (bind (note rfl) fun _ => fail _) (pure ())) (pure ())

theorem loop {condition condition' : Exec Bool} {body body' : Exec Unit}
    (hcondition : Parallel condition condition') (hbody : Parallel body body') (fuel done : ℕ) :
    Parallel (loop policy p condition body fuel done)
      (Exec.loop policy q condition' body' fuel done) := by
  induction fuel generalizing done with
  | zero => exact halt rfl
  | succ fuel ih =>
    exact bind hcondition fun _ =>
      ite (bind hbody fun _ => bind (guardLoop (done + 1)) fun _ => ih (done + 1)) (note rfl)

end Parallel

end Exec

namespace Statement

open Exec

mutual

theorem exec_parallel (policy : Policy) (fuel : ℕ) : ∀ s : Statement,
    Parallel (s.exec policy fuel) (s.erase.exec policy fuel)
  | .assign target value _ =>
    .bind .checkInterrupt fun _ => .bind (.evaluate value) fun value => .assign target value
  | .read targets _ => .bind .checkInterrupt fun _ => .readTargets targets
  | .write values _ =>
    .bind .checkInterrupt fun _ => .bind (.textOfAll values) fun text => .writeLine text
  | .block body _ => .bind .checkInterrupt fun _ => execAll_parallel policy fuel body
  | .ifThen condition consequent _ =>
    .bind .checkInterrupt fun _ => .bind (.holds condition) fun _ =>
      .ite (exec_parallel policy fuel consequent) (.pure ())
  | .ifElse condition consequent alternative _ =>
    .bind .checkInterrupt fun _ => .bind (.holds condition) fun _ =>
      .ite (exec_parallel policy fuel consequent) (exec_parallel policy fuel alternative)
  | .whileDo condition body _ =>
    .bind .checkInterrupt fun _ =>
      .loop (.holds condition) (exec_parallel policy fuel body) fuel 0

theorem execAll_parallel (policy : Policy) (fuel : ℕ) : ∀ body : List Statement,
    Parallel (execAll policy fuel body) (execAll policy fuel (eraseAll body))
  | [] => .pure ()
  | s :: rest => .bind (exec_parallel policy fuel s) fun _ => execAll_parallel policy fuel rest

end

end Statement

namespace SymbolTable.Agrees

variable {symbols other : SymbolTable}

theorem equiv_map_type (h : symbols.Agrees other) :
    (symbols.map fun _ symbol => symbol.type).Equiv (other.map fun _ symbol => symbol.type) := by
  refine .of_forall_constGet?_eq fun name => ?_
  rw [Std.TreeMap.getElem?_map, Std.TreeMap.getElem?_map]
  exact (h name).symm

theorem size_eq (h : symbols.Agrees other) : other.size = symbols.size := by
  have hsize := h.equiv_map_type.size_eq
  rw [Std.TreeMap.size_map, Std.TreeMap.size_map] at hsize
  exact hsize.symm

theorem equiv_ofSymbols (h : symbols.Agrees other) :
    (Store.ofSymbols symbols).Equiv (Store.ofSymbols other) := by
  refine .of_forall_constGet?_eq fun name => ?_
  have htype := congrArg (Option.map fun _ => Value.int 0) (h name)
  rw [typeOf?, typeOf?, Option.map_map, Option.map_map] at htype
  rw [Store.ofSymbols, Store.ofSymbols, Std.TreeMap.getElem?_map, Std.TreeMap.getElem?_map]
  exact htype.symm

end SymbolTable.Agrees

namespace CheckedProgram

open Exec

/-- The run of a program and that of the program without positions go side by side. -/
theorem start_parallel {checked other : CheckedProgram}
    (hsymbols : checked.symbols.Agrees other.symbols)
    (hprogram : other.program = checked.program.erase) (policy : Policy) (fuel : ℕ)
    (interrupted : Bool) :
    (checked.start policy fuel interrupted).Parallel (other.start policy fuel interrupted) := by
  have hstore : Parallel (setStore (.ofSymbols checked.symbols))
      (setStore (.ofSymbols other.symbols)) :=
    fun _ _ h => .ended ⟨hsymbols.equiv_ofSymbols, h.interrupted⟩
  have hstarted : (Note.started other.program.name.name other.symbols.size).erase =
      (Note.started checked.program.name.name checked.symbols.size).erase := by
    rw [hsymbols.size_eq, hprogram]
    rfl
  have hstatements := Statement.execAll_parallel policy fuel checked.program.statements
  have hexec : Parallel (checked.exec policy fuel) (other.exec policy fuel) := by
    rw [CheckedProgram.exec, CheckedProgram.exec]
    refine .bind hstore fun _ => .bind (.note hstarted) fun _ => .bind ?_ fun _ => .note rfl
    rw [hprogram]
    exact hstatements
  exact hexec _ _ ⟨.rfl, rfl⟩

end CheckedProgram

/-- Two conducted runs have made the same requests and come to the same outcome, up to positions,
and they leave the console and the adviser alike and states that agree. -/
structure Conducted.Parallel {α σ γ : Type} (conducted other : Conducted α σ γ) : Prop where
  requests : (other.moments.map fun m => m.request.erase) =
    conducted.moments.map fun m => m.request.erase
  outcome : other.outcome.mapError Halt.erase = conducted.outcome.mapError Halt.erase
  console : other.console = conducted.console
  adviser : other.adviser = conducted.adviser
  state : conducted.state.Agrees other.state

theorem Run.Parallel.conduct {α σ γ : Type} {run other : Run α} (h : run.Parallel other)
    (console : Console σ) (adviser : Adviser γ) (s : σ) (g : γ) :
    (run.conduct console adviser s g).Parallel (other.conduct console adviser s g) := by
  induction h generalizing s g with
  | ended hstate => exact ⟨rfl, rfl, rfl, rfl, hstate⟩
  | halted hcause hstate => exact ⟨rfl, congrArg Except.error hcause, rfl, rfl, hstate⟩
  | @paused request state other resume next hstate _ ih =>
    obtain ⟨hrequests, houtcome, hconsole, hadviser, hlast⟩ :=
      ih (request.answered console adviser s g).1 (request.answered console adviser s g).2.1
        (request.answered console adviser s g).2.2
    rw [Run.conduct_paused, Run.conduct_paused]
    exact ⟨congrArg (List.cons _) hrequests, houtcome, hconsole, hadviser, hlast⟩
  | @noted n n' state other resume next hnote hstate _ ih =>
    obtain ⟨hrequests, houtcome, hconsole, hadviser, hlast⟩ := ih ⟨(), false⟩ s g
    rw [Run.conduct_paused, Run.conduct_paused]
    refine ⟨?_, houtcome, hconsole, hadviser, hlast⟩
    exact congrArg₂ List.cons (congrArg Request.note hnote) hrequests

namespace Conducted.Parallel

variable {α σ γ : Type} {conducted other last : Conducted α σ γ}

theorem symm (h : conducted.Parallel other) : other.Parallel conducted where
  requests := h.requests.symm
  outcome := h.outcome.symm
  console := h.console.symm
  adviser := h.adviser.symm
  state := ⟨h.state.store.symm, h.state.interrupted.symm⟩

theorem trans (h : conducted.Parallel other) (h' : other.Parallel last) :
    conducted.Parallel last where
  requests := h'.requests.trans h.requests
  outcome := h'.outcome.trans h.outcome
  console := h'.console.trans h.console
  adviser := h'.adviser.trans h.adviser
  state := ⟨h.state.store.trans h'.state.store, h'.state.interrupted.trans h.state.interrupted⟩

end Conducted.Parallel

/-- Programs that are equal up to positions are conducted alike: each runs side by side with what is
left of it without positions. -/
theorem CheckedProgram.conduct_parallel {checked other : CheckedProgram}
    (hsymbols : checked.symbols.Agrees other.symbols)
    (hprogram : other.program.erase = checked.program.erase) {σ γ : Type} (console : Console σ)
    (adviser : Adviser γ) (policy : Policy) (fuel : ℕ) (interrupted : Bool) (s : σ) (g : γ) :
    ((checked.start policy fuel interrupted).conduct console adviser s g).Parallel
      ((other.start policy fuel interrupted).conduct console adviser s g) := by
  let bare : CheckedProgram := { checked with program := checked.program.erase }
  have hsame : checked.symbols.Agrees bare.symbols := .refl _
  have hchecked : (checked.start policy fuel interrupted).Parallel
      (bare.start policy fuel interrupted) := start_parallel hsame rfl policy fuel interrupted
  have hsame' : other.symbols.Agrees bare.symbols := hsymbols.symm
  have hother : (other.start policy fuel interrupted).Parallel
      (bare.start policy fuel interrupted) :=
    start_parallel hsame' hprogram.symm policy fuel interrupted
  exact (hchecked.conduct console adviser s g).trans (hother.conduct console adviser s g).symm

end TinyPascal
