import TinyPascal.Interpreter
import TinyPascal.Proofs.Execution.Reading
import TinyPascal.Proofs.Typing.Relevance

/-!
# Variables without influence

An execution depends on the variables that occur in what it executes, and on no others. From two
stores that agree on these variables, a statement makes the same requests, gets the same answers and
comes to the same outcome, in stores that again agree on them. This holds at every pause, so it also
covers failures, interrupts, guards that stop a loop and loops without end. A program may therefore
declare names that occur nowhere in its statements: it runs as it does without them, and only the
opening note tells their number.
-/
namespace TinyPascal

open Exec

/-- Two stores hold the same values under the given names. A name may also be missing in both. -/
def Store.AgreesOn (names : List String) (store other : Store) : Prop :=
  ∀ name ∈ names, other[name]? = store[name]?

instance (names : List String) (store other : Store) : Decidable (store.AgreesOn names other) :=
  inferInstanceAs (Decidable (∀ name ∈ names, _))

/-- The stores of two states agree on the given names, and the interrupt is raised in both or in
none. -/
structure State.AgreesOn (names : List String) (state other : State) : Prop where
  store : state.store.AgreesOn names other.store
  interrupted : other.interrupted = state.interrupted

/-- Two sessions on the same console and adviser agree on the given names. -/
structure Session.AgreesOn {σ γ : Type} (names : List String) (here there : Session σ γ) :
    Prop where
  state : here.state.AgreesOn names there.state
  console : there.console = here.console
  adviser : there.adviser = here.adviser

namespace Store.AgreesOn

variable {names : List String} {store other : Store}

theorem fetch_eq (h : store.AgreesOn names other) {name : String} (hname : name ∈ names) :
    other.fetch name = store.fetch name := by
  rw [fetch, fetch, h name hname]

theorem contains_eq (h : store.AgreesOn names other) {name : String} (hname : name ∈ names) :
    other.contains name = store.contains name := by
  rw [Std.TreeMap.contains_eq_isSome_getElem?, Std.TreeMap.contains_eq_isSome_getElem?,
    h name hname]

theorem insert (h : store.AgreesOn names other) (target : String) (value : Value) :
    AgreesOn names (store.insert target value) (other.insert target value) := by
  intro name hname
  rw [Std.TreeMap.getElem?_insert, Std.TreeMap.getElem?_insert, h name hname]

end Store.AgreesOn

theorem Expr.eval_eq {names : List String} {store other : Store} (h : store.AgreesOn names other)
    {e : Expr} (he : e.mentions ⊆ names) : e.eval other = e.eval store := by
  induction e with
  | int value p | str value p => rfl
  | var name p => rw [eval, eval, h.fetch_eq (he List.mem_cons_self)]
  | neg operand p ih => rw [eval, eval, ih he]
  | binary op left right p ihl ihr =>
    rw [mentions, List.append_subset] at he
    rw [eval, eval, ihl he.1, ihr he.2]

namespace Run

variable {α β : Type} {names : List String} {run other : Run α}

/-- `run.Alike names other`: from the same answers, the two runs make the same requests and come to
the same outcome, in states that agree on the given names. -/
inductive Alike (names : List String) : Run α → Run α → Prop where
  | ended {outcome : Except Halt α} {state other : State} (hstate : state.AgreesOn names other) :
      Alike names (.ended outcome state) (.ended outcome other)
  | paused {request : Request} {state other : State} {resume next : Answer request.Result → Run α}
      (hstate : state.AgreesOn names other)
      (h : ∀ answer, Alike names (resume answer) (next answer)) :
      Alike names (.paused request state resume) (.paused request other next)

theorem Alike.andThen (h : run.Alike names other) {next : α → State → Run β}
    (hnext : ∀ a state last, state.AgreesOn names last →
      (next a state).Alike names (next a last)) :
    (run.andThen next).Alike names (other.andThen next) := by
  induction h with
  | @ended outcome state other hstate =>
    cases outcome with
    | ok a => exact hnext a state other hstate
    | error cause => exact .ended hstate
  | paused hstate _ ih => exact .paused hstate ih

end Run

namespace Exec

variable {α β : Type} {names : List String} {policy : Policy}

/-- An action is determined by the given names: from states that agree on them, it runs alike. -/
def DependsOn (names : List String) (action : Exec α) : Prop :=
  ∀ state other, state.AgreesOn names other → (action state).Alike names (action other)

namespace DependsOn

theorem pure (a : α) : DependsOn names (pure a) := fun _ _ h => .ended h

theorem bind {action : Exec α} {next : α → Exec β} (haction : DependsOn names action)
    (hnext : ∀ a, DependsOn names (next a)) : DependsOn names (action >>= next) :=
  fun state other h => (haction state other h).andThen fun a => hnext a

theorem ite {condition : Bool} {x y : Exec α} (hx : DependsOn names x) (hy : DependsOn names y) :
    DependsOn names (if condition then x else y) := by
  cases condition with
  | true => exact hx
  | false => exact hy

theorem halt (cause : Halt) : DependsOn names (halt cause : Exec α) := fun _ _ h => .ended h

theorem ask (request : Request) : DependsOn names (ask request) := by
  intro state other h
  refine .paused h fun answer => .ended ⟨h.store, ?_⟩
  rw [h.interrupted]

theorem checkInterrupt (p : Position) : DependsOn names (checkInterrupt p) := by
  intro state other h
  have haction : DependsOn names (do Exec.note (.interrupted p); fail .aborted p : Exec Unit) :=
    bind (ask _) fun _ => halt _
  change ((if state.interrupted then _ else _ : Exec Unit) state).Alike names
    ((if other.interrupted then _ else _ : Exec Unit) other)
  rw [h.interrupted]
  exact ite haction (pure ()) state other h

theorem orFail (p : Position) (result : Except String α) : DependsOn names (orFail p result) := by
  cases result with
  | ok a => exact pure a
  | error details => exact halt _

theorem readLine (prompt : String) (p : Position) : DependsOn names (readLine prompt p) :=
  bind (ask _) fun result => bind (orFail p result) fun line => bind (checkInterrupt p) fun _ =>
    pure line

theorem evaluate {e : Expr} (he : e.mentions ⊆ names) : DependsOn names (evaluate e) := by
  intro state other h
  have hresult : ∀ result, DependsOn names (ofExcept result : Exec Value) := by
    intro result
    cases result with
    | ok value => exact pure value
    | error e => exact halt _
  change (ofExcept (e.eval state.store) state).Alike names (ofExcept (e.eval other.store) other)
  rw [Expr.eval_eq h.store he]
  exact hresult _ state other h

theorem holds {condition : Expr} (h : condition.mentions ⊆ names) :
    DependsOn names (holds condition) :=
  bind (evaluate h) fun value => pure value.isTruthy

theorem assign {target : Identifier} (htarget : target.name ∈ names) (value : Value) :
    DependsOn names (assign target value) := by
  intro state other h
  change ((ofExcept (RuntimeError.locate target.position
      (state.store.assign target.name value)) state).andThen setStore).Alike names
    ((ofExcept (RuntimeError.locate target.position
      (other.store.assign target.name value)) other).andThen setStore)
  rw [Store.assign, Store.assign, h.store.contains_eq htarget]
  split
  · exact .ended ⟨h.store.insert target.name value, h.interrupted⟩
  · exact .ended h

theorem inputValue (target : Identifier) (p : Position) (line : Option String) :
    DependsOn names (inputValue policy target p line) := by
  have hfallback : ∀ defect, DependsOn names (fallback policy target defect p) := by
    intro defect
    rw [fallback]
    split
    · next value _ => exact bind (bind (ask _) fun result => orFail p result) fun _ => pure value
    · exact halt _
  cases line with
  | none => exact hfallback _
  | some line =>
    rw [Exec.inputValue]
    split
    · next value _ => exact pure value
    · exact hfallback _

theorem readTargets (p : Position) {targets : List Identifier}
    (h : targets.map Identifier.name ⊆ names) : DependsOn names (readTargets policy p targets) := by
  induction targets with
  | nil => exact pure ()
  | cons target rest ih =>
    rw [List.map_cons, List.cons_subset] at h
    have htarget : DependsOn names (readTarget policy p target) :=
      bind (readLine _ p) fun line => bind (inputValue target p line) fun value =>
        assign h.1 (.int value)
    exact bind htarget fun _ => ih h.2

theorem textOfAll {values : List Expr} (h : values.flatMap Expr.mentions ⊆ names) :
    DependsOn names (textOfAll values) := by
  induction values with
  | nil => exact pure ""
  | cons value rest ih =>
    rw [List.flatMap_cons, List.append_subset] at h
    exact bind (evaluate h.1) fun _ => bind (ih h.2) fun _ => pure _

theorem guardLoop (p : Position) (iterations : ℕ) :
    DependsOn names (guardLoop policy p iterations) := by
  have hconfirm : DependsOn names (confirm policy p iterations) := by
    rw [confirm]
    split
    · exact pure true
    · exact pure false
    · exact ask _
    · exact bind (readLine _ p) fun answer => pure _
  exact ite (bind hconfirm fun _ => ite (bind (ask _) fun _ => halt _) (pure ())) (pure ())

/-- A loop depends on what its condition and its body depend on, for any number of iterations. -/
theorem loop {condition : Exec Bool} {body : Exec Unit} (p : Position)
    (hcondition : DependsOn names condition) (hbody : DependsOn names body) (fuel done : ℕ) :
    DependsOn names (loop policy p condition body fuel done) := by
  induction fuel generalizing done with
  | zero => exact halt _
  | succ fuel ih =>
    exact bind hcondition fun _ =>
      ite (bind hbody fun _ => bind (guardLoop p (done + 1)) fun _ => ih (done + 1)) (ask _)

end DependsOn

end Exec

namespace Statement

variable {names : List String} {policy : Policy} {fuel : ℕ}

mutual

theorem exec_dependsOn : ∀ s : Statement, s.mentions ⊆ names →
    DependsOn names (s.exec policy fuel)
  | .assign target value p, h => by
    rw [mentions, List.cons_subset] at h
    exact .bind (.checkInterrupt p) fun _ => .bind (.evaluate h.2) fun v => .assign h.1 v
  | .read targets p, h => by
    rw [mentions] at h
    exact .bind (.checkInterrupt p) fun _ => .readTargets p h
  | .write values p, h => by
    rw [mentions] at h
    exact .bind (.checkInterrupt p) fun _ => .bind (.textOfAll h) fun _ =>
      .bind (.ask _) fun result => .orFail p result
  | .block body p, h => by
    rw [mentions] at h
    exact .bind (.checkInterrupt p) fun _ => execAll_dependsOn body h
  | .ifThen condition consequent p, h => by
    rw [mentions, List.append_subset] at h
    exact .bind (.checkInterrupt p) fun _ => .bind (.holds h.1) fun _ =>
      .ite (exec_dependsOn consequent h.2) (.pure ())
  | .ifElse condition consequent alternative p, h => by
    rw [mentions, List.append_subset, List.append_subset] at h
    exact .bind (.checkInterrupt p) fun _ => .bind (.holds h.1) fun _ =>
      .ite (exec_dependsOn consequent h.2.1) (exec_dependsOn alternative h.2.2)
  | .whileDo condition body p, h => by
    rw [mentions, List.append_subset] at h
    exact .bind (.checkInterrupt p) fun _ =>
      .loop p (.holds h.1) (exec_dependsOn body h.2) fuel 0

theorem execAll_dependsOn : ∀ body : List Statement, mentionsOfAll body ⊆ names →
    DependsOn names (execAll policy fuel body)
  | [], _ => .pure ()
  | s :: rest, h => by
    rw [mentionsOfAll, List.append_subset] at h
    exact .bind (exec_dependsOn s h.1) fun _ => execAll_dependsOn rest h.2

end

end Statement

/-- Two conducted runs have made the same requests, got the same answers and come to the same
outcome. They leave the console and the adviser alike, and states that agree on the given names. -/
structure Conducted.Alike {α σ γ : Type} (names : List String) (c d : Conducted α σ γ) : Prop where
  outcome : d.outcome = c.outcome
  exchanges : d.exchanges = c.exchanges
  session : c.session.AgreesOn names d.session

theorem Run.Alike.conduct {α σ γ : Type} {names : List String} {run other : Run α}
    (h : run.Alike names other) (console : Console σ) (adviser : Adviser γ) (s : σ) (g : γ) :
    (run.conduct console adviser s g).Alike names (other.conduct console adviser s g) := by
  induction h generalizing s g with
  | ended hstate => exact ⟨rfl, rfl, hstate, rfl, rfl⟩
  | @paused request state other resume next hstate _ ih =>
    obtain ⟨houtcome, hexchanges, hsession⟩ :=
      ih (request.answered console adviser s g).1 (request.answered console adviser s g).2.1
        (request.answered console adviser s g).2.2
    rw [Run.conduct_paused, Run.conduct_paused]
    exact ⟨houtcome, congrArg (List.cons _) hexchanges, hsession⟩

namespace Setting

variable {α σ γ : Type} {names : List String} {here there : Session σ γ}

theorem conduct_alike (setting : Setting σ γ) {action : Exec α} (haction : DependsOn names action)
    (h : here.AgreesOn names there) :
    (setting.conduct action here).Alike names (setting.conduct action there) := by
  rw [conduct, conduct, h.console, h.adviser]
  exact (haction _ _ h.state).conduct _ _ _ _

/-- Executes a checked program, with the interrupt raised from the start or not. -/
def start (setting : Setting σ γ) (checked : CheckedProgram) (interrupted : Bool) (s : σ) (g : γ) :
    Conducted Unit σ γ :=
  (checked.start setting.policy setting.fuel interrupted).conduct setting.console setting.adviser
    s g

end Setting

def Exchange.started (checked : CheckedProgram) : Exchange :=
  ⟨.note (.started checked.program.name.name checked.symbols.size), ⟨(), false⟩⟩

/-- After the opening note, a program goes on from its initial store with its statements. -/
theorem Setting.start_eq {σ γ : Type} (setting : Setting σ γ) (checked : CheckedProgram)
    (interrupted : Bool) (s : σ) (g : γ) :
    setting.start checked interrupted s g =
      (setting.conduct (do
          Statement.execAll setting.policy setting.fuel checked.program.statements
          note .finished)
        ⟨⟨.ofSymbols checked.symbols, interrupted⟩, s, g⟩).after
          [⟨.note (.started checked.program.name.name checked.symbols.size),
            ⟨.ofSymbols checked.symbols, interrupted⟩, ⟨(), false⟩⟩] := by
  change Run.conduct _ _ (.paused (.note _) _ _) _ _ = _
  rw [Run.conduct_paused]
  cases interrupted <;> rfl

theorem SymbolTable.AgreesOn.ofSymbols {names : List String} {symbols other : SymbolTable}
    (h : symbols.AgreesOn names other) :
    (Store.ofSymbols symbols).AgreesOn names (Store.ofSymbols other) := by
  intro name hname
  have htype := congrArg (Option.map fun _ => Value.int 0) (h name hname)
  rw [typeOf?, typeOf?, Option.map_map, Option.map_map] at htype
  rw [Store.ofSymbols, Store.ofSymbols, Std.TreeMap.getElem?_map, Std.TreeMap.getElem?_map]
  exact htype

/-- A program with other names declared in addition runs as it does without them, after an opening
note that counts its names. -/
theorem Setting.start_alike {σ γ : Type} (setting : Setting σ γ) {names : List String}
    {checked other : CheckedProgram} (hsymbols : checked.symbols.AgreesOn names other.symbols)
    (hstatements : other.program.statements = checked.program.statements)
    (hnames : Statement.mentionsOfAll checked.program.statements ⊆ names) (interrupted : Bool)
    (s : σ) (g : γ) :
    let c := setting.start checked interrupted s g
    let d := setting.start other interrupted s g
    d.outcome = c.outcome ∧
      (∃ exchanges, c.exchanges = .started checked :: exchanges ∧
        d.exchanges = .started other :: exchanges) ∧
      c.session.AgreesOn names d.session := by
  have hdepends : DependsOn names (do
      Statement.execAll setting.policy setting.fuel checked.program.statements
      note .finished) :=
    .bind (Statement.execAll_dependsOn _ hnames) fun _ => .ask _
  have hstart : Session.AgreesOn names ⟨⟨.ofSymbols checked.symbols, interrupted⟩, s, g⟩
      ⟨⟨.ofSymbols other.symbols, interrupted⟩, s, g⟩ := ⟨⟨hsymbols.ofSymbols, rfl⟩, rfl, rfl⟩
  obtain ⟨houtcome, hexchanges, hsession⟩ := setting.conduct_alike hdepends hstart
  rw [Setting.start_eq, Setting.start_eq, hstatements]
  exact ⟨houtcome, ⟨_, rfl, congrArg (List.cons _) hexchanges⟩, hsession⟩

/-- Variables that do not occur in a statement have no influence on its execution. Names that are
declared in addition, and do not occur in a program, have no influence on its check and on its run:
it comes to the same outcome by the same calls with the same answers, and leaves the same values in
its own variables. -/
theorem absent_variables_have_no_influence {σ γ : Type} (setting : Setting σ γ) :
    (∀ (s : Statement) (here there : Session σ γ), here.AgreesOn s.mentions there →
      (setting.execute s here).Alike s.mentions (setting.execute s there)) ∧
    ∀ (unused : List String) (program larger : Program), program.AddsUnused unused larger →
      (analyze larger).errors = (analyze program).errors ∧
      ∀ checked, check program = .ok checked → ∃ other, check larger = .ok other ∧
        other.types = checked.types ∧
        ∀ (interrupted : Bool) (s : σ) (g : γ),
          let c := setting.start checked interrupted s g
          let d := setting.start other interrupted s g
          d.outcome = c.outcome ∧
            (∃ exchanges, c.exchanges = .started checked :: exchanges ∧
              d.exchanges = .started other :: exchanges) ∧
            c.session.AgreesOn (Statement.mentionsOfAll program.statements) d.session := by
  refine ⟨fun s here there h => ?_, fun unused program larger h => ⟨h.errors_eq, ?_⟩⟩
  · exact setting.conduct_alike (s.exec_dependsOn (List.Subset.refl _)) h
  · intro checked hchecked
    have hlarger := h.check_eq
    rw [hchecked] at hlarger
    obtain rfl := eq_of_check hchecked
    refine ⟨_, hlarger, rfl, fun interrupted s g => ?_⟩
    exact setting.start_alike h.agreesOn h.statements (List.Subset.refl _) interrupted s g

/-- Reads `x`, and writes the numbers from `x` down to one. -/
def Statement.countDown : Statement :=
  .block [.read [⟨"x", .start⟩] .start,
    .whileDo (.var "x" .start)
      (.block [.write [.var "x" .start] .start,
        .assign ⟨"x", .start⟩
          (.binary (.arithmetic .sub) (.var "x" .start) (.int 1 .start) .start) .start] .start)
      .start] .start

def Program.countDown (declarations : List Declaration) : Program :=
  ⟨⟨"down", .start⟩, declarations, [.countDown], .start⟩

/-- Two rounds go by, whatever else the store holds and the program declares. -/
theorem absent_variables_have_no_influence_countDown :
    let setting : Setting Script Unit := ⟨Script.console, .silent, {}, 3⟩
    let here : Session Script Unit :=
      ⟨⟨((∅ : Store).insert "x" (.int 0)).insert "y" (.int 8), false⟩, ⟨["2"], #[], #[], #[]⟩, ()⟩
    let there : Session Script Unit :=
      ⟨⟨((∅ : Store).insert "a" (.str "b")).insert "x" (.int 0), false⟩,
        ⟨["2"], #[], #[], #[]⟩, ()⟩
    let program := Program.countDown [⟨[⟨"x", .start⟩], .integer, .start⟩]
    let larger := Program.countDown [⟨[⟨"a", .start⟩, ⟨"x", .start⟩], .integer, .start⟩,
      ⟨[⟨"z", .start⟩], .string, .start⟩]
    (here.AgreesOn Statement.countDown.mentions there ∧
      (setting.execute .countDown there).exchanges.length = 4 ∧
      (setting.execute .countDown here).Alike Statement.countDown.mentions
        (setting.execute .countDown there)) ∧
    program.AddsUnused ["a", "z"] larger ∧
    ∃ checked other, check program = .ok checked ∧ check larger = .ok other ∧
      (setting.start checked false ⟨["2"], #[], #[], #[]⟩ ()).outcome = .ok () ∧
      (setting.start other false ⟨["2"], #[], #[], #[]⟩ ()).outcome =
        (setting.start checked false ⟨["2"], #[], #[], #[]⟩ ()).outcome := by
  intro setting here there program larger
  have hagrees : here.AgreesOn Statement.countDown.mentions there :=
    ⟨⟨by decide +kernel, rfl⟩, rfl, rfl⟩
  have hadds : program.AddsUnused ["a", "z"] larger :=
    ⟨rfl, rfl, by decide +kernel, by decide +kernel, by decide +kernel⟩
  have hinfluence := absent_variables_have_no_influence setting
  refine ⟨⟨hagrees, by decide +kernel, hinfluence.1 _ here there hagrees⟩, hadds, ?_⟩
  obtain ⟨checked, hchecked⟩ : ∃ checked, check program = .ok checked := ⟨_, rfl⟩
  obtain ⟨other, hother, -, hruns⟩ := (hinfluence.2 _ program larger hadds).2 checked hchecked
  obtain rfl := eq_of_check hchecked
  exact ⟨_, other, hchecked, hother, by decide +kernel, (hruns false _ ()).1⟩

end TinyPascal
