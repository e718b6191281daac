import TinyPascal.Proofs.Execution.Logic
import TinyPascal.Proofs.Execution.Machine
import TinyPascal.Proofs.Syntax.RoundTrip
import TinyPascal.Proofs.Typing.Evaluation

/-!
# Type soundness

A program that was compiled from a source text never misuses a name or a type. An action is sound if
it keeps the store in agreement with the declarations, whatever it is answered, and fails for no
such misuse. Every step of a task in which nothing is wrong is sound and leaves tasks in which
nothing is wrong, so the same holds at every moment of a run.
-/
namespace TinyPascal

variable {symbols : SymbolTable}

theorem RuntimeFault.IsArithmetic.not_isMisuse {fault : RuntimeFault} (h : fault.IsArithmetic) :
    fault.isMisuse = false := by
  rcases h with rfl | rfl <;> rfl

/-- The store agrees with the declarations, and a failure is no misuse. -/
structure Observation.Sound (symbols : SymbolTable) (o : Observation) : Prop where
  agrees : o.state.store.Agrees symbols
  not_isMisuse : ∀ e state, o = .failure e state → e.fault.isMisuse = false

namespace Exec

/-- From stores that agree with the declarations, an action gives such stores and results that
satisfy `Result`, and all it shows is sound. -/
abbrev Sound {α : Type} (symbols : SymbolTable) (action : Exec α) (Result : α → Prop) : Prop :=
  Meets (fun state => state.store.Agrees symbols) (Observation.Sound symbols) action Result

/-- Soundness rules out misuse only. -/
theorem permissive_sound (symbols : SymbolTable) :
    Permissive (fun state => state.store.Agrees symbols) (Observation.Sound symbols) where
  raise _ hstate := hstate
  pause _ hstate := ⟨hstate, fun e last heq => Observation.noConfusion heq⟩
  failure e hstate hfault := by
    refine ⟨hstate, fun e' last heq => ?_⟩
    cases heq
    exact hfault
  consult _ hstate := ⟨hstate, fun e last heq => Observation.noConfusion heq⟩

namespace Sound

theorem evaluate {e : Expr} {type : Ty} (h : e.type? symbols = some type) :
    Sound symbols (evaluate e) fun value => value.type = type := by
  refine Meets.evaluate (fun state value hstate hvalue => ?_) (fun state error hstate herror => ?_)
  · have hfits := Expr.evaluatesTo_of_type? hstate h
    rw [Expr.EvaluatesTo, hvalue] at hfits
    exact hfits
  · have hfits := Expr.evaluatesTo_of_type? hstate h
    rw [Expr.EvaluatesTo, herror] at hfits
    exact (permissive_sound symbols).failure error hstate hfits.not_isMisuse

theorem holds {condition : Expr} {type : Ty} (h : condition.type? symbols = some type) :
    Sound symbols (holds condition) fun _ => True :=
  (evaluate h).bind fun _ _ => .pure trivial

theorem textOfAll {values : List Expr} (h : ∀ e ∈ values, e.violations symbols = []) :
    Sound symbols (textOfAll values) fun _ => True := by
  refine Meets.textOfAll fun e he => ?_
  obtain ⟨type, htype⟩ := Expr.exists_type?_of_violations (h e he)
  exact (evaluate htype).weaken fun _ _ => trivial

theorem assign {target : Identifier} {value : Value}
    (h : symbols.typeOf? target.name = some value.type) :
    Sound symbols (assign target value) fun _ => True := by
  refine Meets.assign (fun state store hstate hstore => ?_) (fun state fault hstate hfault => ?_)
  · obtain ⟨next, hassign, hnext⟩ := hstate.assign h
    rw [hassign] at hstore
    cases hstore
    exact hnext
  · obtain ⟨next, hassign, _⟩ := hstate.assign h
    rw [hassign] at hfault
    cases hfault

end Sound

end Exec

theorem Statement.violations_of_mem {body : List Statement}
    (h : Statement.violationsOfAll symbols body = []) :
    ∀ s ∈ body, s.violations symbols = [] := by
  induction body with
  | nil => simp
  | cons s rest ih =>
    rw [violationsOfAll, List.append_eq_nil_iff] at h
    rw [List.forall_mem_cons]
    exact ⟨h.1, ih h.2⟩

namespace Task

/-- Nothing is wrong with what a task has to do. -/
def IsClean (symbols : SymbolTable) : Task → Prop
  | statement s => s.violations symbols = []
  | read targets _ => ∀ target ∈ targets, symbols.undeclared target.name target.position = []
  | test condition body p _ | guard condition body p _ =>
    condition.conditionViolations symbols p = [] ∧ body.violations symbols = []
  | note _ => True

/-- The condition that a clean task evaluates is an integer. -/
theorem IsClean.type?_condition {t : Task} (h : t.IsClean symbols) {condition : Expr}
    (hcondition : t.condition? = some condition) : condition.type? symbols = some .integer := by
  cases t with
  | statement s =>
    cases s with
    | ifThen c consequent p =>
      cases hcondition
      simp only [IsClean, Statement.violations, List.append_eq_nil_iff] at h
      exact Expr.type?_of_conditionViolations h.1
    | ifElse c consequent alternative p =>
      cases hcondition
      simp only [IsClean, Statement.violations, List.append_eq_nil_iff] at h
      exact Expr.type?_of_conditionViolations h.1.1
    | assign | read | write | block | whileDo => cases hcondition
  | test c body p done =>
    cases hcondition
    exact Expr.type?_of_conditionViolations h.1
  | read | guard | note => cases hcondition

open Exec

/-- A step of a clean task is sound and leaves clean tasks. -/
theorem IsClean.sound_step (hsymbols : symbols.IsInteger) (policy : Policy) {t : Task}
    (h : t.IsClean symbols) :
    Sound symbols (t.step policy) fun first => ∀ u ∈ first, u.IsClean symbols := by
  have hopen := permissive_sound symbols
  cases t with
  | statement s =>
    cases s with
    | assign target value p =>
      simp only [IsClean, Statement.violations] at h
      obtain ⟨type, htarget, hvalue⟩ := Identifier.exists_type_of_assignmentViolations h
      refine (hopen.checkInterrupt p).bind fun _ _ => (Sound.evaluate hvalue).bind fun v hv => ?_
      exact (Sound.assign (by rw [htarget, hv])).bind fun _ _ => .pure (by simp)
    | read targets p =>
      simp only [IsClean, Statement.violations, List.flatMap_eq_nil_iff] at h
      exact (hopen.checkInterrupt p).bind fun _ _ => .pure (by simpa [IsClean] using h)
    | write values p =>
      simp only [IsClean, Statement.violations, List.flatMap_eq_nil_iff] at h
      exact (hopen.checkInterrupt p).bind fun _ _ => (Sound.textOfAll h).bind fun _ _ =>
        (hopen.writeLine _ p).bind fun _ _ => .pure (by simp)
    | block body p =>
      simp only [IsClean, Statement.violations] at h
      refine (hopen.checkInterrupt p).bind fun _ _ => .pure ?_
      simpa [IsClean] using Statement.violations_of_mem h
    | ifThen condition consequent p =>
      have htype := h.type?_condition rfl
      simp only [IsClean, Statement.violations, List.append_eq_nil_iff] at h
      refine (hopen.checkInterrupt p).bind fun _ _ => (Sound.holds htype).bind fun b _ => .pure ?_
      cases b <;> simp [IsClean, h]
    | ifElse condition consequent alternative p =>
      have htype := h.type?_condition rfl
      simp only [IsClean, Statement.violations, List.append_eq_nil_iff] at h
      refine (hopen.checkInterrupt p).bind fun _ _ => (Sound.holds htype).bind fun b _ => .pure ?_
      cases b <;> simp [IsClean, h]
    | whileDo condition body p =>
      simp only [IsClean, Statement.violations, List.append_eq_nil_iff] at h
      exact (hopen.checkInterrupt p).bind fun _ _ => .pure (by simpa [IsClean] using h)
  | read targets p =>
    cases targets with
    | nil => exact .pure (by simp)
    | cons target rest =>
      simp only [IsClean, List.forall_mem_cons] at h
      obtain ⟨type, htype⟩ := SymbolTable.exists_typeOf?_of_undeclared h.1
      have hinteger := hsymbols _ _ htype
      subst hinteger
      exact (hopen.readTarget policy p fun _ => Sound.assign htype).bind fun _ _ =>
        .pure (by simpa [IsClean] using h.2)
  | test condition body p done =>
    refine (Sound.holds (h.type?_condition rfl)).bind fun b _ => Meets.ite ?_ ?_
    · exact .pure (by simpa [IsClean] using ⟨h.2, h⟩)
    · exact (hopen.note _).bind fun _ _ => .pure (by simp)
  | guard condition body p done =>
    exact (hopen.guardLoop policy p done).bind fun _ _ => .pure (by simpa [IsClean] using h)
  | note n => exact (hopen.note n).bind fun _ _ => .pure (by simp)

end Task

namespace Config

/-- The store agrees with the declarations, and nothing is wrong with the tasks that are left. -/
structure Sound (symbols : SymbolTable) (config : Config) : Prop where
  agrees : config.state.store.Agrees symbols
  isClean : ∀ t ∈ config.tasks, t.IsClean symbols

theorem Sound.step (hsymbols : symbols.IsInteger) {policy : Policy} {config next : Config}
    (h : config.Sound symbols) (hstep : Step policy config next) : next.Sound symbols := by
  cases hstep with
  | @step t first rest state last hgives =>
    obtain ⟨hhead, hrest⟩ := List.forall_mem_cons.1 h.isClean
    obtain ⟨hfirst, hlast⟩ := (hhead.sound_step hsymbols policy).gives h.agrees hgives
    exact ⟨hlast, List.forall_mem_append.2 ⟨hfirst, hrest⟩⟩

theorem Sound.reaches (hsymbols : symbols.IsInteger) {policy : Policy} {config last : Config}
    (h : config.Sound symbols) (hreach : Reaches policy config last) : last.Sound symbols := by
  induction hreach with
  | refl => exact h
  | tail _ hstep ih => exact ih.step hsymbols hstep

theorem Sound.shows (hsymbols : symbols.IsInteger) {policy : Policy} {config : Config}
    {o : Observation} (h : config.Sound symbols) (hshows : config.Shows policy o) :
    o.Sound symbols := by
  cases hshows with
  | step hshows =>
    exact ((h.isClean _ List.mem_cons_self).sound_step hsymbols policy).shows h.agrees hshows
  | exhaustion => exact ⟨h.agrees, fun e state heq => Observation.noConfusion heq⟩

end Config

theorem compile_eq_ok {source : String} {checked : CheckedProgram}
    (h : compile source = .ok checked) :
    ∃ ts, tokenize source = .ok ts ∧ parse ts = .ok checked.program ∧
      check checked.program = .ok checked := by
  unfold compile parseSource at h
  cases hts : tokenize source with
  | error e => simp [hts] at h
  | ok ts =>
    cases hp : parse ts with
    | error e => simp [hts, hp] at h
    | ok program =>
      cases hc : check program with
      | error errors => simp [hts, hp, hc] at h
      | ok found =>
        simp only [hts, hp, hc, Except.ok.injEq] at h
        subst h
        have hprogram : found.program = program := by
          unfold check CheckedProgram.ofAnalysis at hc
          split_ifs at hc
          cases hc
          rfl
        rw [hprogram]
        exact ⟨ts, rfl, hp, hc⟩

theorem check_eq_ok {program : Program} {checked : CheckedProgram}
    (h : check program = .ok checked) :
    checked.symbols = (SymbolTable.declareAll ∅ program.entries).1 ∧
      Statement.violationsOfAll checked.symbols program.statements = [] := by
  unfold check CheckedProgram.ofAnalysis at h
  split_ifs at h with hclean
  cases h
  rw [Analysis.isClean, List.isEmpty_iff] at hclean
  exact ⟨rfl, (List.append_eq_nil_iff.1 hclean).2⟩

theorem Program.isInteger_of_mem_entries {program : Program} (h : program.WellFormed) :
    ∀ entry ∈ program.entries, entry.2 = .integer := by
  intro entry hentry
  rw [Program.entries, List.mem_flatMap] at hentry
  obtain ⟨d, hd, hentry⟩ := hentry
  rw [Declaration.entries, List.mem_map] at hentry
  obtain ⟨name, _, rfl⟩ := hentry
  exact (h.declarations d hd).isInteger

namespace CheckedProgram

variable {checked : CheckedProgram}

theorem sound_initial (hwell : checked.program.WellFormed)
    (hcheck : check checked.program = .ok checked) (interrupted : Bool) :
    checked.symbols.IsInteger ∧ (checked.initial interrupted).Sound checked.symbols := by
  obtain ⟨hsymbols, hclean⟩ := check_eq_ok hcheck
  have hinteger : checked.symbols.IsInteger := by
    rw [hsymbols]
    apply SymbolTable.IsInteger.declareAll
    · intro name type htype
      simp [SymbolTable.typeOf?] at htype
    · exact Program.isInteger_of_mem_entries hwell
  refine ⟨hinteger, Store.agrees_ofSymbols hinteger, ?_⟩
  intro t ht
  simp only [initial, tasks, List.mem_cons, List.mem_append, List.mem_map, List.not_mem_nil,
    or_false] at ht
  rcases ht with rfl | ⟨s, hs, rfl⟩ | rfl
  · exact trivial
  · exact Statement.violations_of_mem hclean s hs
  · exact trivial

/-- A program that misuses neither names nor types, whatever it is answered and however long it
runs. All declared variables are integers, and no run fails for an unbound variable or a mismatch of
types. Whenever a run is paused and when it ends, all variables hold integers and an expression
evaluates to a value of its type, unless it divides by zero or overflows. The machine follows every
run, to its end and to all that it shows, and the same holds between any two of its steps, where a
condition that is evaluated evaluates to an integer. -/
structure Safe (checked : CheckedProgram) : Prop where
  declared : ∀ d ∈ checked.program.declarations, d.type = .integer
  outcome : ∀ (policy : Policy) (fuel : Nat) (interrupted : Bool) {σ γ : Type}
    (console : Console σ) (adviser : Adviser γ) (s : σ) (g : γ) (e : RuntimeError),
    ((checked.start policy fuel interrupted).conduct console adviser s g).outcome =
      .error (.error e) → e.fault.isMisuse = false
  moments : ∀ (policy : Policy) (fuel : Nat) (interrupted : Bool) {σ γ : Type}
    (console : Console σ) (adviser : Adviser γ) (s : σ) (g : γ),
    ∀ m ∈ ((checked.start policy fuel interrupted).conduct console adviser s g).moments,
      m.state.store.HoldsIntegers checked.symbols ∧
        ∀ (e : Expr) (type : Ty), e.type? checked.symbols = some type →
          e.EvaluatesTo m.state.store type
  final : ∀ (policy : Policy) (fuel : Nat) (interrupted : Bool) {σ γ : Type}
    (console : Console σ) (adviser : Adviser γ) (s : σ) (g : γ),
    let last := ((checked.start policy fuel interrupted).conduct console adviser s g).state
    last.store.HoldsIntegers checked.symbols ∧
      ∀ (e : Expr) (type : Ty), e.type? checked.symbols = some type →
        e.EvaluatesTo last.store type
  ends : ∀ (policy : Policy) (fuel : Nat) (interrupted : Bool) (last : State),
    (checked.start policy fuel interrupted).Gives () last →
      Config.Reaches policy (checked.initial interrupted) ⟨[], last⟩
  shows : ∀ (policy : Policy) (fuel : Nat) (interrupted : Bool) (o : Observation),
    (checked.start policy fuel interrupted).Shows o →
      ∃ config, Config.Reaches policy (checked.initial interrupted) config ∧
        config.Shows policy o
  states : ∀ (policy : Policy) (interrupted : Bool) (config : Config),
    Config.Reaches policy (checked.initial interrupted) config →
      config.state.store.HoldsIntegers checked.symbols
  expressions : ∀ (policy : Policy) (interrupted : Bool) (config : Config),
    Config.Reaches policy (checked.initial interrupted) config →
      ∀ (e : Expr) (type : Ty), e.type? checked.symbols = some type →
        e.EvaluatesTo config.state.store type
  conditions : ∀ (policy : Policy) (interrupted : Bool) (t : Task) (rest : List Task)
    (state : State), Config.Reaches policy (checked.initial interrupted) ⟨t :: rest, state⟩ →
      ∀ condition, t.condition? = some condition → condition.EvaluatesTo state.store .integer

variable {policy : Policy} {interrupted : Bool}

theorem sound_of_reaches (hwell : checked.program.WellFormed)
    (hcheck : check checked.program = .ok checked) {config : Config}
    (h : Config.Reaches policy (checked.initial interrupted) config) :
    config.Sound checked.symbols := by
  obtain ⟨hinteger, hinitial⟩ := sound_initial hwell hcheck interrupted
  exact hinitial.reaches hinteger h

theorem sound_of_shows {fuel : Nat} (hwell : checked.program.WellFormed)
    (hcheck : check checked.program = .ok checked) {o : Observation}
    (h : (checked.start policy fuel interrupted).Shows o) : o.Sound checked.symbols := by
  obtain ⟨config, hreach, hshows⟩ := reaches_of_shows h
  have hinteger := (sound_initial hwell hcheck interrupted).1
  exact (sound_of_reaches hwell hcheck hreach).shows hinteger hshows

/-- The store at the end of a conducted run agrees with the declarations, and a failure is no
misuse. -/
theorem sound_conduct {fuel : Nat} (hwell : checked.program.WellFormed)
    (hcheck : check checked.program = .ok checked) {σ γ : Type} (console : Console σ)
    (adviser : Adviser γ) (s : σ) (g : γ) :
    ((checked.start policy fuel interrupted).conduct console adviser s g).state.store.Agrees
      checked.symbols ∧
    ∀ e, ((checked.start policy fuel interrupted).conduct console adviser s g).outcome =
      .error (.error e) → e.fault.isMisuse = false := by
  have hend := Run.conduct_outcome console adviser (checked.start policy fuel interrupted) s g
  split at hend
  · next a houtcome =>
    have hsound := sound_of_reaches hwell hcheck (reaches_of_gives hend)
    exact ⟨hsound.agrees, fun e he => by simp [houtcome] at he⟩
  · next e houtcome =>
    have hsound := sound_of_shows hwell hcheck hend
    refine ⟨hsound.agrees, fun e' he => ?_⟩
    rw [houtcome] at he
    cases he
    exact hsound.not_isMisuse e _ rfl
  · next houtcome =>
    have hsound := sound_of_shows hwell hcheck hend
    exact ⟨hsound.agrees, fun e he => by simp [houtcome] at he⟩

end CheckedProgram

/-- A program that compiles is safe. -/
theorem safe_of_compile {source : String} {checked : CheckedProgram}
    (h : compile source = .ok checked) : checked.Safe := by
  obtain ⟨ts, hts, hparse, hcheck⟩ := compile_eq_ok h
  have hwell : checked.program.WellFormed := wellFormed_of_parse hts hparse
  have hinteger := (CheckedProgram.sound_initial hwell hcheck false).1
  have htyped {store : Store} (hagrees : store.Agrees checked.symbols) :
      store.HoldsIntegers checked.symbols ∧
        ∀ (e : Expr) (type : Ty), e.type? checked.symbols = some type → e.EvaluatesTo store type :=
    ⟨hagrees.holdsIntegers hinteger, fun e type => Expr.evaluatesTo_of_type? hagrees⟩
  exact
    { declared := fun d hd => (hwell.declarations d hd).isInteger
      outcome := fun policy fuel interrupted σ γ console adviser s g =>
        (CheckedProgram.sound_conduct hwell hcheck console adviser s g).2
      moments := fun policy fuel interrupted σ γ console adviser s g m hm => by
        have hshows := Run.shows_of_mem_moments console adviser hm
        exact htyped (CheckedProgram.sound_of_shows hwell hcheck hshows).agrees
      final := fun policy fuel interrupted σ γ console adviser s g =>
        htyped (CheckedProgram.sound_conduct hwell hcheck console adviser s g).1
      ends := fun policy fuel interrupted last => CheckedProgram.reaches_of_gives
      shows := fun policy fuel interrupted o => CheckedProgram.reaches_of_shows
      states := fun policy interrupted config hreach =>
        (htyped (CheckedProgram.sound_of_reaches hwell hcheck hreach).agrees).1
      expressions := fun policy interrupted config hreach =>
        (htyped (CheckedProgram.sound_of_reaches hwell hcheck hreach).agrees).2
      conditions := fun policy interrupted t rest state hreach condition hcondition => by
        have hsound := CheckedProgram.sound_of_reaches hwell hcheck hreach
        have htype := (hsound.isClean t List.mem_cons_self).type?_condition hcondition
        exact Expr.evaluatesTo_of_type? hsound.agrees htype }

/-- A program that reads a number and counts down from it. -/
def countdown : String :=
  "program p; var x : integer; begin read(x); while x > 0 do x := x - 1; write(\"end\", x) end."

theorem safe_of_compile_countdown :
    ∃ checked, compile countdown = .ok checked ∧ checked.Safe := by
  have hcompiles : (compile countdown).toOption.isSome = true := by decide +kernel
  cases h : compile countdown with
  | error d => simp [h, Except.toOption] at hcompiles
  | ok checked => exact ⟨checked, rfl, safe_of_compile h⟩

end TinyPascal
