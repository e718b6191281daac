import Mathlib.Tactic
import TinyPascal.Console.Rehearsed
import TinyPascal.Execution.Statement

/-!
# After an interrupt

Once the interrupt is raised, a run winds down: it writes nothing more, it reads at most one more
line and ends right after it, and it keeps its store. The one exception is a warning about a line of
input, after which the value that it announces is still stored.

An action is heedful if it winds down whenever it is started after the interrupt, and if, started
before, it winds down from the answer on that raises the interrupt. Statements are heedful because
they look at the interrupt first, and a read because it looks at it after every line.
-/
namespace TinyPascal

open Exec

namespace Request

def isOutput : Request → Bool
  | writeLine _ | warn _ => true
  | _ => false

def isRead : Request → Bool
  | readLine _ => true
  | _ => false

/-- Whether a request is only a note, which neither console nor adviser sees. -/
def isNote : Request → Bool
  | note _ => true
  | _ => false

end Request

/-- The faults that end a run right after a line is read: the interrupt, and a failed console. -/
def RuntimeFault.IsCutOff (fault : RuntimeFault) : Prop :=
  fault = .aborted ∨ ∃ details, fault = .io details

/-- `Pending policy request store next`: while the request is answered, an assignment is pending
that makes `store` to `next`. Only a warning about a line of input has one, to the target and with
the value that it names, and it is not made if the warning fails. -/
inductive Pending (policy : Policy) : Request → Store → Store → Prop where
  | none {request : Request} {store : Store} : Pending policy request store store
  | substitution {target : Identifier} {defect : InputDefect} {value : Integer} {store next : Store}
      (hpolicy : policy.inputFallback = .substitute value)
      (hnext : store.assign target.name (.int value) = .ok next) :
      Pending policy (.warn (defect.text ++ ", assigning " ++ value.text ++ " to " ++ target.name))
        store next

namespace Run

variable {α β : Type} {policy : Policy} {store : Store}

/-- A run that goes on with notes only and is cut off. -/
inductive Expires (store : Store) : Run α → Prop where
  | ended {e : RuntimeError} (he : e.fault.IsCutOff) :
      Expires store (.ended (.error (.error e)) ⟨store, true⟩)
  | note {request : Request} {resume : Answer request.Result → Run α}
      (hrequest : request.isNote = true) (h : ∀ answer, Expires store (resume answer)) :
      Expires store (.paused request ⟨store, true⟩ resume)

/-- A run that writes nothing, expires with the next line that it reads, and keeps its store. -/
inductive WindsDown (store : Store) : Run α → Prop where
  | ended {outcome : Except Halt α} : WindsDown store (.ended outcome ⟨store, true⟩)
  | read {request : Request} {resume : Answer request.Result → Run α}
      (hrequest : request.isRead = true) (h : ∀ answer, Expires store (resume answer)) :
      WindsDown store (.paused request ⟨store, true⟩ resume)
  | quiet {request : Request} {resume : Answer request.Result → Run α}
      (hrequest : request.isRead = false) (houtput : request.isOutput = false)
      (h : ∀ answer, WindsDown store (resume answer)) :
      WindsDown store (.paused request ⟨store, true⟩ resume)

/-- A run that is not interrupted, and that winds down from the answer on that raises the
interrupt. -/
inductive Heeds (policy : Policy) : Run α → Prop where
  | ended {outcome : Except Halt α} {store : Store} : Heeds policy (.ended outcome ⟨store, false⟩)
  | paused {request : Request} {store : Store} {resume : Answer request.Result → Run α}
      (hgo : ∀ result, Heeds policy (resume ⟨result, false⟩))
      (hstop : ∀ result, ∃ next, Pending policy request store next ∧
        WindsDown next (resume ⟨result, true⟩)) :
      Heeds policy (.paused request ⟨store, false⟩ resume)

theorem Expires.andThen {run : Run α} (h : run.Expires store) (next : α → State → Run β) :
    (run.andThen next).Expires store := by
  induction h with
  | ended he => exact .ended he
  | note hrequest _ ih => exact .note hrequest ih

theorem Expires.windsDown {run : Run α} (h : run.Expires store) : run.WindsDown store := by
  induction h with
  | ended he => exact .ended
  | @note request resume hrequest _ ih =>
    cases request with
    | note n => exact .quiet rfl rfl ih
    | readLine | writeLine | warn | consult => cases hrequest

theorem WindsDown.andThen {run : Run α} (h : run.WindsDown store) {next : α → State → Run β}
    (hnext : ∀ a, (next a ⟨store, true⟩).WindsDown store) :
    (run.andThen next).WindsDown store := by
  induction h with
  | @ended outcome =>
    cases outcome with
    | ok a => exact hnext a
    | error halt => exact .ended
  | read hrequest h => exact .read hrequest fun answer => (h answer).andThen next
  | quiet hrequest houtput _ ih => exact .quiet hrequest houtput ih

theorem Heeds.andThen {run : Run α} (h : run.Heeds policy) {next : α → State → Run β}
    (hgo : ∀ a store, (next a ⟨store, false⟩).Heeds policy)
    (hstop : ∀ a store, (next a ⟨store, true⟩).WindsDown store) :
    (run.andThen next).Heeds policy := by
  induction h with
  | @ended outcome store =>
    cases outcome with
    | ok a => exact hgo a store
    | error halt => exact .ended
  | paused _ hraised ih =>
    refine .paused ih fun result => ?_
    obtain ⟨last, hpending, hlast⟩ := hraised result
    exact ⟨last, hpending, hlast.andThen fun a => hstop a last⟩

end Run

namespace Exec

variable {α β : Type} {policy : Policy}

/-- An action that makes no request and keeps the state. -/
def Silent (action : Exec α) : Prop :=
  ∀ state, ∃ outcome, action state = .ended outcome state

/-- An action that winds down once the interrupt is raised, before its start or meanwhile. -/
structure Heedful (policy : Policy) (action : Exec α) : Prop where
  raised : ∀ store, (action ⟨store, true⟩).WindsDown store
  unraised : ∀ store, (action ⟨store, false⟩).Heeds policy

namespace Silent

theorem pure (a : α) : Silent (pure a) := fun _ => ⟨.ok a, rfl⟩

theorem halt (cause : Halt) : Silent (halt cause : Exec α) := fun _ => ⟨.error cause, rfl⟩

theorem bind {x : Exec α} {next : α → Exec β} (hx : Silent x) (hnext : ∀ a, Silent (next a)) :
    Silent (x >>= next) := by
  intro state
  obtain ⟨outcome, hx⟩ := hx state
  change ∃ outcome, (x state).andThen next = _
  rw [hx]
  cases outcome with
  | ok a => exact hnext a state
  | error cause => exact ⟨.error cause, rfl⟩

theorem evaluate (e : Expr) : Silent (evaluate e) := by
  intro state
  change ∃ outcome, ofExcept (e.eval state.store) state = _
  cases e.eval state.store with
  | ok value => exact ⟨.ok value, rfl⟩
  | error error => exact ⟨.error (.error error), rfl⟩

theorem holds (condition : Expr) : Silent (holds condition) :=
  (evaluate condition).bind fun _ => pure _

theorem textOfAll (values : List Expr) : Silent (textOfAll values) := by
  induction values with
  | nil => exact pure _
  | cons value rest ih => exact (evaluate value).bind fun _ => ih.bind fun _ => pure _

theorem heedful {action : Exec α} (h : Silent action) : Heedful policy action := by
  constructor
  · intro store
    obtain ⟨outcome, houtcome⟩ := h ⟨store, true⟩
    rw [houtcome]
    exact .ended
  · intro store
    obtain ⟨outcome, houtcome⟩ := h ⟨store, false⟩
    rw [houtcome]
    exact .ended

/-- After a silent action the interrupt is not raised if it was not before. -/
theorem heeds_bind {x : Exec α} {next : α → Exec β} (hx : Silent x)
    (hnext : ∀ a store, (next a ⟨store, false⟩).Heeds policy) (store : Store) :
    ((x >>= next) ⟨store, false⟩).Heeds policy := by
  obtain ⟨outcome, hx⟩ := hx ⟨store, false⟩
  change ((x ⟨store, false⟩).andThen next).Heeds policy
  rw [hx]
  cases outcome with
  | ok a => exact hnext a store
  | error cause => exact .ended

end Silent

namespace Heedful

theorem bind {x : Exec α} {next : α → Exec β} (hx : Heedful policy x)
    (hnext : ∀ a, Heedful policy (next a)) : Heedful policy (x >>= next) where
  raised store := (hx.raised store).andThen fun a => (hnext a).raised store
  unraised store := (hx.unraised store).andThen (fun a => (hnext a).unraised)
    fun a => (hnext a).raised

theorem ite {condition : Bool} {x y : Exec α} (hx : Heedful policy x) (hy : Heedful policy y) :
    Heedful policy (if condition then x else y) := by
  cases condition with
  | true => exact hx
  | false => exact hy

theorem orFail (p : Position) (result : Except String α) : Heedful policy (orFail p result) := by
  cases result with
  | ok a => exact (Silent.pure a).heedful
  | error details => exact (Silent.halt _).heedful

/-- Whatever is asked before the interrupt, nothing follows the answer. -/
theorem heeds_ask (request : Request) (store : Store) :
    (ask request ⟨store, false⟩).Heeds policy :=
  .paused (fun _ => .ended) fun _ => ⟨store, .none, .ended⟩

theorem note (n : Note) : Heedful policy (note n) where
  raised _ := .quiet rfl rfl fun _ => .ended
  unraised := heeds_ask _

theorem consult (iterations : Nat) : Heedful policy (ask (.consult iterations)) where
  raised _ := .quiet rfl rfl fun _ => .ended
  unraised := heeds_ask _

/-- A statement looks at the interrupt first, so all that follows need only heed what is raised
later. -/
theorem checkInterrupt_bind (p : Position) {action : Exec α}
    (h : ∀ store, (action ⟨store, false⟩).Heeds policy) :
    Heedful policy (checkInterrupt p >>= fun _ => action) where
  raised _ := .quiet rfl rfl fun _ => .ended
  unraised store := h store

/-- What follows the answer to a prompt, once the interrupt is raised, makes no use of the line. -/
theorem expires_afterLine (p : Position) (result : Except String (Option String)) (store : Store)
    (next : Option String → Exec α) :
    ((Exec.orFail p result >>= fun line => checkInterrupt p >>= fun _ => next line)
      ⟨store, true⟩).Expires store := by
  cases result with
  | ok line => exact .note rfl fun _ => .ended (.inl rfl)
  | error details => exact .ended (.inr ⟨details, rfl⟩)

/-- The interrupt is looked at after every line, so what makes use of the line need only heed what
is raised later. -/
theorem readLine_bind (prompt : String) (p : Position) {next : Option String → Exec α}
    (h : ∀ line store, (next line ⟨store, false⟩).Heeds policy) :
    Heedful policy (readLine prompt p >>= next) := by
  have hread : (readLine prompt p >>= next) = ask (.readLine prompt) >>= fun result =>
      Exec.orFail p result >>= fun line => checkInterrupt p >>= fun _ => next line := by
    simp [readLine]
  rw [hread]
  constructor
  · intro store
    exact .read rfl fun answer => expires_afterLine p answer.result store next
  · intro store
    refine .paused (fun result => ?_) fun result =>
      ⟨store, .none, (expires_afterLine p result store next).windsDown⟩
    cases result with
    | ok line => exact h line store
    | error details => exact .ended

theorem heeds_assign (target : Identifier) (value : Value) (store : Store) :
    (assign target value ⟨store, false⟩).Heeds policy := by
  change ((ofExcept (RuntimeError.locate target.position
    (store.assign target.name value)) ⟨store, false⟩).andThen setStore).Heeds policy
  cases store.assign target.name value with
  | ok next => exact .ended
  | error fault => exact .ended

/-- A warning that raises the interrupt leaves the assignment of its value pending, and that
assignment is all that follows. -/
theorem heeds_fallback_bind (target : Identifier) (defect : InputDefect) (p : Position)
    (store : Store) :
    ((fallback policy target defect p >>= fun value => assign target (.int value))
      ⟨store, false⟩).Heeds policy := by
  rw [fallback]
  cases hpolicy : policy.inputFallback with
  | fail => exact .ended
  | substitute value =>
    refine .paused (fun result => ?_) fun result => ?_
    · cases result with
      | ok _ => exact heeds_assign target (.int value) store
      | error details => exact .ended
    · cases result with
      | ok _ =>
        change ∃ next, _ ∧ ((ofExcept (RuntimeError.locate target.position
          (store.assign target.name (.int value))) ⟨store, true⟩).andThen setStore).WindsDown next
        cases hassign : store.assign target.name (.int value) with
        | ok next => exact ⟨next, .substitution hpolicy hassign, .ended⟩
        | error fault => exact ⟨store, .none, .ended⟩
      | error details => exact ⟨store, .none, .ended⟩

theorem readTarget (p : Position) (target : Identifier) :
    Heedful policy (readTarget policy p target) := by
  refine readLine_bind _ p fun line store => ?_
  cases line with
  | none => exact heeds_fallback_bind target .endOfInput p store
  | some line =>
    simp only [inputValue]
    cases Integer.ofText? (Text.trim line) with
    | some value => exact heeds_assign target (.int value) store
    | none => exact heeds_fallback_bind target _ p store

theorem readTargets (p : Position) (targets : List Identifier) :
    Heedful policy (readTargets policy p targets) := by
  induction targets with
  | nil => exact (Silent.pure ()).heedful
  | cons target rest ih => exact (readTarget p target).bind fun _ => ih

theorem confirm (p : Position) (iterations : Nat) :
    Heedful policy (confirm policy p iterations) := by
  unfold Exec.confirm
  cases policy.loopGuard with
  | proceed | abort => exact (Silent.pure _).heedful
  | consult => exact consult iterations
  | prompt => exact readLine_bind _ p fun _ _ => .ended

theorem guardLoop (p : Position) (iterations : Nat) :
    Heedful policy (guardLoop policy p iterations) :=
  .ite ((confirm p iterations).bind fun _ =>
    .ite ((note _).bind fun _ => (Silent.halt _).heedful) (Silent.pure ()).heedful)
    (Silent.pure ()).heedful

/-- A loop with a heedful body is heedful. The induction is on the fuel of the loop. -/
theorem loop {condition : Expr} {body : Exec Unit} (p : Position) (hbody : Heedful policy body)
    (fuel done : Nat) : Heedful policy (loop policy p (holds condition) body fuel done) := by
  induction fuel generalizing done with
  | zero => exact (Silent.halt _).heedful
  | succ fuel ih =>
    exact (Silent.holds condition).heedful.bind fun _ =>
      .ite (hbody.bind fun _ => (guardLoop p (done + 1)).bind fun _ => ih (done + 1)) (note _)

end Heedful

end Exec

namespace Statement

variable {policy : Policy} {fuel : Nat}

mutual

theorem heedful : ∀ s : Statement, Heedful policy (s.exec policy fuel)
  | .assign target value p => by
    rw [exec]
    exact .checkInterrupt_bind p ((Silent.evaluate value).heeds_bind (Heedful.heeds_assign target))
  | .read targets p => by
    rw [exec]
    exact .checkInterrupt_bind p (Heedful.readTargets p targets).unraised
  | .write values p => by
    rw [exec]
    refine .checkInterrupt_bind p ((Silent.textOfAll values).heeds_bind fun line store => ?_)
    have hfail (result : Except String Unit) : Heedful policy (orFail p result) := .orFail p result
    exact (Heedful.heeds_ask _ store).andThen (fun result => (hfail result).unraised)
      fun result => (hfail result).raised
  | .block body p => by
    rw [exec]
    exact .checkInterrupt_bind p (heedfulAll body).unraised
  | .ifThen condition consequent p => by
    rw [exec]
    exact .checkInterrupt_bind p ((Silent.holds condition).heedful.bind fun _ =>
      .ite (heedful consequent) (Silent.pure ()).heedful).unraised
  | .ifElse condition consequent alternative p => by
    rw [exec]
    exact .checkInterrupt_bind p ((Silent.holds condition).heedful.bind fun _ =>
      .ite (heedful consequent) (heedful alternative)).unraised
  | .whileDo condition body p => by
    rw [exec]
    exact .checkInterrupt_bind p (Heedful.loop p (heedful body) fuel 0).unraised

theorem heedfulAll : ∀ body : List Statement, Heedful policy (execAll policy fuel body)
  | [] => by
    rw [execAll]
    exact (Silent.pure ()).heedful
  | s :: rest => by
    rw [execAll]
    exact (heedful s).bind fun _ => heedfulAll rest

end

/-- A statement that is entered after the interrupt only notes it and stops. -/
theorem exec_of_interrupted (s : Statement) (store : Store) :
    s.exec policy fuel ⟨store, true⟩ =
      .paused (.note (.interrupted s.position)) ⟨store, true⟩ fun _ =>
        .ended (.error (.error ⟨.aborted, s.position⟩)) ⟨store, true⟩ := by
  cases s <;> (rw [exec]; rfl)

end Statement

theorem CheckedProgram.heedful {policy : Policy} {fuel : Nat} (checked : CheckedProgram) :
    Heedful policy (do
      Exec.note (.started checked.program.name.name checked.symbols.size)
      Statement.execAll policy fuel checked.program.statements
      Exec.note .finished) :=
  (Heedful.note _).bind fun _ => (Statement.heedfulAll _).bind fun _ => .note _

/-- `Aftermath store moments outcome last`: what may be left of a run whose interrupt is raised, up
to its outcome and its last state. Nothing is written, no warning is shown, and the state stays as
it is. At most one line is read, and then the run ends, interrupted or with a failure of the
console. -/
structure Aftermath {α : Type} (store : Store) (moments : List Moment) (outcome : Except Halt α)
    (last : State) : Prop where
  output : ∀ m ∈ moments, m.request.isOutput = false
  reads : moments.countP (fun m => m.request.isRead) ≤ 1
  ends : ∀ before m after, moments = before ++ m :: after → m.request.isRead = true →
    (∀ n ∈ after, n.request.isNote = true) ∧
      ∃ e, outcome = .error (.error e) ∧ e.fault.IsCutOff
  states : ∀ m ∈ moments, m.state = ⟨store, true⟩
  last : last = ⟨store, true⟩

namespace Aftermath

variable {α : Type} {store : Store} {moments : List Moment} {outcome : Except Halt α} {last : State}
  {m : Moment}

/-- What is left of a run after a moment that is neither read nor written, with that moment. -/
theorem cons (h : Aftermath store moments outcome last) (hstate : m.state = ⟨store, true⟩)
    (houtput : m.request.isOutput = false) (hread : m.request.isRead = false) :
    Aftermath store (m :: moments) outcome last where
  output := List.forall_mem_cons.2 ⟨houtput, h.output⟩
  reads := by simpa [hread] using h.reads
  ends before r after hsplit hr := by
    cases before with
    | nil =>
      obtain ⟨rfl, -⟩ := List.cons.inj hsplit
      simp [hread] at hr
    | cons first before =>
      obtain ⟨-, hsplit⟩ := List.cons.inj hsplit
      exact h.ends before r after hsplit hr
  states := List.forall_mem_cons.2 ⟨hstate, h.states⟩
  last := h.last

theorem cons_of_isNote (hmoments : ∀ n ∈ moments, n.request.isNote = true)
    (hstates : ∀ n ∈ moments, n.state = ⟨store, true⟩)
    (houtcome : ∃ e, outcome = .error (.error e) ∧ e.fault.IsCutOff) (hlast : last = ⟨store, true⟩)
    (hstate : m.state = ⟨store, true⟩) (hread : m.request.isRead = true) :
    Aftermath store (m :: moments) outcome last := by
  have hother : ∀ n ∈ moments, n.request.isRead = false ∧ n.request.isOutput = false := by
    intro n hn
    have hnote := hmoments n hn
    cases hrequest : n.request with
    | note => exact ⟨rfl, rfl⟩
    | _ => simp [hrequest, Request.isNote] at hnote
  have hfirst : m.request.isOutput = false := by
    cases hrequest : m.request with
    | readLine => rfl
    | _ => simp [hrequest, Request.isRead] at hread
  refine ⟨List.forall_mem_cons.2 ⟨hfirst, fun n hn => (hother n hn).2⟩, ?_, ?_,
    List.forall_mem_cons.2 ⟨hstate, hstates⟩, hlast⟩
  · have hcount : moments.countP (fun n => n.request.isRead) = 0 := by
      rw [List.countP_eq_zero]
      intro n hn
      simp [(hother n hn).1]
    rw [List.countP_cons, hcount]
    split <;> omega
  · intro before r after hsplit hr
    refine ⟨?_, houtcome⟩
    cases before with
    | nil =>
      obtain ⟨-, rfl⟩ := List.cons.inj hsplit
      exact hmoments
    | cons first before =>
      obtain ⟨-, rfl⟩ := List.cons.inj hsplit
      simp [(hother r (by simp)).1] at hr

end Aftermath

namespace Run

variable {α σ γ : Type} {policy : Policy} {store : Store} {run : Run α}

theorem Expires.conduct (h : run.Expires store) (console : Console σ) (adviser : Adviser γ) (s : σ)
    (g : γ) :
    (∀ m ∈ (run.conduct console adviser s g).moments,
      m.request.isNote = true ∧ m.state = ⟨store, true⟩) ∧
    (∃ e, (run.conduct console adviser s g).outcome = .error (.error e) ∧ e.fault.IsCutOff) ∧
    (run.conduct console adviser s g).state = ⟨store, true⟩ := by
  induction h generalizing s g with
  | ended he => exact ⟨by simp, ⟨_, rfl, he⟩, rfl⟩
  | note hrequest _ ih =>
    rw [conduct_paused]
    obtain ⟨hmoments, houtcome, hstate⟩ := ih _ _ _
    exact ⟨List.forall_mem_cons.2 ⟨⟨hrequest, rfl⟩, hmoments⟩, houtcome, hstate⟩

theorem WindsDown.aftermath (h : run.WindsDown store) (console : Console σ) (adviser : Adviser γ)
    (s : σ) (g : γ) :
    Aftermath store (run.conduct console adviser s g).moments
      (run.conduct console adviser s g).outcome (run.conduct console adviser s g).state := by
  induction h generalizing s g with
  | ended => exact ⟨by simp, by simp, by simp, by simp, rfl⟩
  | read hrequest h =>
    rw [conduct_paused]
    obtain ⟨hmoments, houtcome, hstate⟩ := (h _).conduct console adviser _ _
    exact .cons_of_isNote (fun m hm => (hmoments m hm).1) (fun m hm => (hmoments m hm).2) houtcome
      hstate rfl hrequest
  | quiet hrequest houtput _ ih =>
    rw [conduct_paused]
    exact (ih _ _ _).cons rfl houtput hrequest

/-- From the moment on that raises the interrupt, a heedful run only winds down. -/
theorem Heeds.aftermath (h : run.Heeds policy) (console : Console σ) (adviser : Adviser γ) (s : σ)
    (g : γ) {before after : List Moment} {m : Moment}
    (hsplit : (run.conduct console adviser s g).moments = before ++ m :: after)
    (hstate : m.state.interrupted = false) (hraises : m.answer.raises = true) :
    ∃ next, Pending policy m.request m.state.store next ∧
      Aftermath next after (run.conduct console adviser s g).outcome
        (run.conduct console adviser s g).state := by
  induction h generalizing s g before with
  | ended => simp at hsplit
  | @paused request store resume _ hstop ih =>
    rw [conduct_paused] at hsplit ⊢
    generalize request.answered console adviser s g = answered at hsplit ⊢
    obtain ⟨⟨result, raises⟩, s, g⟩ := answered
    cases before with
    | nil =>
      obtain ⟨rfl, rfl⟩ := List.cons.inj hsplit
      obtain rfl : raises = true := hraises
      obtain ⟨next, hpending, hnext⟩ := hstop result
      exact ⟨next, hpending, hnext.aftermath console adviser s g⟩
    | cons first before =>
      obtain ⟨-, hsplit⟩ := List.cons.inj hsplit
      cases raises with
      | false => exact ih result s g hsplit
      | true =>
        obtain ⟨next, -, hnext⟩ := hstop result
        have hm := (hnext.aftermath console adviser s g).states m (by rw [hsplit]; simp)
        rw [hm] at hstate
        cases hstate

end Run

/-- Nothing happens after an interrupt that is raised before the start of a conducted run or at one
of its moments. A run that starts with the store `start` keeps it, or keeps the store of the moment
up to an assignment that is pending. -/
structure Conducted.HeedsInterrupt {α σ γ : Type} (policy : Policy) (start : Store)
    (interrupted : Bool) (conducted : Conducted α σ γ) : Prop where
  atStart : interrupted = true →
    Aftermath start conducted.moments conducted.outcome conducted.state
  atMoment : ∀ before m after, conducted.moments = before ++ m :: after →
    m.state.interrupted = false → m.answer.raises = true →
      ∃ next, Pending policy m.request m.state.store next ∧
        Aftermath next after conducted.outcome conducted.state

theorem Exec.Heedful.heedsInterrupt {α σ γ : Type} {policy : Policy} {action : Exec α}
    (h : Heedful policy action) (state : State) (console : Console σ) (adviser : Adviser γ) (s : σ)
    (g : γ) :
    ((action state).conduct console adviser s g).HeedsInterrupt policy state.store
      state.interrupted := by
  obtain ⟨store, interrupted⟩ := state
  cases interrupted with
  | true =>
    have hafter := (h.raised store).aftermath console adviser s g
    refine ⟨fun _ => hafter, fun before m after hsplit hstate => ?_⟩
    rw [hafter.states m (by rw [hsplit]; simp)] at hstate
    cases hstate
  | false =>
    refine ⟨fun hraised => absurd hraised Bool.false_ne_true, ?_⟩
    intro before m after hsplit hstate hraises
    exact (h.unraised store).aftermath console adviser s g hsplit hstate hraises

/-- After an interrupt nothing happens any more, in the run of a program and in the execution of a
statement, on every console and under every policy; and a statement that is entered afterwards stops
at its own place, without a call and with the store as it is. -/
theorem heedsInterrupt_of_exec (policy : Policy) (fuel : Nat) {σ γ : Type} (console : Console σ)
    (adviser : Adviser γ) (s : σ) (g : γ) :
    (∀ (checked : CheckedProgram) (state : State),
      ((checked.exec policy fuel state).conduct console adviser s g).HeedsInterrupt policy
        (.ofSymbols checked.symbols) state.interrupted) ∧
    (∀ (statement : Statement) (state : State),
      ((statement.exec policy fuel state).conduct console adviser s g).HeedsInterrupt policy
        state.store state.interrupted) ∧
    ∀ (statement : Statement) (store : Store),
      (statement.exec policy fuel ⟨store, true⟩).conduct console adviser s g =
        { outcome := .error (.error ⟨.aborted, statement.position⟩)
          state := ⟨store, true⟩
          console := s
          adviser := g
          moments :=
            [⟨.note (.interrupted statement.position), ⟨store, true⟩, { result := () }⟩] } := by
  refine ⟨fun checked state => ?_, fun statement state => ?_, fun statement store => ?_⟩
  · exact checked.heedful.heedsInterrupt ⟨.ofSymbols checked.symbols, state.interrupted⟩ console
      adviser s g
  · exact statement.heedful.heedsInterrupt state console adviser s g
  · rw [Statement.exec_of_interrupted, Run.conduct_paused]
    rfl

/-- A warning that raises the interrupt: its value is stored and one more prompt is shown, but no
further line is used. -/
example :
    let conducted := ((Statement.read [⟨"x", .start⟩, ⟨"y", .start⟩] .start).exec {} 0
      ⟨(∅ : Store).insert "x" (.int 7), false⟩).conduct Rehearsal.console Decisions.adviser
      ⟨[none, some "5"], {}, { warn := some 1 }, 0, 0, 0⟩ ⟨[], none, 0⟩
    conducted.moments.map Moment.request =
        [.readLine "Enter a value for x: ", .warn "end of input, assigning 0 to x",
          .readLine "Enter a value for y: ", .note (.interrupted .start)] ∧
      conducted.state.store.toList = [("x", .int 0)] := by
  decide +kernel

end TinyPascal
