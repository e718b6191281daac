import Mathlib.Tactic
import TinyPascal.Console.Scripted
import TinyPascal.Execution.Session
import TinyPascal.Proofs.Execution.Logic

/-!
# Guards only cut runs short

Two runs of one program under different policies, or with different fuel, go side by side until one
of them is cut off: by the guard of a loop, or by the end of its fuel. Up to there the shorter run
does what the longer one does, apart from asking an adviser, which the longer run need not do.

One relation between runs covers all of this. It is kept by every statement as soon as the guards of
the two policies keep it, so each comparison of policies comes down to a comparison of their guards
after one round of a loop.
-/
namespace TinyPascal

open Exec

def Request.isCall : Request → Bool
  | readLine _ | writeLine _ | warn _ => true
  | consult _ | note _ => false

def Conducted.calls {α σ γ : Type} (conducted : Conducted α σ γ) : List Moment :=
  conducted.moments.filter fun m => m.request.isCall

def Halt.IsStop (cause : Halt) : Prop :=
  ∃ iterations p, cause = .error ⟨.loopStopped iterations, p⟩

namespace Run

variable {α β : Type} {skips : Prop} {IsCut : Halt → Prop} {short long : Run α}

/-- `short.Cuts skips IsCut long`: the run `short` does what `long` does until it is cut off, for a
cause in `IsCut`, perhaps after a note. If `skips` holds, then `short` may also consult an adviser
where `long` does not, and it goes on like `long` unless the adviser raises the interrupt. -/
inductive Cuts (skips : Prop) (IsCut : Halt → Prop) : Run α → Run α → Prop where
  | ended {outcome : Except Halt α} {state : State} :
      Cuts skips IsCut (.ended outcome state) (.ended outcome state)
  | cut {cause : Halt} {state : State} {long : Run α} (h : IsCut cause) :
      Cuts skips IsCut (.ended (.error cause) state) long
  | stop {n : Note} {state : State} {resume : Answer (Request.note n).Result → Run α} {long : Run α}
      (h : ∀ answer, ∃ cause last, IsCut cause ∧ resume answer = .ended (.error cause) last) :
      Cuts skips IsCut (.paused (.note n) state resume) long
  | consult {iterations : ℕ} {state : State}
      {resume : Answer (Request.consult iterations).Result → Run α} {long : Run α} (hskips : skips)
      (h : ∀ result, Cuts skips IsCut (resume ⟨result, false⟩) long) :
      Cuts skips IsCut (.paused (.consult iterations) state resume) long
  | paused {request : Request} {state : State} {resume next : Answer request.Result → Run α}
      (hrequest : skips → request.isConsult = false)
      (h : ∀ answer, Cuts skips IsCut (resume answer) (next answer)) :
      Cuts skips IsCut (.paused request state resume) (.paused request state next)

namespace Cuts

theorem refl (run : Run α)
    (h : skips → ∀ iterations state, ¬ run.Shows (.pause (.consult iterations) state)) :
    run.Cuts skips IsCut run := by
  induction run with
  | ended outcome state => exact .ended
  | paused request state resume ih =>
    apply Cuts.paused
    · intro hskips
      cases request with
      | consult iterations => exact absurd .pause (h hskips iterations state)
      | readLine | writeLine | warn | note => rfl
    · intro answer
      exact ih answer fun hskips iterations last hshows =>
        h hskips iterations last (.later answer hshows)

theorem andThen (h : short.Cuts skips IsCut long) {next after : α → State → Run β}
    (hnext : ∀ a state, short.Gives a state →
      (next a state).Cuts skips IsCut (after a state)) :
    (short.andThen next).Cuts skips IsCut (long.andThen after) := by
  induction h with
  | @ended outcome state =>
    cases outcome with
    | ok a => exact hnext a state .ended
    | error cause => exact .ended
  | cut hcause => exact .cut hcause
  | stop hstop =>
    refine .stop fun answer => ?_
    obtain ⟨cause, last, hcause, hresume⟩ := hstop answer
    exact ⟨cause, last, hcause, by rw [hresume, andThen_error]⟩
  | consult hskips _ ih =>
    exact .consult hskips fun result => ih result fun a state hgives =>
      hnext a state (.paused _ hgives)
  | paused hrequest _ ih =>
    exact .paused hrequest fun answer => ih answer fun a state hgives =>
      hnext a state (.paused answer hgives)

theorem eq (h : short.Cuts False (fun _ => False) long) : short = long := by
  induction h with
  | ended => rfl
  | cut hcause => exact hcause.elim
  | stop hstop =>
    obtain ⟨_, _, hcause, _⟩ := hstop ⟨(), false⟩
    exact hcause.elim
  | consult hskips _ _ => exact hskips.elim
  | paused _ _ ih => exact congrArg _ (funext ih)

variable {σ γ : Type} {console : Console σ} {adviser : Adviser γ}

/-- Without consultations, a conducted run that is not cut off is the longer run. -/
theorem conduct_eq (h : short.Cuts False IsCut long) {s : σ} {g : γ}
    (hend : ∀ cause, (short.conduct console adviser s g).outcome = .error cause → ¬ IsCut cause) :
    long.conduct console adviser s g = short.conduct console adviser s g := by
  induction h generalizing s g with
  | ended => rfl
  | cut hcause => exact absurd hcause (hend _ rfl)
  | stop hstop =>
    obtain ⟨cause, last, hcause, hresume⟩ := hstop ⟨(), false⟩
    refine absurd hcause (hend cause ?_)
    rw [conduct_paused]
    simp only [Request.answered, hresume, conduct_ended]
  | consult hskips _ _ => exact hskips.elim
  | paused _ _ ih =>
    rw [conduct_paused] at hend
    rw [conduct_paused, conduct_paused]
    simp only [ih _ hend]

end Cuts

end Run

/-- `c.CutsShort IsCut d`: the conducted run `c` is cut off, for a cause in `IsCut`, and has made
the first of the calls of `d`, or it ends as `d` does, after the same calls. -/
inductive Conducted.CutsShort {α σ γ : Type} (IsCut : Halt → Prop) (c d : Conducted α σ γ) : Prop
  | cut (cause : Halt) (houtcome : c.outcome = .error cause) (hcause : IsCut cause)
      (hcalls : c.calls <+: d.calls)
  | same (houtcome : d.outcome = c.outcome) (hstate : d.state = c.state)
      (hconsole : d.console = c.console) (hcalls : d.calls = c.calls)

namespace Conducted.CutsShort

variable {α σ γ : Type} {IsCut : Halt → Prop} {c d : Conducted α σ γ} (m : Moment)

theorem cons (h : c.CutsShort IsCut d) :
    CutsShort IsCut { c with moments := m :: c.moments } { d with moments := m :: d.moments } := by
  cases h with
  | cut cause houtcome hcause hcalls =>
    refine .cut cause houtcome hcause ?_
    simp only [calls, List.filter_cons]
    split
    · exact (List.prefix_cons_inj m).2 hcalls
    · exact hcalls
  | same houtcome hstate hconsole hcalls =>
    refine .same houtcome hstate hconsole ?_
    simp only [calls, List.filter_cons]
    split
    · exact congrArg (m :: ·) hcalls
    · exact hcalls

theorem skip (h : c.CutsShort IsCut d) (hm : m.request.isCall = false) :
    CutsShort IsCut { c with moments := m :: c.moments } d := by
  have hcalls : calls { c with moments := m :: c.moments } = c.calls := by
    simp [calls, hm]
  cases h with
  | cut cause houtcome hcause hprefix => exact .cut cause houtcome hcause (hcalls ▸ hprefix)
  | same houtcome hstate hconsole heq =>
    exact .same houtcome hstate hconsole (heq.trans hcalls.symm)

end Conducted.CutsShort

def Adviser.NeverRaises {γ : Type} (adviser : Adviser γ) : Prop :=
  ∀ iterations g, (adviser.consult iterations g).1.raises = false

theorem Request.answered_of_not_isConsult {σ γ : Type} (console : Console σ) (adviser : Adviser γ)
    {request : Request} (h : request.isConsult = false) (s : σ) :
    ∃ answer t, ∀ g, request.answered console adviser s g = (answer, t, g) := by
  cases request with
  | consult iterations => cases h
  | readLine | writeLine | warn | note => exact ⟨_, _, fun _ => rfl⟩

/-- Conducted on one console, the shorter run is cut off or ends as the longer one does. If only the
shorter run consults the adviser, then the longer one may meet it in another state. -/
theorem Run.Cuts.cutsShort {α σ γ : Type} {console : Console σ} {adviser : Adviser γ} {skips : Prop}
    {IsCut : Halt → Prop} {short long : Run α} (h : short.Cuts skips IsCut long)
    (hquiet : skips → adviser.NeverRaises) (s : σ) {g g' : γ} (hg : skips ∨ g = g') :
    (short.conduct console adviser s g).CutsShort IsCut (long.conduct console adviser s g') := by
  induction h generalizing s g g' with
  | ended => exact .same rfl rfl rfl rfl
  | cut hcause => exact .cut _ rfl hcause (List.nil_prefix)
  | stop hstop =>
    obtain ⟨cause, last, hcause, hresume⟩ := hstop ⟨(), false⟩
    rw [conduct_paused]
    simp only [Request.answered, hresume, conduct_ended]
    exact .cut cause rfl hcause List.nil_prefix
  | @consult iterations state resume long hskips _ ih =>
    have hraises := hquiet hskips iterations g
    rcases hconsulted : adviser.consult iterations g with ⟨⟨result, raises⟩, g₁⟩
    rw [hconsulted] at hraises
    obtain rfl : raises = false := hraises
    rw [conduct_paused]
    simp only [Request.answered, hconsulted]
    exact (ih result s (.inl hskips)).skip ⟨.consult iterations, state, ⟨result, false⟩⟩ rfl
  | @paused request state resume next hrequest _ ih =>
    rw [conduct_paused, conduct_paused]
    rcases hg with hskips | rfl
    · obtain ⟨answer, t, hanswered⟩ :=
        Request.answered_of_not_isConsult console adviser (hrequest hskips) s
      simp only [hanswered]
      exact (ih answer t (.inl hskips)).cons _
    · exact (ih _ _ (.inr rfl)).cons _

namespace Exec

variable {α β : Type} {skips : Prop} {IsCut : Halt → Prop}

def Cuts (skips : Prop) (IsCut : Halt → Prop) (short long : Exec α) : Prop :=
  ∀ state, (short state).Cuts skips IsCut (long state)

theorem Cuts.pure (a : α) : Cuts skips IsCut (pure a) (pure a) := fun _ => .ended

theorem Cuts.bind {x y : Exec α} {f g : α → Exec β} (hx : Cuts skips IsCut x y)
    (hnext : ∀ a, Cuts skips IsCut (f a) (g a)) : Cuts skips IsCut (x >>= f) (y >>= g) :=
  fun state => (hx state).andThen fun a last _ => hnext a last

theorem Cuts.ite {condition : Bool} {x y x' y' : Exec α} (hx : Cuts skips IsCut x x')
    (hy : Cuts skips IsCut y y') :
    Cuts skips IsCut (if condition then x else y) (if condition then x' else y') := by
  cases condition with
  | true => exact hx
  | false => exact hy

abbrev NeverConsults (action : Exec α) : Prop :=
  Meets (fun _ => True) (fun o => ∀ iterations state, o ≠ .pause (.consult iterations) state) action
    fun _ => True

theorem tolerant_neverConsults : Tolerant (fun _ => True)
    fun o => ∀ iterations state, o ≠ .pause (.consult iterations) state where
  raise _ _ := trivial
  pause hrequest _ _ _ heq := by
    cases heq
    cases hrequest
  failure _ _ _ _ _ := Observation.noConfusion

theorem NeverConsults.cuts {action : Exec α} (h : NeverConsults action) :
    Cuts skips IsCut action action :=
  fun _ => .refl _ fun _ iterations last hshows => h.shows trivial hshows iterations last rfl

/-- Before a statement the interrupt is looked at, whatever the policy. -/
theorem Cuts.checkInterrupt_bind (p : Position) {x y : Exec α} (h : Cuts skips IsCut x y) :
    Cuts skips IsCut (checkInterrupt p >>= fun _ => x) (checkInterrupt p >>= fun _ => y) := by
  have hcheck : NeverConsults (checkInterrupt p) := tolerant_neverConsults.checkInterrupt p
  exact hcheck.cuts.bind fun _ => h

theorem neverConsults_evaluate (e : Expr) : NeverConsults (evaluate e) :=
  .evaluate_of_failure (fun _ _ _ _ _ => Observation.noConfusion) e

theorem neverConsults_holds (condition : Expr) : NeverConsults (holds condition) :=
  .holds (neverConsults_evaluate condition)

theorem neverConsults_assign (target : Identifier) (value : Value) :
    NeverConsults (Exec.assign target value) :=
  .assign (fun _ _ _ _ => trivial) fun _ _ _ _ _ _ => Observation.noConfusion

/-- What is read depends on the fallback of the policy and not on its guard. -/
theorem readTargets_congr {a b : Policy} (h : a.inputFallback = b.inputFallback) (p : Position)
    (targets : List Identifier) : readTargets a p targets = readTargets b p targets := by
  have hfallback : fallback a = fallback b := by
    funext target defect p
    simp only [fallback, h]
  have hinput (target : Identifier) : inputValue a target p = inputValue b target p := by
    funext line
    cases line <;> simp only [inputValue, hfallback]
  induction targets with
  | nil => rfl
  | cons target rest ih => simp only [readTargets, readTarget, hinput, ih]

end Exec

/-- `strict.Cuts skips IsCut Counts lax`: the two policies treat input alike, and after a round of a
loop the guard of `strict` goes side by side with that of `lax`. `Counts` is an invariant of the
number of rounds that a loop has completed under `strict`. -/
structure Policy.Cuts (skips : Prop) (IsCut : Halt → Prop) (Counts : ℕ → Prop)
    (strict lax : Policy) : Prop where
  inputFallback : strict.inputFallback = lax.inputFallback
  start : Counts 0
  guardLoop : ∀ p done, Counts done →
    Exec.Cuts skips IsCut (guardLoop strict p (done + 1)) (guardLoop lax p (done + 1))
  next : ∀ p done state last, Counts done →
    (Exec.guardLoop strict p (done + 1) state).Gives () last → Counts (done + 1)

section

variable {skips : Prop} {IsCut : Halt → Prop} {Counts : ℕ → Prop} {strict lax : Policy}

/-- Two loops go side by side if their bodies and their guards do. The induction is on the fuel of
the shorter loop, which is cut off when it has less fuel than the other. -/
theorem Exec.cuts_loop (h : strict.Cuts skips IsCut Counts lax) {p : Position}
    {condition : Exec Bool} (hcondition : NeverConsults condition) {body body' : Exec Unit}
    (hbody : Exec.Cuts skips IsCut body body') {fuel fuel' done : ℕ} (hle : fuel ≤ fuel')
    (hfuel : fuel < fuel' → IsCut .outOfFuel) (hdone : Counts done) :
    Exec.Cuts skips IsCut (loop strict p condition body fuel done)
      (loop lax p condition body' fuel' done) := by
  induction fuel generalizing fuel' done with
  | zero =>
    intro state
    cases fuel' with
    | zero => exact .ended
    | succ fuel' => exact .cut (hfuel (Nat.zero_lt_succ _))
  | succ fuel ih =>
    obtain ⟨fuel', rfl⟩ : ∃ m, fuel' = m + 1 := ⟨fuel' - 1, by omega⟩
    have hnote : NeverConsults (note (.loopFinished done p)) := tolerant_neverConsults.note _
    refine hcondition.cuts.bind fun _ => .ite (hbody.bind fun _ state => ?_) hnote.cuts
    refine (h.guardLoop p done hdone state).andThen fun _ last hgives => ?_
    exact ih (by omega) (fun hlt => hfuel (by omega)) (h.next p done state last hdone hgives) last

namespace Statement

variable {fuel fuel' : ℕ}

mutual

/-- The execution of a statement under the one policy goes side by side with that under the other.
-/
theorem cuts (h : strict.Cuts skips IsCut Counts lax) (hle : fuel ≤ fuel')
    (hfuel : fuel < fuel' → IsCut .outOfFuel) : ∀ s : Statement,
    Exec.Cuts skips IsCut (s.exec strict fuel) (s.exec lax fuel')
  | .assign target value p => by
    have hassign : NeverConsults (evaluate value >>= Exec.assign target) :=
      (neverConsults_evaluate value).bind fun _ _ => neverConsults_assign target _
    rw [exec, exec]
    exact .checkInterrupt_bind p hassign.cuts
  | .read targets p => by
    have hread : NeverConsults (readTargets lax p targets) :=
      tolerant_neverConsults.readTargets lax p fun target _ n =>
        neverConsults_assign target (.int n)
    rw [exec, exec, readTargets_congr h.inputFallback]
    exact .checkInterrupt_bind p hread.cuts
  | .write values p => by
    have hwrite : NeverConsults (textOfAll values >>= fun line => writeLine line p) :=
      (Meets.textOfAll fun e _ => neverConsults_evaluate e).bind fun line _ =>
        tolerant_neverConsults.writeLine line p
    rw [exec, exec]
    exact .checkInterrupt_bind p hwrite.cuts
  | .block body p => by
    rw [exec, exec]
    exact .checkInterrupt_bind p (cutsAll h hle hfuel body)
  | .ifThen condition consequent p => by
    rw [exec, exec]
    exact .checkInterrupt_bind p ((neverConsults_holds condition).cuts.bind fun _ =>
      .ite (cuts h hle hfuel consequent) (.pure ()))
  | .ifElse condition consequent alternative p => by
    rw [exec, exec]
    exact .checkInterrupt_bind p ((neverConsults_holds condition).cuts.bind fun _ =>
      .ite (cuts h hle hfuel consequent) (cuts h hle hfuel alternative))
  | .whileDo condition body p => by
    rw [exec, exec]
    exact .checkInterrupt_bind p (cuts_loop h (neverConsults_holds condition)
      (cuts h hle hfuel body) hle hfuel h.start)

theorem cutsAll (h : strict.Cuts skips IsCut Counts lax) (hle : fuel ≤ fuel')
    (hfuel : fuel < fuel' → IsCut .outOfFuel) : ∀ body : List Statement,
    Exec.Cuts skips IsCut (execAll strict fuel body) (execAll lax fuel' body)
  | [] => by
    rw [execAll, execAll]
    exact .pure ()
  | s :: rest => by
    rw [execAll, execAll]
    exact (cuts h hle hfuel s).bind fun _ => cutsAll h hle hfuel rest

end

end Statement

/-- The execution of a program under the one policy goes side by side with that under the other. -/
theorem CheckedProgram.cuts (h : strict.Cuts skips IsCut Counts lax) {fuel fuel' : ℕ}
    (hle : fuel ≤ fuel') (hfuel : fuel < fuel' → IsCut .outOfFuel) (checked : CheckedProgram) :
    Exec.Cuts skips IsCut (checked.exec strict fuel) (checked.exec lax fuel') := by
  have hnote (n : Note) : NeverConsults (note n) := tolerant_neverConsults.note n
  have hstore : Exec.Cuts skips IsCut (setStore (.ofSymbols checked.symbols))
    (setStore (.ofSymbols checked.symbols)) := fun _ => .ended
  exact hstore.bind fun _ => (hnote _).cuts.bind fun _ =>
    (Statement.cutsAll h hle hfuel _).bind fun _ => (hnote _).cuts

/-- A command under the one policy goes side by side with the command under the other. -/
theorem Command.cuts (h : strict.Cuts skips IsCut Counts lax) {fuel fuel' : ℕ} (hle : fuel ≤ fuel')
    (hfuel : fuel < fuel' → IsCut .outOfFuel) (command : Command) :
    Exec.Cuts skips IsCut (command.exec strict fuel) (command.exec lax fuel') := by
  cases command with
  | execute checked => exact (checked.cuts h hle hfuel).bind fun _ => .pure _
  | statement s => exact (s.cuts h hle hfuel).bind fun _ => .pure _
  | evaluate e => exact (neverConsults_evaluate e).cuts.bind fun _ => .pure _
  | raise => exact fun _ => .ended

end

/-- The fuel is used up, or the guard of a loop has stopped the run. -/
def Halt.IsCut (cause : Halt) : Prop :=
  cause = .outOfFuel ∨ cause.IsStop

namespace Exec

variable {policy : Policy} {iterations : ℕ}

theorem guardLoop_of_not_guards (h : policy.guards iterations = false) (p : Position) :
    guardLoop policy p iterations = pure () := by
  rw [guardLoop, h]
  rfl

theorem guardLoop_of_proceed (h : policy.loopGuard = .proceed) (p : Position) (iterations : ℕ) :
    guardLoop policy p iterations = pure () := by
  rw [guardLoop, confirm, h]
  split <;> rfl

def stopLoop (p : Position) (iterations : ℕ) : Exec Unit := do
  note (.loopStopped iterations p)
  fail (.loopStopped iterations) p

theorem cuts_stopLoop {skips : Prop} (p : Position) (iterations : ℕ) (state : State)
    (long : Run Unit) : (stopLoop p iterations state).Cuts skips Halt.IsCut long :=
  .stop fun _ => ⟨_, _, .inr ⟨iterations, p, rfl⟩, rfl⟩

/-- A guard that is consulted stops the loop unless it is told to go on. -/
theorem guardLoop_of_guards (h : policy.guards iterations = true) (p : Position) :
    guardLoop policy p iterations = confirm policy p iterations >>= fun (goesOn : Bool) =>
      if goesOn then pure () else stopLoop p iterations := by
  rw [guardLoop, if_pos h]
  congr 1
  funext goesOn
  cases goesOn <;> rfl

theorem guardLoop_of_abort (h : policy.loopGuard = .abort)
    (hguards : policy.guards iterations = true) (p : Position) :
    guardLoop policy p iterations = stopLoop p iterations := by
  rw [guardLoop_of_guards hguards, confirm, h]
  rfl

theorem guardLoop_of_consult (h : policy.loopGuard = .consult)
    (hguards : policy.guards iterations = true) (p : Position) :
    guardLoop policy p iterations = ask (.consult iterations) >>= fun (goesOn : Bool) =>
      if goesOn then pure () else stopLoop p iterations := by
  rw [guardLoop_of_guards hguards, confirm, h]
  rfl

end Exec

namespace Policy

def unguarded (policy : Policy) : Policy := { policy with loopLimit := none }

theorem guardLoop_unguarded (policy : Policy) (p : Position) (iterations : ℕ) :
    Exec.guardLoop policy.unguarded p iterations = pure () :=
  guardLoop_of_not_guards rfl p

def abortingAt (policy : Policy) (limit : ℕ) : Policy :=
  { policy with loopLimit := some limit, loopGuard := .abort }

theorem cuts_refl (IsCut : Halt → Prop) (policy : Policy) :
    policy.Cuts False IsCut (fun _ => True) policy where
  inputFallback := rfl
  start := trivial
  guardLoop _ _ _ _ := .refl _ False.elim
  next _ _ _ _ _ _ := trivial

/-- Two policies under which no loop is ever stopped. -/
theorem cuts_of_guardLoop_eq_pure {a b : Policy} (hfallback : a.inputFallback = b.inputFallback)
    (ha : ∀ p done, Exec.guardLoop a p (done + 1) = pure ())
    (hb : ∀ p done, Exec.guardLoop b p (done + 1) = pure ()) :
    a.Cuts False (fun _ => False) (fun _ => True) b where
  inputFallback := hfallback
  start := trivial
  guardLoop p done _ := by
    rw [ha, hb]
    exact .pure ()
  next _ _ _ _ _ _ := trivial

/-- A guard that does not prompt stops the loop or lets it go on as it is, and it consults at most
an adviser. -/
theorem cuts_unguarded {policy : Policy} (h : policy.loopGuard ≠ .prompt) :
    policy.Cuts (policy.loopGuard = .consult) Halt.IsCut (fun _ => True) policy.unguarded where
  inputFallback := rfl
  start := trivial
  guardLoop p done _ := by
    rw [guardLoop_unguarded]
    cases hguards : policy.guards (done + 1) with
    | false =>
      rw [guardLoop_of_not_guards hguards]
      exact .pure ()
    | true =>
      intro state
      cases hguard : policy.loopGuard with
      | prompt => exact absurd hguard h
      | proceed =>
        rw [guardLoop_of_proceed hguard]
        exact .ended
      | abort =>
        rw [guardLoop_of_abort hguard hguards]
        exact cuts_stopLoop p _ state _
      | consult =>
        rw [guardLoop_of_consult hguard hguards]
        refine .consult rfl fun result => ?_
        cases result with
        | false => exact cuts_stopLoop p _ _ _
        | true =>
          change Run.Cuts _ _ (.ended _ ⟨state.store, state.interrupted || false⟩) _
          rw [Bool.or_false]
          exact .ended
  next _ _ _ _ _ _ := trivial

/-- A loop that is aborted at a limit completes fewer rounds, so it never reaches a higher limit. -/
theorem cuts_abortingAt (policy : Policy) {k l : ℕ} (hk : 1 ≤ k) (hle : k ≤ l) :
    (policy.abortingAt k).Cuts False Halt.IsCut (· < k) (policy.abortingAt l) := by
  have hbelow {done : ℕ} (hdone : done < k) (h : (policy.abortingAt k).guards (done + 1) = false) :
      done + 1 < k := by
    have hne : done + 1 ≠ k := by
      rintro rfl
      simp [guards, abortingAt] at h
    omega
  refine ⟨rfl, hk, fun p done hdone state => ?_, fun p done state last hdone hgives => ?_⟩
  · cases hguards : (policy.abortingAt k).guards (done + 1) with
    | true =>
      rw [guardLoop_of_abort rfl hguards]
      exact cuts_stopLoop p _ state _
    | false =>
      have hlt : done + 1 < l := (hbelow hdone hguards).trans_le hle
      have hlax : (policy.abortingAt l).guards (done + 1) = false := by
        simp [guards, abortingAt, Nat.mod_eq_of_lt hlt]
      rw [guardLoop_of_not_guards hguards, guardLoop_of_not_guards hlax]
      exact .ended
  · cases hguards : (policy.abortingAt k).guards (done + 1) with
    | true =>
      rw [guardLoop_of_abort rfl hguards] at hgives
      cases hgives with
      | paused answer hgives => cases hgives
    | false => exact hbelow hdone hguards

end Policy

section

variable {σ γ : Type} (console : Console σ) (adviser : Adviser γ)

/-- `command.EndsAs console adviser policy state s g c`: with some fuel, and so with any more, the
command ends as the conducted run `c`. -/
def Command.EndsAs (policy : Policy) (command : Command) (state : State) (s : σ) (g : γ)
    (c : Conducted Response σ γ) : Prop :=
  c.outcome ≠ .error .outOfFuel ∧
    ∃ fuel, (command.exec policy fuel state).conduct console adviser s g = c

def Conducted.IsStopped {α : Type} (c : Conducted α σ γ) : Prop :=
  ∃ cause, c.outcome = .error cause ∧ cause.IsStop

variable {console adviser} {policy : Policy} {command : Command} {state : State} {s : σ} {g : γ}
  {c d : Conducted Response σ γ}

theorem Command.EndsAs.conduct_eq (h : command.EndsAs console adviser policy state s g c) :
    ∃ fuel, ∀ more, fuel ≤ more →
      (command.exec policy more state).conduct console adviser s g = c := by
  obtain ⟨hc, fuel, rfl⟩ := h
  refine ⟨fuel, fun more hle => ?_⟩
  have hcuts := command.cuts (policy.cuts_refl (· = .outOfFuel)) hle (fun _ => rfl) state
  apply hcuts.conduct_eq
  rintro cause houtcome rfl
  exact hc houtcome

/-- With the same fuel, a command is cut off or ends as it does without a guard. -/
theorem Command.cutsShort_unguarded (console : Console σ) (hprompt : policy.loopGuard ≠ .prompt)
    (hquiet : policy.loopGuard = .consult → adviser.NeverRaises) (command : Command) (fuel : ℕ)
    (state : State) (s : σ) (g : γ) :
    ((command.exec policy fuel state).conduct console adviser s g).CutsShort Halt.IsCut
      ((command.exec policy.unguarded fuel state).conduct console adviser s g) := by
  have hcuts := command.cuts (Policy.cuts_unguarded hprompt) (le_refl fuel)
    (fun hlt => absurd hlt (lt_irrefl _)) state
  exact hcuts.cutsShort hquiet s (.inr rfl)

theorem Command.exec_eq_of_guardLoop_eq_pure {a b : Policy}
    (hfallback : a.inputFallback = b.inputFallback)
    (ha : ∀ p done, Exec.guardLoop a p (done + 1) = pure ())
    (hb : ∀ p done, Exec.guardLoop b p (done + 1) = pure ()) (command : Command) (fuel : ℕ) :
    command.exec a fuel = command.exec b fuel := by
  funext state
  exact (command.cuts (Policy.cuts_of_guardLoop_eq_pure hfallback ha hb) (le_refl fuel)
    (fun hlt => absurd hlt (lt_irrefl _)) state).eq

end

/-- A loop guard that does not prompt only cuts runs short. If a command ends and was not stopped by
a guard, it ends in the same way without a loop limit, after the same calls; in any case its calls
are the first of those made without a limit. No limit, the limit zero and a guard that
always proceeds come to the same, and a command that is not aborted at a limit does not notice a
higher one. -/
theorem guard_only_cuts_short {σ γ : Type} (console : Console σ) (adviser : Adviser γ)
    (command : Command) (state : State) (s : σ) (g : γ) :
    (∀ policy : Policy, policy.loopGuard ≠ .prompt →
      (policy.loopGuard = .consult → adviser.NeverRaises) →
      ∀ c, command.EndsAs console adviser policy state s g c →
        (¬ c.IsStopped → ∃ d, command.EndsAs console adviser policy.unguarded state s g d ∧
          d.outcome = c.outcome ∧ d.state = c.state ∧ d.console = c.console ∧ d.calls = c.calls) ∧
        ∀ d, command.EndsAs console adviser policy.unguarded state s g d → c.calls <+: d.calls) ∧
    (∀ (policy : Policy) (limit : Option ℕ) (fuel : ℕ),
      command.exec { policy with loopLimit := some 0 } fuel = command.exec policy.unguarded fuel ∧
      command.exec { policy with loopLimit := limit, loopGuard := .proceed } fuel =
        command.exec policy.unguarded fuel) ∧
    ∀ (policy : Policy) (k l : ℕ), 1 ≤ k → k ≤ l →
      ∀ c, command.EndsAs console adviser (policy.abortingAt k) state s g c → ¬ c.IsStopped →
        command.EndsAs console adviser (policy.abortingAt l) state s g c := by
  refine ⟨fun policy hprompt hquiet c hc => ⟨fun hgoes => ?_, fun d hd => ?_⟩,
    fun policy limit fuel => ⟨?_, ?_⟩, fun policy k l hk hle c hc hgoes => ?_⟩
  · obtain ⟨hfuel, fuel, rfl⟩ := hc
    cases command.cutsShort_unguarded console hprompt hquiet fuel state s g with
    | cut cause houtcome hcause _ =>
      rcases hcause with rfl | hstop
      · exact absurd houtcome hfuel
      · exact absurd ⟨cause, houtcome, hstop⟩ hgoes
    | same houtcome hstate hconsole hcalls =>
      exact ⟨_, ⟨houtcome ▸ hfuel, fuel, rfl⟩, houtcome, hstate, hconsole, hcalls⟩
  · -- Both runs are compared with fuel that suffices for either.
    obtain ⟨n, hn⟩ := hc.conduct_eq
    obtain ⟨m, hm⟩ := hd.conduct_eq
    have hboth := command.cutsShort_unguarded console hprompt hquiet (max n m) state s g
    rw [hn _ (le_max_left n m), hm _ (le_max_right n m)] at hboth
    cases hboth with
    | cut _ _ _ hcalls => exact hcalls
    | same _ _ _ hcalls => rw [hcalls]
  · refine command.exec_eq_of_guardLoop_eq_pure (by rfl) ?_
      (fun p done => policy.guardLoop_unguarded p _) fuel
    intro p done
    apply guardLoop_of_not_guards
    simp [Policy.guards]
  · refine command.exec_eq_of_guardLoop_eq_pure (by rfl) ?_
      (fun p done => policy.guardLoop_unguarded p _) fuel
    intro p done
    exact guardLoop_of_proceed rfl p _
  · obtain ⟨hfuel, fuel, rfl⟩ := hc
    refine ⟨hfuel, fuel, ?_⟩
    have hcuts := command.cuts (policy.cuts_abortingAt hk hle) (le_refl fuel)
      (fun hlt => absurd hlt (lt_irrefl _)) state
    apply hcuts.conduct_eq
    rintro cause houtcome (rfl | hstop)
    · exact hfuel houtcome
    · exact hgoes ⟨cause, houtcome, hstop⟩

/-- Writes `x` and adds one to it while it is below three. -/
def Statement.countToThree : Statement :=
  .whileDo (.binary (.relational .lt) (.var "x" .start) (.int 3 .start) .start)
    (.block [.write [.var "x" .start] .start,
      .assign ⟨"x", .start⟩
        (.binary (.arithmetic .add) (.var "x" .start) (.int 1 .start) .start) .start] .start) .start

def Adviser.agreeing : Adviser Unit where
  consult _ state := ({ result := true }, state)

/-- The loop of three rounds under three policies: with an adviser at every second round, aborted at
the second round, and aborted at the fourth, which it does not reach. -/
theorem guard_only_cuts_short_countToThree :
    let command : Command := .statement .countToThree
    let state : State := ⟨(∅ : Store).insert "x" (.int 0), false⟩
    let script : Script := ⟨[], #[], #[], #[]⟩
    let advised : Policy := ⟨some 2, .consult, .fail⟩
    let conducted (policy : Policy) :=
      (command.exec policy 4 state).conduct Script.console Adviser.agreeing script ()
    (∃ d, command.EndsAs Script.console Adviser.agreeing advised.unguarded state script () d ∧
      d.outcome = (conducted advised).outcome ∧ d.state = (conducted advised).state ∧
      d.console = (conducted advised).console ∧ d.calls = (conducted advised).calls) ∧
    (conducted (advised.abortingAt 2)).calls <+: (conducted advised.unguarded).calls ∧
    command.EndsAs Script.console Adviser.agreeing (advised.abortingAt 9) state script ()
      (conducted (advised.abortingAt 4)) := by
  intro command state script advised conducted
  have h := guard_only_cuts_short Script.console Adviser.agreeing command state script ()
  have hends {policy : Policy} {outcome : Except Halt Response}
      (houtcome : (conducted policy).outcome = outcome) (hne : outcome ≠ .error .outOfFuel) :
      command.EndsAs Script.console Adviser.agreeing policy state script () (conducted policy) :=
    ⟨houtcome ▸ hne, 4, rfl⟩
  have hgoes {policy : Policy} (houtcome : (conducted policy).outcome = .ok .done) :
      ¬ (conducted policy).IsStopped := by
    rintro ⟨cause, hcause, -⟩
    cases houtcome.symm.trans hcause
  have hadvised : (conducted advised).outcome = .ok .done := rfl
  have hstopped : (conducted (advised.abortingAt 2)).outcome =
      .error (.error ⟨.loopStopped 2, .start⟩) := rfl
  have hfree : (conducted advised.unguarded).outcome = .ok .done := rfl
  have hbelow : (conducted (advised.abortingAt 4)).outcome = .ok .done := rfl
  refine ⟨?_, ?_, ?_⟩
  · exact (h.1 advised (by decide) (fun _ _ _ => rfl) _ (hends hadvised (by simp))).1
      (hgoes hadvised)
  · exact (h.1 (advised.abortingAt 2) (by decide) (fun _ _ _ => rfl) _
      (hends hstopped (by simp))).2 _ (hends hfree (by simp))
  · exact h.2.2 advised 4 9 (by decide) (by decide) _ (hends hbelow (by simp)) (hgoes hbelow)

end TinyPascal
