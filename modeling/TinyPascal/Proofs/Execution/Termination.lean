import Mathlib.Order.Filter.AtTopBot.Basic
import Mathlib.Tactic
import TinyPascal.Console.Scripted
import TinyPascal.Interpreter
import TinyPascal.Proofs.Execution.Logic

/-!
# Termination under the loop guard

Executing takes fuel, and a run terminates if from some fuel on it ends in the same way without
running out of it. With a loop limit, a loop can only go on past each multiple of the limit if its
guard says so. Hence a run terminates if the guard says yes only finitely often. The measure of a
loop is made of the answers that are still to come and of the iterations up to the next multiple.
-/
namespace TinyPascal

open Filter Exec

namespace Request

def yieldsLine : (request : Request) → Answer request.Result → Bool
  | readLine _, ⟨.ok (some _), _⟩ => true
  | _, _ => false

def saysYes : (request : Request) → Answer request.Result → Bool
  | consult _, ⟨true, _⟩ => true
  | _, _ => false

theorem yieldsLine_of_result {prompt line : String}
    {answer : Answer (Except String (Option String))}
    (h : answer.result = .ok (some line)) : (readLine prompt).yieldsLine answer = true := by
  rcases answer with ⟨result, raises⟩
  subst h
  rfl

theorem saysYes_of_result {iterations : ℕ} {answer : Answer Bool} (h : answer.result = true) :
    (consult iterations).saysYes answer = true := by
  rcases answer with ⟨result, raises⟩
  subst h
  rfl

end Request

namespace Moment

def yieldsLine (m : Moment) : Bool := m.request.yieldsLine m.answer

def saysYes (m : Moment) : Bool := m.request.saysYes m.answer

end Moment

/-- The answers that a guard of the given kind may take for a yes. -/
def LoopGuard.mayTakeForYes : LoopGuard → Moment → Bool
  | prompt => Moment.yieldsLine
  | consult => Moment.saysYes
  | proceed | abort => fun _ => false

namespace Exec

variable {α : Type}

abbrev NeverExhausts (action : Exec α) : Prop :=
  Meets (fun _ => True) (fun o => ∀ state, o ≠ .exhaustion state) action fun _ => True

theorem permissive_neverExhausts :
    Permissive (fun _ => True) fun o => ∀ state, o ≠ .exhaustion state where
  raise _ _ := trivial
  pause _ _ _ := Observation.noConfusion
  failure _ _ _ _ := Observation.noConfusion
  consult _ _ _ := Observation.noConfusion

theorem neverExhausts_pure (a : α) : NeverExhausts (pure a) := .pure trivial

theorem neverExhausts_checkInterrupt (p : Position) : NeverExhausts (checkInterrupt p) :=
  permissive_neverExhausts.checkInterrupt p

theorem neverExhausts_evaluate (e : Expr) : NeverExhausts (evaluate e) :=
  .evaluate_of_failure (fun _ _ _ _ => Observation.noConfusion) e

theorem neverExhausts_holds (condition : Expr) : NeverExhausts (holds condition) :=
  .holds (neverExhausts_evaluate condition)

theorem neverExhausts_assign (target : Identifier) (value : Value) :
    NeverExhausts (Exec.assign target value) :=
  .assign (fun _ _ _ _ => trivial) fun _ _ _ _ _ => Observation.noConfusion

theorem neverExhausts_readTargets (policy : Policy) (p : Position) (targets : List Identifier) :
    NeverExhausts (readTargets policy p targets) :=
  permissive_neverExhausts.readTargets policy p fun target _ n =>
    neverExhausts_assign target (.int n)

theorem NeverExhausts.outcome_ne {action : Exec α} (h : NeverExhausts action) {σ γ : Type}
    (console : Console σ) (adviser : Adviser γ) (state : State) (s : σ) (g : γ) :
    ((action state).conduct console adviser s g).outcome ≠ .error .outOfFuel := by
  intro houtcome
  have hend := Run.conduct_outcome console adviser (action state) s g
  simp only [houtcome] at hend
  exact h.shows trivial hend _ rfl

section

variable {β σ γ : Type} (console : Console σ) (adviser : Adviser γ)

/-- A sequence that comes to a result comes there through a result of its first part. -/
theorem conduct_bind_ok {x : Exec α} {next : α → Exec β} {state : State} {s : σ} {g : γ} {b : β}
    (h : (((x >>= next) state).conduct console adviser s g).outcome = .ok b) :
    ∃ a c, (x state).conduct console adviser s g = c ∧ c.outcome = .ok a ∧
      ((next a c.state).conduct console adviser c.console c.adviser).outcome = .ok b ∧
      (((x >>= next) state).conduct console adviser s g).moments = c.moments ++
        ((next a c.state).conduct console adviser c.console c.adviser).moments := by
  have hseq : ((x >>= next) state).conduct console adviser s g =
      ((x state).conduct console adviser s g).andThen fun a state s g =>
        (next a state).conduct console adviser s g := Run.conduct_andThen ..
  rw [hseq] at h ⊢
  cases hx : ((x state).conduct console adviser s g).outcome with
  | error halt => simp [Conducted.andThen, hx] at h
  | ok a =>
    simp only [Conducted.andThen, hx] at h ⊢
    exact ⟨a, _, rfl, hx, h, rfl⟩

theorem yieldsLine_of_readLine {prompt line : String} {p : Position} {state : State} {s : σ}
    {g : γ}
    (h : ((readLine prompt p state).conduct console adviser s g).outcome = .ok (some line)) :
    1 ≤ ((readLine prompt p state).conduct console adviser s g).moments.countP
      Moment.yieldsLine := by
  obtain ⟨result, c, rfl, hresult, hrest, hmoments⟩ := conduct_bind_ok console adviser h
  obtain ⟨found, d, rfl, hfound, hlast, -⟩ := conduct_bind_ok console adviser hrest
  obtain ⟨_, e, rfl, -, hpure, -⟩ := conduct_bind_ok console adviser hlast
  cases hpure
  cases hresult
  have hanswer : (console.readLine prompt s).1.result = .ok (some line) := by
    change ((orFail p (console.readLine prompt s).1.result _).conduct console adviser _ _).outcome
      = _ at hfound
    cases hr : (console.readLine prompt s).1.result with
    | error details =>
      rw [hr] at hfound
      cases hfound
    | ok found =>
      rw [hr] at hfound
      cases hfound
      rfl
  have hyes : Moment.yieldsLine ⟨.readLine prompt, state, (console.readLine prompt s).1⟩ = true :=
    Request.yieldsLine_of_result hanswer
  have hasked : 1 ≤ ((ask (.readLine prompt) state).conduct console adviser s g).moments.countP
      Moment.yieldsLine := List.one_le_countP_iff.2 ⟨_, List.mem_singleton_self _, hyes⟩
  rw [readLine, hmoments, List.countP_append]
  exact le_add_right hasked

/-- A guard that is not set to proceed lets a loop go on only after a yes. -/
theorem yes_of_confirm {policy : Policy} {p : Position} {iterations : ℕ} {state : State} {s : σ}
    {g : γ} (hguard : policy.loopGuard ≠ .proceed)
    (h : ((confirm policy p iterations state).conduct console adviser s g).outcome = .ok true) :
    1 ≤ ((confirm policy p iterations state).conduct console adviser s g).moments.countP
      policy.loopGuard.mayTakeForYes := by
  unfold confirm at h ⊢
  cases hkind : policy.loopGuard with
  | proceed => exact absurd hkind hguard
  | abort =>
    rw [hkind] at h
    cases h
  | consult =>
    simp only [hkind] at h ⊢
    have hanswer : (adviser.consult iterations g).1.result = true := Except.ok.inj h
    have hyes : Moment.saysYes ⟨.consult iterations, state, (adviser.consult iterations g).1⟩ =
        true := Request.saysYes_of_result hanswer
    exact List.one_le_countP_iff.2 ⟨_, List.mem_singleton_self _, hyes⟩
  | prompt =>
    simp only [hkind] at h ⊢
    obtain ⟨line, c, rfl, hline, hpure, hmoments⟩ := conduct_bind_ok console adviser h
    cases line with
    | none => cases hpure
    | some line =>
      rw [hmoments, List.countP_append, LoopGuard.mayTakeForYes]
      exact le_add_right (yieldsLine_of_readLine console adviser hline)

theorem yes_of_guardLoop {policy : Policy} {p : Position} {iterations : ℕ} {state : State} {s : σ}
    {g : γ} (hguards : policy.guards iterations = true) (hguard : policy.loopGuard ≠ .proceed)
    (h : ((guardLoop policy p iterations state).conduct console adviser s g).outcome = .ok ()) :
    1 ≤ ((guardLoop policy p iterations state).conduct console adviser s g).moments.countP
      policy.loopGuard.mayTakeForYes := by
  rw [guardLoop, if_pos hguards] at h ⊢
  obtain ⟨goesOn, c, rfl, hgoesOn, hrest, hmoments⟩ := conduct_bind_ok console adviser h
  cases goesOn with
  | false => cases hrest
  | true =>
    rw [hmoments, List.countP_append]
    exact le_add_right (yes_of_confirm console adviser hguard hgoesOn)

/-- From some fuel on, a run ends in the same way, and not because it is out of fuel. -/
def Terminates (family : ℕ → Exec α) (state : State) (s : σ) (g : γ) : Prop :=
  ∃ c : Conducted α σ γ, c.outcome ≠ .error .outOfFuel ∧
    ∀ᶠ fuel in atTop, (family fuel state).conduct console adviser s g = c

/-- From some fuel on, a run has at most `n` moments of the kind `isYes`. -/
def YesAtMost (isYes : Moment → Bool) (n : ℕ) (family : ℕ → Exec α) (state : State) (s : σ)
    (g : γ) : Prop :=
  ∀ᶠ fuel in atTop,
    ((family fuel state).conduct console adviser s g).moments.countP isYes ≤ n

/-- From every state, a run terminates if it has only finitely many moments of the kind `isYes`. -/
def Converges (isYes : Moment → Bool) (family : ℕ → Exec α) : Prop :=
  ∀ n state s g, YesAtMost console adviser isYes n family state s g →
    Terminates console adviser family state s g

variable {console adviser} {isYes : Moment → Bool}

theorem NeverExhausts.converges {action : Exec α} (h : NeverExhausts action) :
    Converges console adviser isYes fun _ => action :=
  fun _ state s g _ => ⟨_, h.outcome_ne console adviser state s g, .of_forall fun _ => rfl⟩

theorem Terminates.congr {x y : ℕ → Exec α} {state : State} {s : σ} {g : γ}
    (h : Terminates console adviser x state s g) (heq : ∀ᶠ fuel in atTop, x fuel = y fuel) :
    Terminates console adviser y state s g := by
  obtain ⟨c, hc, hsettles⟩ := h
  refine ⟨c, hc, ?_⟩
  filter_upwards [hsettles, heq] with fuel hfuel hxy
  rw [← hxy, hfuel]

theorem YesAtMost.congr {n : ℕ} {x y : ℕ → Exec α} {state : State} {s : σ} {g : γ}
    (h : YesAtMost console adviser isYes n x state s g) (heq : ∀ᶠ fuel in atTop, x fuel = y fuel) :
    YesAtMost console adviser isYes n y state s g := by
  filter_upwards [h, heq] with fuel hfuel hxy
  rw [← hxy]
  exact hfuel

/-- A sequence terminates if its first part does and its second part does from where the first has
ended, with the answers that are left for it. -/
theorem terminates_bind {x : ℕ → Exec α} {next : ℕ → α → Exec β} {n : ℕ} {state : State} {s : σ}
    {g : γ} (hx : Converges console adviser isYes x)
    (hnext : ∀ (c : Conducted α σ γ) (a : α) (m : ℕ),
      (∀ᶠ fuel in atTop, (x fuel state).conduct console adviser s g = c) → c.outcome = .ok a →
      c.moments.countP isYes + m ≤ n →
      YesAtMost console adviser isYes m (fun fuel => next fuel a) c.state c.console c.adviser →
      Terminates console adviser (fun fuel => next fuel a) c.state c.console c.adviser)
    (hyes : YesAtMost console adviser isYes n (fun fuel => x fuel >>= next fuel) state s g) :
    Terminates console adviser (fun fuel => x fuel >>= next fuel) state s g := by
  have hseq : ∀ fuel, ((x fuel >>= next fuel) state).conduct console adviser s g =
      ((x fuel state).conduct console adviser s g).andThen fun a state s g =>
        (next fuel a state).conduct console adviser s g := fun fuel => Run.conduct_andThen ..
  have hfirst : YesAtMost console adviser isYes n x state s g := by
    filter_upwards [hyes] with fuel hfuel
    rw [hseq] at hfuel
    cases houtcome : ((x fuel state).conduct console adviser s g).outcome with
    | error halt => simpa [Conducted.andThen, houtcome] using hfuel
    | ok a =>
      simp only [Conducted.andThen, houtcome, List.countP_append] at hfuel
      omega
  obtain ⟨c, hc, hsettles⟩ := hx n state s g hfirst
  cases houtcome : c.outcome with
  | error halt =>
    refine ⟨⟨.error halt, c.state, c.console, c.adviser, c.moments⟩, ?_, ?_⟩
    · rw [houtcome] at hc
      simpa using hc
    · filter_upwards [hsettles] with fuel hfuel
      rw [hseq, hfuel, Conducted.andThen, houtcome]
  | ok a =>
    have hsecond : ∀ᶠ fuel in atTop, c.moments.countP isYes +
        ((next fuel a c.state).conduct console adviser c.console c.adviser).moments.countP isYes ≤
          n := by
      filter_upwards [hsettles, hyes] with fuel hfuel hle
      rw [hseq, hfuel] at hle
      simpa only [Conducted.andThen, houtcome, List.countP_append] using hle
    have hleft : YesAtMost console adviser isYes (n - c.moments.countP isYes)
        (fun fuel => next fuel a) c.state c.console c.adviser := by
      filter_upwards [hsecond] with fuel hfuel
      omega
    obtain ⟨fuel, hle⟩ := hsecond.exists
    obtain ⟨d, hd, hrest⟩ := hnext c a _ hsettles houtcome (by omega) hleft
    refine ⟨{ d with moments := c.moments ++ d.moments }, hd, ?_⟩
    filter_upwards [hsettles, hrest] with fuel hfuel hnextFuel
    rw [hseq, hfuel]
    simp only [Conducted.andThen, houtcome, hnextFuel]

theorem Converges.bind {x : ℕ → Exec α} {next : ℕ → α → Exec β}
    (hx : Converges console adviser isYes x)
    (hnext : ∀ a, Converges console adviser isYes fun fuel => next fuel a) :
    Converges console adviser isYes fun fuel => x fuel >>= next fuel :=
  fun _ _ _ _ hyes => terminates_bind hx (fun _ a m _ _ _ h => hnext a m _ _ _ h) hyes

variable {policy : Policy} {k : ℕ}

theorem add_one_mod_of_ne_zero {m : ℕ} (hk : 0 < k) (h : (m + 1) % k ≠ 0) :
    (m + 1) % k = m % k + 1 := by
  have hone : 1 < k := by
    by_contra hle
    obtain rfl : k = 1 := by omega
    exact h (Nat.mod_one _)
  have hlt := Nat.mod_lt m hk
  rw [Nat.add_mod_eq_ite, Nat.mod_eq_of_lt hone] at h ⊢
  split_ifs at h ⊢ <;> omega

/-- A loop terminates if its body does. The induction is on the answers still to come times the
limit plus the iterations before the next multiple of the limit. -/
theorem terminates_loop (hlimit : policy.loopLimit = some k) (hk : 0 < k)
    (hguard : policy.loopGuard ≠ .proceed) {p : Position} {condition : Exec Bool}
    (hcondition : NeverExhausts condition) {body : ℕ → Exec Unit}
    (hbody : Converges console adviser policy.loopGuard.mayTakeForYes body) (measure : ℕ)
    {n done : ℕ} (hmeasure : n * k + (k - 1 - done % k) ≤ measure) {left : ℕ → ℕ}
    (hleft : Tendsto left atTop atTop) {state : State} {s : σ} {g : γ}
    (hyes : YesAtMost console adviser policy.loopGuard.mayTakeForYes n
      (fun fuel => loop policy p condition (body fuel) (left fuel) done) state s g) :
    Terminates console adviser (fun fuel => loop policy p condition (body fuel) (left fuel) done)
      state s g := by
  induction measure using Nat.strong_induction_on generalizing n done left state s g with
  | _ measure ih =>
    have hnote : NeverExhausts (note (.loopFinished done p)) := permissive_neverExhausts.note _
    have hask : NeverExhausts (guardLoop policy p (done + 1)) :=
      permissive_neverExhausts.guardLoop policy p (done + 1)
    have hround : ∀ᶠ fuel in atTop, loop policy p condition (body fuel) (left fuel) done =
        condition >>= fun b => if b then
          body fuel >>= fun _ => guardLoop policy p (done + 1) >>= fun _ =>
            loop policy p condition (body fuel) (left fuel - 1) (done + 1)
        else note (.loopFinished done p) := by
      filter_upwards [hleft.eventually_ge_atTop 1] with fuel hfuel
      obtain ⟨m, hm⟩ := Nat.exists_eq_add_of_le' hfuel
      rw [hm, loop]
      rfl
    refine Terminates.congr ?_ (hround.mono fun _ h => h.symm)
    refine terminates_bind hcondition.converges ?_ (hyes.congr hround)
    intro c b m₀ _ _ hm₀ hyes₀
    cases b with
    | false => exact hnote.converges _ _ _ _ hyes₀
    | true =>
      refine terminates_bind hbody ?_ hyes₀
      intro c₁ _ m₁ _ _ hm₁ hyes₁
      refine terminates_bind hask.converges ?_ hyes₁
      intro c₂ _ m₂ hsettles hok hm₂ hyes₂
      obtain ⟨_, rfl⟩ := hsettles.exists
      refine ih _ ?_ (le_refl _) (tendsto_sub_atTop_nat 1 |>.comp hleft) hyes₂
      by_cases hmultiple : (done + 1) % k = 0
      · have hguards : policy.guards (done + 1) = true := by
          simp [Policy.guards, hlimit, hmultiple]
        have hcount := yes_of_guardLoop console adviser hguards hguard hok
        have hless : (m₂ + 1) * k ≤ n * k := Nat.mul_le_mul_right k (by omega)
        rw [Nat.succ_mul] at hless
        omega
      · have hnext := add_one_mod_of_ne_zero hk hmultiple
        have hless : m₂ * k ≤ n * k := Nat.mul_le_mul_right k (by omega)
        have hlt := Nat.mod_lt (done + 1) hk
        omega

end

end Exec

namespace Statement

variable {σ γ : Type} (console : Console σ) (adviser : Adviser γ) {policy : Policy} {k : ℕ}

mutual

/-- The execution of a statement terminates if its guards are told yes only finitely often. -/
theorem converges (hlimit : policy.loopLimit = some k) (hk : 0 < k)
    (hguard : policy.loopGuard ≠ .proceed) : ∀ s : Statement,
    Converges console adviser policy.loopGuard.mayTakeForYes fun fuel => s.exec policy fuel
  | .assign target value p => by
    have h : NeverExhausts (checkInterrupt p >>= fun _ => evaluate value >>= Exec.assign target) :=
      (neverExhausts_checkInterrupt p).bind fun _ _ =>
        (neverExhausts_evaluate value).bind fun _ _ => neverExhausts_assign target _
    simpa only [exec] using h.converges
  | .read targets p => by
    have h : NeverExhausts (checkInterrupt p >>= fun _ => readTargets policy p targets) :=
      (neverExhausts_checkInterrupt p).bind fun _ _ =>
        neverExhausts_readTargets policy p targets
    simpa only [exec] using h.converges
  | .write values p => by
    have h : NeverExhausts (checkInterrupt p >>= fun _ => textOfAll values >>= fun text =>
        writeLine text p) :=
      (neverExhausts_checkInterrupt p).bind fun _ _ =>
        (Meets.textOfAll fun e _ => neverExhausts_evaluate e).bind fun _ _ =>
          permissive_neverExhausts.writeLine _ p
    simpa only [exec] using h.converges
  | .block body p => by
    simp only [exec]
    exact (neverExhausts_checkInterrupt p).converges.bind fun _ =>
      convergesAll hlimit hk hguard body
  | .ifThen condition consequent p => by
    simp only [exec]
    refine (neverExhausts_checkInterrupt p).converges.bind fun _ =>
      (neverExhausts_holds condition).converges.bind fun b => ?_
    cases b with
    | false => exact (neverExhausts_pure ()).converges
    | true => exact converges hlimit hk hguard consequent
  | .ifElse condition consequent alternative p => by
    simp only [exec]
    refine (neverExhausts_checkInterrupt p).converges.bind fun _ =>
      (neverExhausts_holds condition).converges.bind fun b => ?_
    cases b with
    | false => exact converges hlimit hk hguard alternative
    | true => exact converges hlimit hk hguard consequent
  | .whileDo condition body p => by
    simp only [exec]
    refine (neverExhausts_checkInterrupt p).converges.bind fun _ n state s g hyes => ?_
    exact terminates_loop hlimit hk hguard (neverExhausts_holds condition)
      (converges hlimit hk hguard body) _ (le_refl _) tendsto_id hyes

theorem convergesAll (hlimit : policy.loopLimit = some k) (hk : 0 < k)
    (hguard : policy.loopGuard ≠ .proceed) : ∀ body : List Statement,
    Converges console adviser policy.loopGuard.mayTakeForYes fun fuel => execAll policy fuel body
  | [] => by
    simp only [execAll]
    exact (neverExhausts_pure ()).converges
  | s :: rest => by
    simp only [execAll]
    exact (converges hlimit hk hguard s).bind fun _ => convergesAll hlimit hk hguard rest

end

end Statement

theorem CheckedProgram.converges {σ γ : Type} (console : Console σ) (adviser : Adviser γ)
    {policy : Policy} {k : ℕ} (hlimit : policy.loopLimit = some k) (hk : 0 < k)
    (hguard : policy.loopGuard ≠ .proceed) (checked : CheckedProgram) :
    Converges console adviser policy.loopGuard.mayTakeForYes fun fuel =>
      checked.exec policy fuel := by
  have hstore : NeverExhausts (setStore (.ofSymbols checked.symbols)) := by
    constructor
    · exact fun _ _ _ _ => ⟨trivial, trivial⟩
    · intro state _ o hshows
      cases hshows
  have hnote : ∀ n, NeverExhausts (note n) := fun n => permissive_neverExhausts.note n
  exact hstore.converges.bind fun _ => (hnote _).converges.bind fun _ =>
    (Statement.convergesAll console adviser hlimit hk hguard _).bind fun _ => (hnote _).converges

/-- If every yes lowers what is left and no answer raises it, there are no more of them in a run
than what is left at its start. -/
theorem Run.countP_moments_le {α σ γ : Type} {console : Console σ} {adviser : Adviser γ}
    {isYes : Moment → Bool} (left : σ → γ → ℕ)
    (hleft : ∀ (request : Request) (state : State) (s : σ) (g : γ),
      left (request.answered console adviser s g).2.1 (request.answered console adviser s g).2.2 +
        (if isYes ⟨request, state, (request.answered console adviser s g).1⟩ then 1 else 0) ≤
          left s g)
    (run : Run α) (s : σ) (g : γ) :
    (run.conduct console adviser s g).moments.countP isYes ≤ left s g := by
  induction run generalizing s g with
  | ended outcome state => simp
  | paused request state resume ih =>
    have hrest := ih (request.answered console adviser s g).1
      (request.answered console adviser s g).2.1 (request.answered console adviser s g).2.2
    have hfirst := hleft request state s g
    rw [conduct_paused]
    simp only [List.countP_cons]
    exact (Nat.add_le_add_right hrest _).trans hfirst

theorem Script.countP_yieldsLine_le {α γ : Type} {adviser : Adviser γ} (run : Run α)
    (script : Script) (g : γ) :
    (run.conduct Script.console adviser script g).moments.countP Moment.yieldsLine ≤
      script.input.length := by
  refine Run.countP_moments_le (fun script _ => script.input.length) ?_ run script g
  intro request state script g
  cases request with
  | readLine prompt =>
    rcases script with ⟨input, output, warnings, prompts⟩
    cases input with
    | nil => exact le_refl 0
    | cons line rest => exact le_refl _
  | writeLine line => exact le_refl _
  | warn message => exact le_refl _
  | consult iterations => exact le_refl _
  | note n => exact le_refl _

/-- Under a loop limit, the execution of a statement terminates if its guard says yes only finitely
often: always if it aborts, if the adviser agrees finitely often, and if the console yields finitely
many lines to a guard that prompts. In particular, to run a source text on a script with the default
policy always terminates. -/
theorem terminates_under_guard :
    (∀ {σ γ : Type} (console : Console σ) (adviser : Adviser γ) (policy : Policy) (k : ℕ)
      (statement : Statement) (state : State) (s : σ) (g : γ),
      policy.loopLimit = some k → 1 ≤ k →
      (policy.loopGuard = .abort →
        Terminates console adviser (fun fuel => statement.exec policy fuel) state s g) ∧
      (policy.loopGuard = .consult →
        (∃ n, ∀ fuel,
          ((statement.exec policy fuel state).conduct console adviser s g).moments.countP
            Moment.saysYes ≤ n) →
        Terminates console adviser (fun fuel => statement.exec policy fuel) state s g) ∧
      (policy.loopGuard = .prompt →
        (∃ n, ∀ fuel,
          ((statement.exec policy fuel state).conduct console adviser s g).moments.countP
            Moment.yieldsLine ≤ n) →
        Terminates console adviser (fun fuel => statement.exec policy fuel) state s g)) ∧
    ∀ {γ : Type} (adviser : Adviser γ) (interrupted : Bool) (source : String) (script : Script)
      (g : γ), ∃ result,
        (∀ᶠ fuel in atTop,
          run Script.console adviser {} fuel interrupted source script g = result) ∧
        ∀ conducted, result = .ok conducted → conducted.outcome ≠ .error .outOfFuel := by
  constructor
  · intro σ γ console adviser policy k statement state s g hlimit hk
    refine ⟨fun hguard => ?_, fun hguard => ?_, fun hguard => ?_⟩
    · have h := statement.converges console adviser hlimit hk (by simp [hguard])
      exact h 0 state s g (.of_forall fun fuel => by simp [hguard, LoopGuard.mayTakeForYes])
    · rintro ⟨n, hn⟩
      have h := statement.converges console adviser hlimit hk (by simp [hguard])
      rw [hguard] at h
      exact h n state s g (.of_forall hn)
    · rintro ⟨n, hn⟩
      have h := statement.converges console adviser hlimit hk (by simp [hguard])
      rw [hguard] at h
      exact h n state s g (.of_forall hn)
  · intro γ adviser interrupted source script g
    cases hcompile : compile source with
    | error d =>
      refine ⟨.error d, .of_forall fun fuel => by simp [run, hcompile], ?_⟩
      intro conducted hresult
      cases hresult
    | ok checked =>
      have hlimit : ({} : Policy).loopLimit = some 1000 := rfl
      have h := checked.converges Script.console adviser hlimit (by decide) (by decide)
      obtain ⟨c, hc, hsettles⟩ := h script.input.length ⟨∅, interrupted⟩ script g
        (.of_forall fun fuel => Script.countP_yieldsLine_le _ script g)
      refine ⟨.ok c, ?_, ?_⟩
      · filter_upwards [hsettles] with fuel hfuel
        simp only [run, hcompile, CheckedProgram.start, hfuel]
      · intro conducted hresult
        cases hresult
        exact hc

def Adviser.patient : Adviser ℕ where
  consult _ patience := ({ result := decide (0 < patience) }, patience - 1)

theorem Adviser.countP_saysYes_patient_le {α σ : Type} {console : Console σ} (run : Run α) (s : σ)
    (patience : ℕ) :
    (run.conduct console Adviser.patient s patience).moments.countP Moment.saysYes ≤ patience := by
  refine Run.countP_moments_le (fun _ patience => patience) ?_ run s patience
  intro request state s patience
  cases request with
  | consult iterations =>
    cases patience with
    | zero => exact le_refl 0
    | succ patience => exact le_refl _
  | readLine prompt => exact le_refl _
  | writeLine line => exact le_refl _
  | warn message => exact le_refl _
  | note n => exact le_refl _

def Statement.endless : Statement :=
  .whileDo (.int 1 .start) (.whileDo (.int 1 .start) (.write [.int 1 .start] .start) .start) .start

theorem terminates_under_guard_endless :
    Terminates Script.console Adviser.silent
      (fun fuel => Statement.endless.exec ⟨some 2, .abort, .fail⟩ fuel) ⟨∅, false⟩
      ⟨[], #[], #[], #[]⟩ () ∧
    Terminates Script.console Adviser.patient
      (fun fuel => Statement.endless.exec ⟨some 2, .consult, .fail⟩ fuel) ⟨∅, false⟩
      ⟨[], #[], #[], #[]⟩ 5 ∧
    Terminates Script.console Adviser.silent
      (fun fuel => Statement.endless.exec ⟨some 2, .prompt, .fail⟩ fuel) ⟨∅, false⟩
      ⟨["y", "yes"], #[], #[], #[]⟩ () :=
  ⟨(terminates_under_guard.1 _ _ _ 2 _ _ _ _ rfl (by decide)).1 rfl,
    (terminates_under_guard.1 _ _ _ 2 _ _ _ _ rfl (by decide)).2.1 rfl
      ⟨5, fun _ => Adviser.countP_saysYes_patient_le _ _ _⟩,
    (terminates_under_guard.1 _ _ _ 2 _ _ _ _ rfl (by decide)).2.2 rfl
      ⟨2, fun _ => Script.countP_yieldsLine_le _ _ _⟩⟩

end TinyPascal
