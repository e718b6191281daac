import TinyPascal.Execution.Statement
import TinyPascal.Proofs.Execution.Observation

/-!
# A logic of actions

An action meets a specification if from every state that satisfies the invariant, whatever it is
answered, it gives expected results in states that satisfy the invariant, and shows only what is
allowed. The actions that statements are made of meet every specification that allows pauses and the
faults that come from outside; what evaluation and assignment may do depends on the specification.
-/
namespace TinyPascal

/-- The faults that lie in a program alone and that a check of names and types is to rule out. -/
def RuntimeFault.isMisuse : RuntimeFault → Bool
  | unboundVariable _ | typeMismatch _ => true
  | _ => false

def Request.isConsult : Request → Bool
  | consult _ => true
  | _ => false

namespace Exec

variable {α β : Type} {Inv : State → Prop} {Allowed : Observation → Prop} {Result : α → Prop}

/-- `Meets Inv Allowed action Result`: from states that satisfy `Inv`, the action gives results that
satisfy `Result` in states that satisfy `Inv`, and shows only what is `Allowed`. -/
structure Meets (Inv : State → Prop) (Allowed : Observation → Prop) (action : Exec α)
    (Result : α → Prop) : Prop where
  gives : ∀ {state : State}, Inv state → ∀ {a last}, (action state).Gives a last →
    Result a ∧ Inv last
  shows : ∀ {state : State}, Inv state → ∀ {o}, (action state).Shows o → Allowed o

/-- The invariant does not depend on the interrupt, and all pauses but consultations and all faults
but misuse are allowed. -/
structure Tolerant (Inv : State → Prop) (Allowed : Observation → Prop) : Prop where
  raise : ∀ {state : State} (raised : Bool), Inv state → Inv { state with interrupted := raised }
  pause : ∀ {state : State} {request : Request}, request.isConsult = false → Inv state →
    Allowed (.pause request state)
  failure : ∀ {state : State} (e : RuntimeError), Inv state → e.fault.isMisuse = false →
    Allowed (.failure e state)

/-- Consultations are allowed too. -/
structure Permissive (Inv : State → Prop) (Allowed : Observation → Prop) : Prop
    extends Tolerant Inv Allowed where
  consult : ∀ {state : State} (iterations : Nat), Inv state →
    Allowed (.pause (.consult iterations) state)

/-- As `Tolerant`, for what happens at the place `p`: of the faults there, those that are `Outside`
are allowed. -/
structure TolerantAt (Inv : State → Prop) (Allowed : Observation → Prop) (p : Position)
    (Outside : RuntimeFault → Prop) : Prop where
  raise : ∀ {state : State} (raised : Bool), Inv state → Inv { state with interrupted := raised }
  pause : ∀ {state : State} {request : Request}, request.isConsult = false → Inv state →
    Allowed (.pause request state)
  failure : ∀ {state : State} {fault : RuntimeFault}, Inv state → Outside fault →
    Allowed (.failure ⟨fault, p⟩ state)

/-- Consultations are allowed too. -/
structure PermissiveAt (Inv : State → Prop) (Allowed : Observation → Prop) (p : Position)
    (Outside : RuntimeFault → Prop) : Prop extends TolerantAt Inv Allowed p Outside where
  consult : ∀ {state : State} (iterations : Nat), Inv state →
    Allowed (.pause (.consult iterations) state)

theorem Tolerant.atPlace (h : Tolerant Inv Allowed) (p : Position) :
    TolerantAt Inv Allowed p fun fault => fault.isMisuse = false where
  raise := h.raise
  pause := h.pause
  failure hstate hfault := h.failure ⟨_, p⟩ hstate hfault

theorem Permissive.atPlace (h : Permissive Inv Allowed) (p : Position) :
    PermissiveAt Inv Allowed p fun fault => fault.isMisuse = false where
  toTolerantAt := h.toTolerant.atPlace p
  consult := h.consult

namespace Meets

theorem pure {a : α} (h : Result a) : Meets Inv Allowed (pure a) Result := by
  constructor
  · intro state hstate a last hgives
    cases hgives
    exact ⟨h, hstate⟩
  · intro state hstate o hshows
    cases hshows

theorem bind {x : Exec α} {next : α → Exec β} {Last : β → Prop} (hx : Meets Inv Allowed x Result)
    (hnext : ∀ a, Result a → Meets Inv Allowed (next a) Last) :
    Meets Inv Allowed (x >>= next) Last := by
  constructor
  · intro state hstate b last hgives
    obtain ⟨a, mid, ha, hb⟩ := Run.Gives.of_andThen hgives
    obtain ⟨hresult, hmid⟩ := hx.gives hstate ha
    exact (hnext a hresult).gives hmid hb
  · intro state hstate o hshows
    rcases Run.Shows.of_andThen hshows with hshows | ⟨a, mid, ha, hshows⟩
    · exact hx.shows hstate hshows
    · obtain ⟨hresult, hmid⟩ := hx.gives hstate ha
      exact (hnext a hresult).shows hmid hshows

theorem weaken {x : Exec α} {Weaker : α → Prop} (hx : Meets Inv Allowed x Result)
    (hresult : ∀ a, Result a → Weaker a) : Meets Inv Allowed x Weaker := by
  constructor
  · intro state hstate a last hgives
    obtain ⟨ha, hlast⟩ := hx.gives hstate hgives
    exact ⟨hresult a ha, hlast⟩
  · intro state hstate o hshows
    exact hx.shows hstate hshows

theorem ite {condition : Bool} {x y : Exec α} (hx : Meets Inv Allowed x Result)
    (hy : Meets Inv Allowed y Result) :
    Meets Inv Allowed (if condition then x else y) Result := by
  cases condition with
  | true => exact hx
  | false => exact hy

theorem state : Meets Inv Allowed state Inv := by
  constructor
  · intro state hstate a last hgives
    cases hgives
    exact ⟨hstate, hstate⟩
  · intro state hstate o hshows
    cases hshows

theorem ask {request : Request}
    (hraise : ∀ {state : State} (raised : Bool), Inv state →
      Inv { state with interrupted := raised })
    (hpause : ∀ state, Inv state → Allowed (.pause request state)) :
    Meets Inv Allowed (ask request) fun _ => True := by
  constructor
  · intro state hstate a last hgives
    cases hgives with
    | paused answer hgives =>
      cases hgives
      exact ⟨trivial, hraise _ hstate⟩
  · intro state hstate o hshows
    cases hshows with
    | pause => exact hpause state hstate
    | later answer hshows => cases hshows

theorem evaluate {e : Expr} {Result : Value → Prop}
    (hok : ∀ state value, Inv state → e.eval state.store = .ok value → Result value)
    (herror : ∀ state error, Inv state → e.eval state.store = .error error →
      Allowed (.failure error state)) : Meets Inv Allowed (evaluate e) Result := by
  constructor
  · intro state hstate value last hgives
    change (Exec.ofExcept (e.eval state.store) state).Gives value last at hgives
    cases heval : e.eval state.store with
    | error error =>
      rw [heval] at hgives
      cases hgives
    | ok found =>
      rw [heval] at hgives
      cases hgives
      exact ⟨hok state _ hstate heval, hstate⟩
  · intro state hstate o hshows
    change (Exec.ofExcept (e.eval state.store) state).Shows o at hshows
    cases heval : e.eval state.store with
    | error error =>
      rw [heval] at hshows
      cases hshows
      exact herror state error hstate heval
    | ok value =>
      rw [heval] at hshows
      cases hshows

theorem assign {target : Identifier} {value : Value}
    (hok : ∀ state store, Inv state → state.store.assign target.name value = .ok store →
      Inv { state with store })
    (herror : ∀ state fault, Inv state → state.store.assign target.name value = .error fault →
      Allowed (.failure ⟨fault, target.position⟩ state)) :
    Meets Inv Allowed (assign target value) fun _ => True := by
  constructor
  · intro state hstate _ last hgives
    change ((Exec.ofExcept (RuntimeError.locate target.position
      (state.store.assign target.name value)) state).andThen Exec.setStore).Gives () last at hgives
    cases hassign : state.store.assign target.name value with
    | error fault =>
      rw [hassign] at hgives
      cases hgives
    | ok store =>
      rw [hassign] at hgives
      cases hgives
      exact ⟨trivial, hok state store hstate hassign⟩
  · intro state hstate o hshows
    change ((Exec.ofExcept (RuntimeError.locate target.position
      (state.store.assign target.name value)) state).andThen Exec.setStore).Shows o at hshows
    cases hassign : state.store.assign target.name value with
    | error fault =>
      rw [hassign] at hshows
      cases hshows
      exact herror state fault hstate hassign
    | ok store =>
      rw [hassign] at hshows
      cases hshows

/-- Where every failure is allowed, so is every evaluation. -/
theorem evaluate_of_failure (h : ∀ state error, Inv state → Allowed (.failure error state))
    (e : Expr) : Meets Inv Allowed (Exec.evaluate e) fun _ => True :=
  .evaluate (fun _ _ _ _ => trivial) fun state error hstate _ => h state error hstate

theorem holds {condition : Expr} (h : Meets Inv Allowed (Exec.evaluate condition) fun _ => True) :
    Meets Inv Allowed (holds condition) fun _ => True :=
  h.bind fun _ _ => pure trivial

theorem textOfAll {values : List Expr}
    (h : ∀ e ∈ values, Meets Inv Allowed (Exec.evaluate e) fun _ => True) :
    Meets Inv Allowed (textOfAll values) fun _ => True := by
  induction values with
  | nil => exact pure trivial
  | cons value rest ih =>
    rw [List.forall_mem_cons] at h
    exact h.1.bind fun _ _ => (ih h.2).bind fun _ _ => pure trivial

end Meets

/-- An invariant of all that an action gives and shows holds at the end of every conducted run. -/
theorem Meets.state_conduct {action : Exec α} (h : Meets Inv (fun o => Inv o.state) action Result)
    {σ γ : Type} (console : Console σ) (adviser : Adviser γ) (state : State) (hstate : Inv state)
    (s : σ) (g : γ) : Inv ((action state).conduct console adviser s g).state := by
  have hend := Run.conduct_outcome console adviser (action state) s g
  split at hend
  · exact (h.gives hstate hend).2
  · exact h.shows hstate hend
  · exact h.shows hstate hend

namespace TolerantAt

variable {p : Position} {Outside : RuntimeFault → Prop} (h : TolerantAt Inv Allowed p Outside)

include h

theorem fail {fault : RuntimeFault} (hfault : Outside fault) :
    Meets Inv Allowed (fail fault p : Exec α) Result := by
  constructor
  · intro state hstate a last hgives
    cases hgives
  · intro state hstate o hshows
    cases hshows
    exact h.failure hstate hfault

theorem ask {request : Request} (hrequest : request.isConsult = false) :
    Meets Inv Allowed (ask request) fun _ => True :=
  .ask h.raise fun _ => h.pause hrequest

theorem note (n : Note) : Meets Inv Allowed (note n) fun _ => True :=
  h.ask rfl

theorem checkInterrupt (haborted : Outside .aborted) :
    Meets Inv Allowed (checkInterrupt p) fun _ => True :=
  Meets.state.bind fun _ _ => .ite ((h.note _).bind fun _ _ => h.fail haborted) (.pure trivial)

theorem orFail (hio : ∀ details, Outside (.io details)) (result : Except String α) :
    Meets Inv Allowed (orFail p result) fun _ => True := by
  cases result with
  | ok a => exact .pure trivial
  | error details => exact h.fail (hio details)

theorem writeLine (hio : ∀ details, Outside (.io details)) (line : String) :
    Meets Inv Allowed (writeLine line p) fun _ => True :=
  (h.ask rfl).bind fun result _ => h.orFail hio result

theorem warn (hio : ∀ details, Outside (.io details)) (message : String) :
    Meets Inv Allowed (warn message p) fun _ => True :=
  (h.ask rfl).bind fun result _ => h.orFail hio result

theorem readLine (haborted : Outside .aborted) (hio : ∀ details, Outside (.io details))
    (prompt : String) : Meets Inv Allowed (readLine prompt p) fun _ => True :=
  (h.ask rfl).bind fun result _ => (h.orFail hio result).bind fun _ _ =>
    (h.checkInterrupt haborted).bind fun _ _ => .pure trivial

theorem fallback (hio : ∀ details, Outside (.io details))
    (hinput : ∀ name defect, Outside (.invalidInput name defect)) (policy : Policy)
    (target : Identifier) (defect : InputDefect) :
    Meets Inv Allowed (fallback policy target defect p) fun _ => True := by
  unfold Exec.fallback
  cases policy.inputFallback with
  | substitute value => exact (h.warn hio _).bind fun _ _ => .pure trivial
  | fail => exact h.fail (hinput _ _)

theorem inputValue (hio : ∀ details, Outside (.io details))
    (hinput : ∀ name defect, Outside (.invalidInput name defect)) (policy : Policy)
    (target : Identifier) (line : Option String) :
    Meets Inv Allowed (inputValue policy target p line) fun _ => True := by
  cases line with
  | none => exact h.fallback hio hinput policy target _
  | some line =>
    simp only [Exec.inputValue]
    cases Integer.ofText? (Text.trim line) with
    | some value => exact .pure trivial
    | none => exact h.fallback hio hinput policy target _

theorem readTarget (haborted : Outside .aborted) (hio : ∀ details, Outside (.io details))
    (hinput : ∀ name defect, Outside (.invalidInput name defect)) (policy : Policy)
    {target : Identifier}
    (hassign : ∀ n, Meets Inv Allowed (assign target (.int n)) fun _ => True) :
    Meets Inv Allowed (readTarget policy p target) fun _ => True :=
  (h.readLine haborted hio _).bind fun line _ =>
    (h.inputValue hio hinput policy target line).bind fun n _ => hassign n

theorem readTargets (haborted : Outside .aborted) (hio : ∀ details, Outside (.io details))
    (hinput : ∀ name defect, Outside (.invalidInput name defect)) (policy : Policy)
    {targets : List Identifier}
    (hassign : ∀ target ∈ targets, ∀ n,
      Meets Inv Allowed (assign target (.int n)) fun _ => True) :
    Meets Inv Allowed (readTargets policy p targets) fun _ => True := by
  induction targets with
  | nil => exact .pure trivial
  | cons target rest ih =>
    rw [List.forall_mem_cons] at hassign
    exact (h.readTarget haborted hio hinput policy hassign.1).bind fun _ _ => ih hassign.2

end TolerantAt

namespace PermissiveAt

variable {p : Position} {Outside : RuntimeFault → Prop} (h : PermissiveAt Inv Allowed p Outside)

include h

theorem confirm (haborted : Outside .aborted) (hio : ∀ details, Outside (.io details))
    (policy : Policy) (iterations : Nat) :
    Meets Inv Allowed (confirm policy p iterations) fun _ => True := by
  unfold Exec.confirm
  cases policy.loopGuard with
  | proceed | abort => exact .pure trivial
  | consult => exact .ask h.raise fun _ => h.consult iterations
  | prompt => exact (h.readLine haborted hio _).bind fun _ _ => .pure trivial

theorem guardLoop (haborted : Outside .aborted) (hio : ∀ details, Outside (.io details))
    (hstopped : ∀ n, Outside (.loopStopped n)) (policy : Policy) (iterations : Nat) :
    Meets Inv Allowed (guardLoop policy p iterations) fun _ => True :=
  .ite ((h.confirm haborted hio policy iterations).bind fun _ _ =>
    .ite ((h.note _).bind fun _ _ => h.fail (hstopped _)) (.pure trivial)) (.pure trivial)

/-- A loop meets what its condition and its body meet. The induction is on the fuel of the loop. -/
theorem loop (hexhaustion : ∀ state, Inv state → Allowed (.exhaustion state))
    (haborted : Outside .aborted) (hio : ∀ details, Outside (.io details))
    (hstopped : ∀ n, Outside (.loopStopped n)) (policy : Policy)
    {condition : Exec Bool} {body : Exec Unit}
    (hcondition : Meets Inv Allowed condition fun _ => True)
    (hbody : Meets Inv Allowed body fun _ => True) (fuel done : Nat) :
    Meets Inv Allowed (loop policy p condition body fuel done) fun _ => True := by
  induction fuel generalizing done with
  | zero =>
    constructor
    · intro state hstate _ last hgives
      cases hgives
    · intro state hstate o hshows
      cases hshows
      exact hexhaustion state hstate
  | succ fuel ih =>
    exact hcondition.bind fun _ _ => .ite
      (hbody.bind fun _ _ => (h.guardLoop haborted hio hstopped policy _).bind fun _ _ =>
        ih (done + 1)) (h.note _)

end PermissiveAt

namespace Tolerant

variable (h : Tolerant Inv Allowed)

include h

theorem ask {request : Request} (hrequest : request.isConsult = false) :
    Meets Inv Allowed (ask request) fun _ => True :=
  .ask h.raise fun _ => h.pause hrequest

theorem note (n : Note) : Meets Inv Allowed (note n) fun _ => True :=
  h.ask rfl

theorem checkInterrupt (p : Position) :
    Meets Inv Allowed (checkInterrupt p) fun _ => True :=
  (h.atPlace p).checkInterrupt rfl

theorem writeLine (line : String) (p : Position) :
    Meets Inv Allowed (writeLine line p) fun _ => True :=
  (h.atPlace p).writeLine (fun _ => rfl) line

theorem readTarget (policy : Policy) (p : Position) {target : Identifier}
    (hassign : ∀ n, Meets Inv Allowed (assign target (.int n)) fun _ => True) :
    Meets Inv Allowed (readTarget policy p target) fun _ => True :=
  (h.atPlace p).readTarget rfl (fun _ => rfl) (fun _ _ => rfl) policy hassign

theorem readTargets (policy : Policy) (p : Position) {targets : List Identifier}
    (hassign : ∀ target ∈ targets, ∀ n,
      Meets Inv Allowed (assign target (.int n)) fun _ => True) :
    Meets Inv Allowed (readTargets policy p targets) fun _ => True :=
  (h.atPlace p).readTargets rfl (fun _ => rfl) (fun _ _ => rfl) policy hassign

end Tolerant

namespace Permissive

variable (h : Permissive Inv Allowed)

include h

theorem guardLoop (policy : Policy) (p : Position) (iterations : Nat) :
    Meets Inv Allowed (guardLoop policy p iterations) fun _ => True :=
  (h.atPlace p).guardLoop rfl (fun _ => rfl) (fun _ => rfl) policy iterations

theorem loop (hexhaustion : ∀ state, Inv state → Allowed (.exhaustion state)) (policy : Policy)
    (p : Position) {condition : Exec Bool} {body : Exec Unit}
    (hcondition : Meets Inv Allowed condition fun _ => True)
    (hbody : Meets Inv Allowed body fun _ => True) (fuel done : Nat) :
    Meets Inv Allowed (loop policy p condition body fuel done) fun _ => True :=
  (h.atPlace p).loop hexhaustion rfl (fun _ => rfl) (fun _ => rfl) policy hcondition hbody fuel done

end Permissive

end Exec

end TinyPascal
