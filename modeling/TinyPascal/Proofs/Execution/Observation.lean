import TinyPascal.Console.Basic

/-!
# What a run may show

A run branches at every pause on the answer that it gets. Here all answers are allowed: a run gives
a result if some answers lead to it, and it shows a pause or a failure if some answers lead there.
What is seen of a run that is conducted on a console is among that.
-/
namespace TinyPascal

/-- What can be seen of a run apart from its result. -/
inductive Observation where
  | pause (request : Request) (state : State)
  | failure (error : RuntimeError) (state : State)
  | exhaustion (state : State)

namespace Observation

def state : Observation → State
  | pause _ state | failure _ state | exhaustion state => state

end Observation

namespace Run

variable {α β : Type}

/-- `run.Gives a last`: some answers lead to the result `a` in the state `last`. -/
inductive Gives : Run α → α → State → Prop where
  | ended {a : α} {last : State} : Gives (.ended (.ok a) last) a last
  | paused {request : Request} {state last : State} {resume : Answer request.Result → Run α} {a : α}
      (answer : Answer request.Result) (h : Gives (resume answer) a last) :
      Gives (.paused request state resume) a last

/-- `run.Shows o`: some answers lead to the observation `o`. -/
inductive Shows : Run α → Observation → Prop where
  | pause {request : Request} {state : State} {resume : Answer request.Result → Run α} :
      Shows (.paused request state resume) (.pause request state)
  | later {request : Request} {state : State} {resume : Answer request.Result → Run α}
      {o : Observation} (answer : Answer request.Result) (h : Shows (resume answer) o) :
      Shows (.paused request state resume) o
  | failure {e : RuntimeError} {state : State} :
      Shows (.ended (.error (.error e)) state) (.failure e state)
  | exhaustion {state : State} :
      Shows (.ended (.error .outOfFuel) state) (.exhaustion state)

/-- A result of a sequence is a result of its second part from a result of the first. -/
theorem Gives.of_andThen {run : Run α} {next : α → State → Run β} {b : β} {last : State}
    (h : (run.andThen next).Gives b last) :
    ∃ a state, run.Gives a state ∧ (next a state).Gives b last := by
  induction run with
  | ended outcome state =>
    cases outcome with
    | ok a => exact ⟨a, state, .ended, h⟩
    | error halt => cases h
  | paused request state resume ih =>
    cases h with
    | paused answer h =>
      obtain ⟨a, mid, ha, hb⟩ := ih answer h
      exact ⟨a, mid, .paused answer ha, hb⟩

theorem Gives.andThen {run : Run α} {next : α → State → Run β} {a : α} {b : β}
    {state last : State} (ha : run.Gives a state) (hb : (next a state).Gives b last) :
    (run.andThen next).Gives b last := by
  induction ha with
  | ended => exact hb
  | paused answer _ ih => exact .paused answer (ih hb)

theorem Shows.of_andThen {run : Run α} {next : α → State → Run β} {o : Observation}
    (h : (run.andThen next).Shows o) :
    run.Shows o ∨ ∃ a state, run.Gives a state ∧ (next a state).Shows o := by
  induction run with
  | ended outcome state =>
    cases outcome with
    | ok a => exact .inr ⟨a, state, .ended, h⟩
    | error halt =>
      left
      cases h with
      | failure => exact .failure
      | exhaustion => exact .exhaustion
  | paused request state resume ih =>
    cases h with
    | pause => exact .inl .pause
    | later answer h =>
      rcases ih answer h with h | ⟨a, mid, ha, h⟩
      · exact .inl (.later answer h)
      · exact .inr ⟨a, mid, .paused answer ha, h⟩

theorem Shows.andThen {run : Run α} {o : Observation} (h : run.Shows o)
    (next : α → State → Run β) : (run.andThen next).Shows o := by
  induction h with
  | pause => exact .pause
  | later answer _ ih => exact .later answer ih
  | failure => exact .failure
  | exhaustion => exact .exhaustion

variable {σ γ : Type} (console : Console σ) (adviser : Adviser γ)

/-- How a conducted run ends, as a result or as an observation. -/
theorem conduct_outcome (run : Run α) (s : σ) (g : γ) :
    match (run.conduct console adviser s g).outcome with
    | .ok a => run.Gives a (run.conduct console adviser s g).state
    | .error (.error e) => run.Shows (.failure e (run.conduct console adviser s g).state)
    | .error .outOfFuel => run.Shows (.exhaustion (run.conduct console adviser s g).state) := by
  induction run generalizing s g with
  | ended outcome state =>
    rcases outcome with (e | _) | a
    · exact .failure
    · exact .exhaustion
    · exact .ended
  | paused request state resume ih =>
    rw [conduct_paused]
    have hrest := ih (request.answered console adviser s g).1
      (request.answered console adviser s g).2.1 (request.answered console adviser s g).2.2
    dsimp only
    split at hrest
    · next h => simpa only [h] using Gives.paused _ hrest
    · next h => simpa only [h] using Shows.later _ hrest
    · next h => simpa only [h] using Shows.later _ hrest

/-- Every moment of a conducted run is a pause that the run shows. -/
theorem shows_of_mem_moments {run : Run α} {s : σ} {g : γ} {m : Moment}
    (h : m ∈ (run.conduct console adviser s g).moments) :
    run.Shows (.pause m.request m.state) := by
  induction run generalizing s g with
  | ended outcome state => simp at h
  | paused request state resume ih =>
    rw [conduct_paused] at h
    simp only [List.mem_cons] at h
    rcases h with rfl | h
    · exact .pause
    · exact .later _ (ih _ h)

end Run

end TinyPascal
