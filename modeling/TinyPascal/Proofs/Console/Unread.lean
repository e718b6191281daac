import TinyPascal.Interpreter
import TinyPascal.Proofs.Console.Simulation
import TinyPascal.Proofs.Execution.Guarding

/-!
# Lines that are not read

A run on a script takes one line for every prompt, as long as there are lines, whether the prompt is
that of a read or of a loop guard. So the lines that are left are those after the first ones, as
many as there were prompts. If no prompt went without a line, what follows the lines that were read
can be exchanged: two runs whose scripts begin with these lines go in lockstep, and neither of them
sees what comes after.
-/
namespace TinyPascal

namespace Script

variable {α γ : Type}

def promptCount (requests : List Request) : ℕ :=
  (requests.flatMap Request.prompts).length

theorem promptCount_cons (request : Request) (requests : List Request) :
    promptCount (request :: requests) = request.prompts.length + promptCount requests := by
  simp [promptCount]

/-- A request takes a line if it shows a prompt. -/
theorem input_answered (adviser : Adviser γ) (request : Request) (script : Script) (g : γ) :
    (request.answered console adviser script g).2.1.input =
      script.input.drop request.prompts.length := by
  cases request <;>
    simp [Request.answered, console, readLine, writeLine, warn, Request.prompts]

/-- A run leaves the lines after the first ones, as many as it has shown prompts. -/
theorem input_conduct (adviser : Adviser γ) (run : Run α) (script : Script) (g : γ) :
    (run.conduct console adviser script g).console.input = script.input.drop
      (promptCount ((run.conduct console adviser script g).moments.map Moment.request)) := by
  induction run generalizing script g with
  | ended outcome state => rfl
  | paused request state resume ih =>
    rw [Run.conduct_paused]
    simp only [List.map_cons, promptCount_cons]
    rw [ih, input_answered, List.drop_drop]

def withInput (script : Script) (input : List String) : Script :=
  { script with input }

/-- A request sees only the line that it takes. If there is one for it, the lines after it can be
exchanged. -/
theorem answered_withInput (adviser : Adviser γ) (request : Request) (script : Script) (g : γ)
    (rest : List String) (h : request.prompts.length ≤ script.input.length) :
    request.answered console adviser
        (script.withInput (script.input.take request.prompts.length ++ rest)) g =
      ((request.answered console adviser script g).1,
        (request.answered console adviser script g).2.1.withInput rest,
        (request.answered console adviser script g).2.2) := by
  cases request with
  | readLine prompt =>
    obtain ⟨input, output, warnings, prompts⟩ := script
    cases input with
    | nil => simp [Request.prompts] at h
    | cons line lines => rfl
  | writeLine | warn | consult | note => rfl

/-- A run in which every prompt is answered by a line does not depend on the lines after these. The
lines that the two scripts share are used up one by one. -/
theorem conduct_withInput (adviser : Adviser γ) (run : Run α) (script : Script) (g : γ)
    (rest : List String) {count : ℕ}
    (hcount : promptCount ((run.conduct console adviser script g).moments.map Moment.request) =
      count) (h : count ≤ script.input.length) :
    run.conduct console adviser (script.withInput (script.input.take count ++ rest)) g =
      { run.conduct console adviser script g with
        console := (run.conduct console adviser script g).console.withInput rest } := by
  induction run generalizing script g count with
  | ended outcome state =>
    obtain rfl : count = 0 := hcount.symm
    rfl
  | paused request state resume ih =>
    have hlines := input_answered adviser request script g
    have hlength := congrArg List.length hlines
    rw [List.length_drop] at hlength
    rw [Run.conduct_paused] at hcount
    simp only [List.map_cons, promptCount_cons] at hcount
    generalize hlater : promptCount _ = later at hcount
    subst hcount
    rw [List.take_add, List.append_assoc, Run.conduct_paused, Run.conduct_paused,
      answered_withInput adviser request script g _ (by omega), ← hlines]
    dsimp only
    rw [ih _ _ _ hlater (hlength ▸ Nat.le_sub_of_add_le' h)]

/-- What comes of running a source text on a script: the result, and the script after it. A source
that does not compile leaves the script as it is, and nothing comes of a run that is out of fuel. -/
def settled? (script : Script) :
    Except Diagnostic (Conducted Unit Script γ) → Option (Except Diagnostic Unit × Script)
  | .error d => some (.error d, script)
  | .ok conducted =>
    match conducted.outcome with
    | .ok () => some (.ok (), conducted.console)
    | .error (.error e) => some (.error (.runtime e), conducted.console)
    | .error .outOfFuel => none

/-- `script.EndsAs adviser g policy interrupted source result last`: with some fuel, and so with any
more, to run the source on the script comes to `result` and leaves the script as `last`. -/
def EndsAs (script : Script) (adviser : Adviser γ) (g : γ) (policy : Policy) (interrupted : Bool)
    (source : String) (result : Except Diagnostic Unit) (last : Script) : Prop :=
  ∃ fuel, script.settled?
    (run console adviser policy fuel interrupted source script g) = some (result, last)

end Script

/-- With more fuel, the run of a program that is not out of fuel is the same. -/
theorem CheckedProgram.conduct_start_of_le {σ γ : Type} {console : Console σ} {adviser : Adviser γ}
    {policy : Policy} {interrupted : Bool} {checked : CheckedProgram} {fuel more : ℕ} {s : σ}
    {g : γ} (hle : fuel ≤ more)
    (h : ((checked.start policy fuel interrupted).conduct console adviser s g).outcome ≠
      .error .outOfFuel) :
    (checked.start policy more interrupted).conduct console adviser s g =
      (checked.start policy fuel interrupted).conduct console adviser s g := by
  have hcuts := checked.cuts (policy.cuts_refl (· = .outOfFuel)) hle (fun _ => rfl)
    ⟨∅, interrupted⟩
  apply hcuts.conduct_eq
  rintro cause houtcome rfl
  exact h houtcome

namespace Script

variable {γ : Type} {adviser : Adviser γ} {g : γ} {policy : Policy} {interrupted : Bool}
  {source : String} {result : Except Diagnostic Unit} {script last : Script}

theorem settled?_run_of_le {fuel more : ℕ} (hle : fuel ≤ more)
    (h : script.settled? (run console adviser policy fuel interrupted source script g) =
      some (result, last)) :
    script.settled? (run console adviser policy more interrupted source script g) =
      some (result, last) := by
  unfold run at h ⊢
  cases hcompile : compile source with
  | error d =>
    rw [hcompile] at h
    exact h
  | ok checked =>
    rw [hcompile] at h
    have hfuel : ((checked.start policy fuel interrupted).conduct console adviser script g).outcome
        ≠ .error .outOfFuel := by
      intro houtcome
      simp [settled?, houtcome] at h
    simpa only [CheckedProgram.conduct_start_of_le hle hfuel] using h

/-- A source ends on a script in one way. -/
theorem EndsAs.unique {result' : Except Diagnostic Unit} {last' : Script}
    (h : script.EndsAs adviser g policy interrupted source result last)
    (h' : script.EndsAs adviser g policy interrupted source result' last') :
    result' = result ∧ last' = last := by
  obtain ⟨fuel, hfuel⟩ := h
  obtain ⟨fuel', hfuel'⟩ := h'
  have hmore := settled?_run_of_le (le_max_left fuel fuel') hfuel
  have hmore' := settled?_run_of_le (le_max_right fuel fuel') hfuel'
  rw [hmore] at hmore'
  simpa [eq_comm] using hmore'

/-- The prompts that a script keeps are those of the run. -/
theorem size_prompts_conduct (adviser : Adviser γ) {α : Type} (run : Run α) (xs : List String)
    (g : γ) : (run.conduct console adviser { input := xs } g).console.prompts.size =
      promptCount ((run.conduct console adviser { input := xs } g).moments.map Moment.request) := by
  have hkeeps := (keeps_conduct adviser run { input := xs } g).prompts
  rw [← Array.length_toList, hkeeps]
  simp [promptCount]

theorem console_eq_of_settled? {conducted : Conducted Unit Script γ}
    (h : script.settled? (.ok conducted) = some (result, last)) : conducted.console = last := by
  rcases houtcome : conducted.outcome with (e | _) | _ <;> simp_all [settled?]

theorem settled?_map_console {conducted : Conducted Unit Script γ}
    (h : script.settled? (.ok conducted) = some (result, last)) (start : Script)
    (f : Script → Script) :
    start.settled? (.ok { conducted with console := f conducted.console }) =
      some (result, f last) := by
  rcases houtcome : conducted.outcome with (e | _) | _ <;> simp_all [settled?]

theorem EndsAs.input_eq {xs : List String}
    (h : EndsAs { input := xs } adviser g policy interrupted source result last) :
    last.input = xs.drop last.prompts.size := by
  obtain ⟨fuel, h⟩ := h
  unfold run at h
  cases hcompile : compile source with
  | error d =>
    simp only [hcompile, settled?, Option.some.injEq, Prod.mk.injEq] at h
    obtain ⟨-, rfl⟩ := h
    rfl
  | ok checked =>
    rw [hcompile] at h
    rw [← console_eq_of_settled? h, size_prompts_conduct, input_conduct]

/-- What follows the lines that were read can be exchanged. -/
theorem EndsAs.exchange {xs : List String}
    (h : EndsAs { input := xs } adviser g policy interrupted source result last)
    (hle : last.prompts.size ≤ xs.length) (ys : List String) :
    EndsAs { input := xs.take last.prompts.size ++ ys } adviser g policy interrupted source result
      (last.withInput ys) := by
  obtain ⟨fuel, h⟩ := h
  refine ⟨fuel, ?_⟩
  unfold run at h ⊢
  cases hcompile : compile source with
  | error d =>
    simp only [hcompile, settled?, Option.some.injEq, Prod.mk.injEq] at h ⊢
    obtain ⟨rfl, rfl⟩ := h
    exact ⟨rfl, rfl⟩
  | ok checked =>
    rw [hcompile] at h
    have hcount := size_prompts_conduct adviser (checked.start policy fuel interrupted) xs g
    rw [console_eq_of_settled? h] at hcount
    have hlockstep := conduct_withInput adviser (checked.start policy fuel interrupted)
      { input := xs } g ys hcount.symm hle
    rw [withInput] at hlockstep
    dsimp only
    rw [hlockstep]
    exact settled?_map_console h _ fun script => script.withInput ys

/-- Lines that are not read have no influence, and no line is lost. If a source ends on a script,
the lines that are left are those after the first ones, as many as there were prompts or all of
them. If no prompt went without a line, then the source, run on a script with the lines that were
read and any others after them, ends with the same result, output, warnings and prompts and leaves
exactly these others. -/
theorem unread_lines_have_no_influence {γ : Type} (adviser : Adviser γ) (g : γ) (policy : Policy)
    (interrupted : Bool) (source : String) (xs : List String) (result : Except Diagnostic Unit)
    (last : Script) (h : EndsAs { input := xs } adviser g policy interrupted source result last) :
    last.input = xs.drop (min last.prompts.size xs.length) ∧
    (last.prompts.size ≤ xs.length → ∀ ys result' last',
      EndsAs { input := xs.take last.prompts.size ++ ys } adviser g policy interrupted source
          result' last' ↔
        result' = result ∧ last'.output = last.output ∧ last'.warnings = last.warnings ∧
          last'.prompts = last.prompts ∧ last'.input = ys) := by
  constructor
  · rw [h.input_eq]
    rcases Nat.le_total last.prompts.size xs.length with hle | hle
    · rw [min_eq_left hle]
    · rw [min_eq_right hle, List.drop_length, List.drop_eq_nil_of_le hle]
  · intro hle ys result' last'
    have hother := h.exchange hle ys
    constructor
    · intro h'
      obtain ⟨rfl, rfl⟩ := hother.unique h'
      exact ⟨rfl, rfl, rfl, rfl, rfl⟩
    · rintro ⟨rfl, houtput, hwarnings, hprompts, rfl⟩
      have heq : last' = last.withInput last'.input := by
        obtain ⟨input, output, warnings, prompts⟩ := last'
        simp_all [withInput]
      rw [heq]
      exact hother

def descent : String :=
  "program p; var x : integer; begin read(x); while x > 0 do x := x - 1; write(x) end."

/-- One line for the read and one for the guard of the loop. The two lines after them are left, and
another line can stand in their place. -/
theorem unread_lines_have_no_influence_descent :
    let policy : Policy := ⟨some 2, .prompt, .fail⟩
    let prompts := #["Enter a value for x: ", "Loop executed 2 times. Continue? (y/n): "]
    EndsAs { input := ["3", "y", "7", "8"] } .silent () policy false descent (.ok ())
        ⟨["7", "8"], #["0"], #[], prompts⟩ ∧
      EndsAs { input := ["3", "y", "n"] } .silent () policy false descent (.ok ())
        ⟨["n"], #["0"], #[], prompts⟩ := by
  intro policy prompts
  have h : EndsAs { input := ["3", "y", "7", "8"] } .silent () policy false descent (.ok ())
      ⟨["7", "8"], #["0"], #[], prompts⟩ := ⟨4, by decide +kernel⟩
  exact ⟨h, ((unread_lines_have_no_influence _ _ _ _ _ _ _ _ h).2 (by decide) ["n"] _ _).2
    ⟨rfl, rfl, rfl, rfl, rfl⟩⟩

end Script

end TinyPascal
