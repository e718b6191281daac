import TinyPascal.CommandLine.Report
import TinyPascal.Console.Scripted
import TinyPascal.Proofs.Console.Lines

/-!
# Consoles that cannot be told apart

A run sees nothing of its console but the answers. Two consoles that answer alike as long as their
states are related, and keep them related, conduct every run alike: with the same calls and answers,
to the same end. The standard console and a script with the lines of the standard input are such
consoles, since the one takes a line from its input whenever the other takes one from its list.
-/
namespace TinyPascal

variable {α σ τ γ : Type} {left : Console σ} {right : Console τ} {Related : σ → τ → Prop} {s : σ}
  {t : τ}

/-- `left.Mirrors right Related`: from related states the two consoles give the same answer to every
call, and go to related states. -/
structure Console.Mirrors (left : Console σ) (right : Console τ) (Related : σ → τ → Prop) :
    Prop where
  readLine : ∀ prompt s t, Related s t →
    (left.readLine prompt s).1 = (right.readLine prompt t).1 ∧
      Related (left.readLine prompt s).2 (right.readLine prompt t).2
  writeLine : ∀ line s t, Related s t →
    (left.writeLine line s).1 = (right.writeLine line t).1 ∧
      Related (left.writeLine line s).2 (right.writeLine line t).2
  warn : ∀ message s t, Related s t →
    (left.warn message s).1 = (right.warn message t).1 ∧
      Related (left.warn message s).2 (right.warn message t).2

/-- Two conducted runs with the same moments and the same end, and related consoles. -/
structure Conducted.Mirrors (Related : σ → τ → Prop) (c : Conducted α σ γ) (d : Conducted α τ γ) :
    Prop where
  moments : c.moments = d.moments
  outcome : c.outcome = d.outcome
  state : c.state = d.state
  adviser : c.adviser = d.adviser
  console : Related c.console d.console

theorem Request.answered_of_mirrors (h : left.Mirrors right Related) (adviser : Adviser γ)
    (request : Request) (hs : Related s t) (g : γ) :
    (request.answered left adviser s g).1 = (request.answered right adviser t g).1 ∧
      Related (request.answered left adviser s g).2.1 (request.answered right adviser t g).2.1 ∧
      (request.answered left adviser s g).2.2 = (request.answered right adviser t g).2.2 := by
  cases request with
  | readLine prompt =>
    obtain ⟨hanswer, hnext⟩ := h.readLine prompt s t hs
    exact ⟨hanswer, hnext, rfl⟩
  | writeLine line =>
    obtain ⟨hanswer, hnext⟩ := h.writeLine line s t hs
    exact ⟨hanswer, hnext, rfl⟩
  | warn message =>
    obtain ⟨hanswer, hnext⟩ := h.warn message s t hs
    exact ⟨hanswer, hnext, rfl⟩
  | consult | note => exact ⟨rfl, hs, rfl⟩

/-- Consoles that mirror each other conduct every run alike. -/
theorem Run.conduct_mirrors (h : left.Mirrors right Related) (adviser : Adviser γ) (run : Run α)
    (hs : Related s t) (g : γ) :
    (run.conduct left adviser s g).Mirrors Related (run.conduct right adviser t g) := by
  induction run generalizing s t g with
  | ended outcome state => exact ⟨rfl, rfl, rfl, rfl, hs⟩
  | paused request state resume ih =>
    obtain ⟨hanswer, hnext, hadviser⟩ := request.answered_of_mirrors h adviser hs g
    rw [conduct_paused, conduct_paused]
    dsimp only
    rw [hanswer, hadviser]
    have hrest := ih (request.answered right adviser t g).1 hnext
      (request.answered right adviser t g).2.2
    exact ⟨congrArg (_ :: ·) hrest.moments, hrest.outcome, hrest.state, hrest.adviser,
      hrest.console⟩

namespace Request

def prompts : Request → List String
  | readLine prompt => [prompt]
  | _ => []

def lines : Request → List String
  | writeLine line => [line]
  | _ => []

def warnings : Request → List String
  | warn message => [message]
  | _ => []

/-- What a request shows on the standard output: a prompt as it is, and a written line with a line
feed after it. -/
def shown : Request → String
  | readLine prompt => prompt
  | writeLine line => line ++ "\n"
  | warn _ | consult _ | note _ => ""

end Request

/-- `script.Keeps requests after`: of the requests that lead from one script to the other, the
second keeps the prompts, the written lines and the warnings, in their order. -/
structure Script.Keeps (script : Script) (requests : List Request) (after : Script) : Prop where
  prompts : after.prompts.toList = script.prompts.toList ++ requests.flatMap Request.prompts
  output : after.output.toList = script.output.toList ++ requests.flatMap Request.lines
  warnings : after.warnings.toList = script.warnings.toList ++ requests.flatMap Request.warnings

namespace Script

theorem Keeps.cons {script next after : Script} {request : Request} {requests : List Request}
    (hstep : script.Keeps [request] next) (hrest : next.Keeps requests after) :
    script.Keeps (request :: requests) after where
  prompts := by simp [hrest.prompts, hstep.prompts]
  output := by simp [hrest.output, hstep.output]
  warnings := by simp [hrest.warnings, hstep.warnings]

theorem keeps_answered (adviser : Adviser γ) (script : Script) (request : Request) (g : γ) :
    script.Keeps [request] (request.answered console adviser script g).2.1 := by
  cases request <;>
    constructor <;>
    simp [Request.answered, console, readLine, writeLine, warn, Request.prompts, Request.lines,
      Request.warnings]

theorem keeps_conduct (adviser : Adviser γ) (run : Run α) (script : Script) (g : γ) :
    script.Keeps ((run.conduct console adviser script g).moments.map Moment.request)
      (run.conduct console adviser script g).console := by
  induction run generalizing script g with
  | ended outcome state => constructor <;> simp
  | paused request state resume ih =>
    rw [Run.conduct_paused]
    exact (keeps_answered adviser script request g).cons (ih _ _ _)

end Script

/-- What a request puts out as the command line conducts a run. -/
def Request.outputs (verbose : Bool) : Request → List Output
  | readLine prompt => [.stdout prompt]
  | writeLine line => [.stdout (line ++ "\n")]
  | warn message => [.stderr ("Warning: " ++ message ++ "\n")]
  | consult _ => []
  | note n => n.logLine.outputs verbose

def Moment.outputs (verbose : Bool) (moment : Moment) : List Output :=
  moment.request.outputs verbose

@[simp]
theorem LogLine.stdoutText_outputs (verbose : Bool) (line : LogLine) :
    Output.stdoutText (line.outputs verbose) = "" := by
  unfold LogLine.outputs
  split <;> rfl

theorem Request.stdoutText_outputs (verbose : Bool) (request : Request) :
    Output.stdoutText (request.outputs verbose) = request.shown := by
  cases request with
  | note note => exact note.logLine.stdoutText_outputs verbose
  | readLine | writeLine | warn | consult =>
    simp [Request.outputs, Request.shown, Output.stdoutText]

theorem Moment.stdoutText_outputs (verbose : Bool) (moments : List Moment) :
    Output.stdoutText (moments.flatMap (Moment.outputs verbose)) =
      String.join (moments.map fun moment => moment.request.shown) := by
  induction moments with
  | nil => rfl
  | cons moment moments ih =>
    rw [List.flatMap_cons, Output.stdoutText_append, ih, List.map_cons, String.join_cons,
      Moment.outputs, Request.stdoutText_outputs]

namespace StandardInput

/-- The standard input and the script have the same lines to hand over. -/
def Hands (input : StandardInput) (script : Script) : Prop :=
  input.lines.map (Except.map chomp) = script.input.map Except.ok

theorem Hands.readLine {input : StandardInput} {script : Script} (h : input.Hands script)
    (prompt : String) : input.readLine.1 = .ok (script.readLine prompt).1 ∧
      input.readLine.2.Hands (script.readLine prompt).2 := by
  obtain ⟨lines⟩ := input
  obtain ⟨texts, output, warnings, prompts⟩ := script
  cases lines with
  | nil =>
    obtain rfl : texts = [] := by simpa [Hands] using h.symm
    exact ⟨rfl, h⟩
  | cons line rest =>
    cases texts with
    | nil => simp [Hands] at h
    | cons text more =>
      obtain ⟨hline, hrest⟩ := List.cons_eq_cons.mp h
      refine ⟨?_, hrest⟩
      cases line with
      | error fault => cases hline
      | ok line =>
        have htext : chomp line = text := Except.ok.inj hline
        simp [StandardInput.readLine, Script.readLine, Except.map, htext]

theorem hands_ofBytes {text : String} {input : List String} (h : IsInput text input) :
    (ofBytes text.toUTF8).Hands { input } := by
  obtain rfl := isInput_iff.mp h
  rw [ofBytes_toUTF8]
  simp [Hands, ofText, Except.map]

end StandardInput

namespace Terminal

theorem mirrors_script :
    console.Mirrors Script.console fun terminal script => terminal.input.Hands script where
  readLine prompt terminal script h := by
    obtain ⟨hline, hrest⟩ := h.readLine prompt
    exact ⟨congrArg (fun result => ({ result } : Answer _)) hline, hrest⟩
  writeLine _ _ _ h := ⟨rfl, h⟩
  warn _ _ _ h := ⟨rfl, h⟩

theorem stdoutText_put (terminal : Terminal) (outputs : List Output) :
    Output.stdoutText (terminal.outputs ++ outputs.toArray).toList =
      Output.stdoutText terminal.outputs.toList ++ Output.stdoutText outputs := by
  rw [Array.toList_append, Output.stdoutText_append]

theorem stdoutText_answered (adviser : Adviser γ) (terminal : Terminal) (request : Request)
    (g : γ) :
    Output.stdoutText (request.answered console adviser terminal g).2.1.outputs.toList =
      Output.stdoutText terminal.outputs.toList ++ request.shown := by
  cases request with
  | readLine | writeLine | warn =>
    rw [← Request.stdoutText_outputs false]
    exact terminal.stdoutText_put _
  | consult | note => exact (String.append_empty ..).symm

/-- A terminal puts prompts and written lines on the standard output, in the order of the calls. -/
theorem stdoutText_conduct (adviser : Adviser γ) (run : Run α) (terminal : Terminal) (g : γ) :
    Output.stdoutText (run.conduct console adviser terminal g).console.outputs.toList =
      Output.stdoutText terminal.outputs.toList ++
        String.join ((run.conduct console adviser terminal g).moments.map fun moment =>
          moment.request.shown) := by
  induction run generalizing terminal g with
  | ended outcome state => exact (String.append_empty ..).symm
  | paused request state resume ih =>
    rw [Run.conduct_paused]
    dsimp only
    rw [ih, stdoutText_answered, List.map_cons, String.join_cons, String.append_assoc]

theorem run_answer (verbose : Bool) (request : Request) {terminal other : Terminal}
    (h : terminal.input = other.input) :
    (streams.answer verbose request).run terminal =
      ((request.answered console Adviser.silent other ()).1,
        ⟨(request.answered console Adviser.silent other ()).2.1.input,
          terminal.outputs ++ (request.outputs verbose).toArray⟩) := by
  obtain ⟨input, outputs⟩ := terminal
  obtain ⟨input', outputs'⟩ := other
  obtain rfl : input = input' := h
  cases request with
  | consult iterations =>
    rw [Request.outputs, Array.append_empty]
    rfl
  | readLine | writeLine | warn | note => rfl

/-- The command line conducts a run as a console without an adviser does, and puts out what the
moments of the run put out. What was put out before makes no difference, nor does the log that is
kept meanwhile. -/
theorem run_conduct (verbose : Bool) (run : Run Unit) {terminal other : Terminal}
    (h : terminal.input = other.input) :
    (streams.conduct verbose run).run terminal =
      ((run.conduct console Adviser.silent other ()).outcome,
        ⟨(run.conduct console Adviser.silent other ()).console.input,
          terminal.outputs ++ ((run.conduct console Adviser.silent other ()).moments.flatMap
            (Moment.outputs verbose)).toArray⟩) := by
  induction run generalizing terminal other with
  | ended outcome state =>
    rw [Run.conduct_ended, List.flatMap_nil, Array.append_empty, ← h]
    rfl
  | paused request state resume ih =>
    have hstep : (streams.conduct verbose (.paused request state resume)).run terminal =
        (streams.conduct verbose (resume ((streams.answer verbose request).run terminal).1)).run
          ((streams.answer verbose request).run terminal).2 := rfl
    have houtputs (later : List Output) : terminal.outputs ++ (request.outputs verbose).toArray ++
        later.toArray = terminal.outputs ++ (request.outputs verbose ++ later).toArray := by
      simp
    have hinput : (⟨(request.answered console Adviser.silent other ()).2.1.input,
        terminal.outputs ++ (request.outputs verbose).toArray⟩ : Terminal).input =
          (request.answered console Adviser.silent other ()).2.1.input := rfl
    have hrest := ih (request.answered console Adviser.silent other ()).1 hinput
    rw [houtputs] at hrest
    rw [hstep, run_answer verbose request h, Run.conduct_paused]
    exact hrest

end Terminal

/-- The standard console on a text and a script with the lines of that text conduct every program
alike: the calls, the answers and the end are the same. The script keeps what was shown, and the
standard output holds the prompts and the written lines in the order of the calls. The command line,
which also keeps a log and has nobody to consult, comes to the same end and the same output. -/
theorem StandardInput.conducts_like_script (text : String) :
    ∃ input, (∀ lines, IsInput text lines ↔ lines = input) ∧
      (∀ {γ : Type} (adviser : Adviser γ) (g : γ) (checked : CheckedProgram) (policy : Policy)
        (fuel : ℕ) (interrupted : Bool),
        let run := checked.start policy fuel interrupted
        let standard := run.conduct Terminal.console adviser { input := .ofBytes text.toUTF8 } g
        let scripted := run.conduct Script.console adviser { input } g
        standard.moments = scripted.moments ∧
          standard.outcome = scripted.outcome ∧
          standard.state = scripted.state ∧
          standard.adviser = scripted.adviser ∧
          Script.Keeps { input } (standard.moments.map Moment.request) scripted.console ∧
          Output.stdoutText standard.console.outputs.toList =
            String.join (standard.moments.map fun moment => moment.request.shown)) ∧
      ∀ (checked : CheckedProgram) (policy : Policy) (fuel : ℕ) (interrupted verbose : Bool),
        let run := checked.start policy fuel interrupted
        let performed :=
          (Terminal.streams.conduct verbose run).run { input := .ofBytes text.toUTF8 }
        let scripted := run.conduct Script.console Adviser.silent { input } ()
        performed.1 = scripted.outcome ∧
          Output.stdoutText performed.2.outputs.toList =
            String.join (scripted.moments.map fun moment => moment.request.shown) := by
  obtain ⟨input, hinput⟩ : ∃ input, IsInput text input := ⟨_, isInput_iff.mpr rfl⟩
  have hands : ({ input := .ofBytes text.toUTF8 } : Terminal).input.Hands { input } :=
    hands_ofBytes hinput
  refine ⟨input, fun lines => ?_, ?_, ?_⟩
  · rw [isInput_iff, isInput_iff.mp hinput, eq_comm]
  · intro γ adviser g checked policy fuel interrupted run standard scripted
    have h : standard.Mirrors _ scripted :=
      run.conduct_mirrors Terminal.mirrors_script adviser hands g
    have hkeeps := Script.keeps_conduct adviser run { input } g
    have hstdout := Terminal.stdoutText_conduct adviser run { input := .ofBytes text.toUTF8 } g
    refine ⟨h.moments, h.outcome, h.state, h.adviser, ?_, ?_⟩
    · rwa [h.moments]
    · rw [hstdout]
      exact String.empty_append
  · intro checked policy fuel interrupted verbose run performed scripted
    have h := run.conduct_mirrors Terminal.mirrors_script Adviser.silent hands ()
    have hperformed : performed = _ := Terminal.run_conduct verbose run rfl
    rw [hperformed, Terminal.stdoutText_put, Moment.stdoutText_outputs, h.moments, h.outcome]
    exact ⟨rfl, String.empty_append⟩

end TinyPascal
