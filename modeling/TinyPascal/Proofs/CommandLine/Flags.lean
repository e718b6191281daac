import TinyPascal.CommandLine.Report
import TinyPascal.Proofs.Console.Simulation
import TinyPascal.Proofs.Execution.Termination

/-!
# The command line and its flags

The command line compiles a source file and, if asked to, runs it on the standard console. Its
status and the end of the standard error say what compiling and running came to. The two flags about
what is shown meanwhile do nothing else: the one adds lines to the log, the other puts the outline
of the program before all else on the standard output.
-/
namespace TinyPascal

/-- `Output.Detailed terse full`: the second list is the first with debugging and information lines
of the log put in. -/
inductive Output.Detailed : List Output → List Output → Prop
  | nil : Detailed [] []
  | same (output : Output) {terse full : List Output} (h : Detailed terse full) :
      Detailed (output :: terse) (output :: full)
  | line (level : LogLevel) (text : String) {terse full : List Output}
      (hlevel : level = .debug ∨ level = .info) (h : Detailed terse full) :
      Detailed terse (.stderr (level.column ++ " " ++ text ++ "\n") :: full)

namespace Output

theorem Detailed.refl (outputs : List Output) : Detailed outputs outputs := by
  induction outputs with
  | nil => exact .nil
  | cons output outputs ih => exact .same output ih

theorem Detailed.append {terse full terse' full' : List Output} (h : Detailed terse full)
    (h' : Detailed terse' full') : Detailed (terse ++ terse') (full ++ full') := by
  induction h with
  | nil => exact h'
  | same output _ ih => exact .same output ih
  | line level text hlevel _ ih => exact .line level text hlevel ih

theorem Detailed.stdoutText_eq {terse full : List Output} (h : Detailed terse full) :
    stdoutText full = stdoutText terse := by
  induction h with
  | nil => rfl
  | same output _ ih =>
    rw [← List.singleton_append, stdoutText_append, ih, ← stdoutText_append, List.singleton_append]
  | line level text _ _ ih => simpa [stdoutText] using ih

end Output

open Output (Detailed)

theorem LogLine.detailed_outputs (line : LogLine) :
    Detailed (line.outputs false) (line.outputs true) := by
  obtain ⟨level, text⟩ := line
  cases level with
  | debug => exact .line .debug text (.inl rfl) .nil
  | info => exact .line .info text (.inr rfl) .nil
  | warn => exact .refl _

theorem Request.detailed_outputs (request : Request) :
    Detailed (request.outputs false) (request.outputs true) := by
  cases request with
  | note note => exact note.logLine.detailed_outputs
  | readLine | writeLine | warn | consult => exact .refl _

theorem Moment.detailed_outputs (moments : List Moment) :
    Detailed (moments.flatMap (Moment.outputs false)) (moments.flatMap (Moment.outputs true)) := by
  induction moments with
  | nil => exact .nil
  | cons moment moments ih => exact moment.request.detailed_outputs.append ih

namespace Options

theorem snd_compile (options : Options) (source : String) :
    (options.compile source).2 = TinyPascal.compile source := by
  unfold Options.compile TinyPascal.compile parseSource
  cases tokenize source with
  | error e => rfl
  | ok tokens =>
    dsimp only
    cases parse tokens with
    | error e => rfl
    | ok program =>
      dsimp only [check]
      cases CheckedProgram.ofAnalysis program (analyze program) <;> rfl

def report (options : Options) (fuel : ℕ) (input : StandardInput) (source : String) : Report :=
  let performed := (options.perform (Terminal.surroundings fun _ => .ok source) fuel).run { input }
  ⟨performed.1, performed.2.outputs.toList⟩

section

variable (options : Options) (fuel : ℕ) (input : StandardInput) {source : String}

theorem report_eq (source : String) :
    let performed := (options.proceed Terminal.streams fuel (TinyPascal.compile source)).run
      ⟨input, (options.compile source).1.toArray⟩
    options.report fuel input source = ⟨performed.1, performed.2.outputs.toList⟩ := by
  have hstart : (options.compile source).1.toArray = #[] ++ (options.compile source).1.toArray :=
    Array.empty_append.symm
  rw [← options.snd_compile, hstart]
  rfl

theorem report_of_error {d : Diagnostic} (h : TinyPascal.compile source = .error d) :
    options.report fuel input source =
      ⟨1, (options.compile source).1 ++ [.stderr (d.message ++ "\n")]⟩ := by
  rw [report_eq, h]
  exact congrArg (Report.mk 1) Array.toList_append

theorem report_of_compiled {checked : CheckedProgram}
    (h : TinyPascal.compile source = .ok checked) (hexecute : options.execute = false) :
    options.report fuel input source =
      ⟨0, (options.compile source).1 ++ options.compiled.outputs⟩ := by
  rw [report_eq, h, proceed, if_neg (by simp [hexecute])]
  exact congrArg (Report.mk 0) Array.toList_append

theorem report_of_executed {checked : CheckedProgram}
    (h : TinyPascal.compile source = .ok checked) (hexecute : options.execute = true)
    {c : Conducted Unit Terminal Unit}
    (hc : (checked.start {} fuel false).conduct Terminal.console Adviser.silent { input } () = c) :
    options.report fuel input source =
      ⟨(options.executed c.outcome).status, (options.compile source).1 ++
        (c.moments.flatMap (Moment.outputs options.verbose) ++
          (options.executed c.outcome).outputs)⟩ := by
  have hstart : (⟨input, (options.compile source).1.toArray⟩ : Terminal).input =
      ({ input } : Terminal).input := rfl
  have hconduct := Terminal.run_conduct options.verbose (checked.start {} fuel false) hstart
  rw [hc] at hconduct
  rw [report_eq, h, proceed, if_pos hexecute, StateT.run_bind, hconduct]
  refine congrArg (Report.mk _) ?_
  rw [← List.append_assoc]
  exact Array.toList_append.trans (congrArg (· ++ _) Array.toList_append)

end

section

variable {terse full : Options} (hterse : terse.verbose = false) (hfull : full.verbose = true)

include hterse hfull

theorem detailed_log (level : LogLevel) (text : String) :
    Detailed (terse.log level text) (full.log level text) := by
  unfold log
  rw [hterse, hfull]
  exact LogLine.detailed_outputs _

theorem detailed_compile (hast : full.ast = terse.ast) (source : String) :
    Detailed (terse.compile source).1 (full.compile source).1 := by
  have hlog := detailed_log hterse hfull
  unfold Options.compile
  cases tokenize source with
  | error e => exact .nil
  | ok tokens =>
    have htokens : Detailed (terse.logTokens tokens) (full.logTokens tokens) :=
      (hlog _ _).append (hlog _ _)
    dsimp only
    cases parse tokens with
    | error e => exact htokens
    | ok program =>
      have hprogram : Detailed (terse.logProgram program) (full.logProgram program) :=
        (hlog _ _).append (hlog _ _)
      have hanalysis (analysis : Analysis) :
          Detailed (terse.logAnalysis program analysis) (full.logAnalysis program analysis) := by
        unfold logAnalysis
        rw [hast]
        exact (hlog _ _).append (.refl _)
      have houtputs := (htokens.append hprogram).append (hanalysis (analyze program))
      dsimp only
      cases CheckedProgram.ofAnalysis program (analyze program) with
      | error errors => exact houtputs
      | ok checked => exact houtputs.append (hlog _ _)

theorem detailed_compiled (hfile : full.file = terse.file) :
    Detailed terse.compiled.outputs full.compiled.outputs := by
  unfold compiled
  rw [hfile]
  exact detailed_log hterse hfull _ _

theorem detailed_executed (hfile : full.file = terse.file) (outcome : Except Halt Unit) :
    Detailed (terse.executed outcome).outputs (full.executed outcome).outputs := by
  match outcome with
  | .ok () =>
    exact (detailed_log hterse hfull _ _).append (detailed_compiled hterse hfull hfile)
  | .error (.error e) => exact .refl _
  | .error .outOfFuel => exact .nil

end

theorem status_executed (options options' : Options) (outcome : Except Halt Unit) :
    (options.executed outcome).status = (options'.executed outcome).status := by
  match outcome with
  | .ok () | .error (.error e) | .error .outOfFuel => rfl

/-- To ask for details puts lines into the log and changes nothing else. -/
theorem detailed_report {terse full : Options} (hterse : terse.verbose = false)
    (hfull : full = { terse with verbose := true }) (fuel : ℕ) (input : StandardInput)
    (source : String) :
    (full.report fuel input source).status = (terse.report fuel input source).status ∧
      Detailed (terse.report fuel input source).outputs
        (full.report fuel input source).outputs := by
  have hverbose : full.verbose = true := by rw [hfull]
  have hfile : full.file = terse.file := by rw [hfull]
  have hsame : full.execute = terse.execute := by rw [hfull]
  have hcompile := detailed_compile hterse hverbose (by rw [hfull]) source
  cases h : TinyPascal.compile source with
  | error d =>
    rw [terse.report_of_error fuel input h, full.report_of_error fuel input h]
    exact ⟨rfl, hcompile.append (.refl _)⟩
  | ok checked =>
    by_cases hexecute : terse.execute = true
    · rw [terse.report_of_executed fuel input h hexecute rfl,
        full.report_of_executed fuel input h (hsame.trans hexecute) rfl, hterse, hverbose]
      exact ⟨status_executed .., hcompile.append
        ((Moment.detailed_outputs _).append (detailed_executed hterse hverbose hfile _))⟩
    · rw [Bool.not_eq_true] at hexecute
      rw [terse.report_of_compiled fuel input h hexecute,
        full.report_of_compiled fuel input h (hsame.trans hexecute)]
      exact ⟨rfl, hcompile.append (detailed_compiled hterse hverbose hfile)⟩

/-- The outline of a source text, if it can be read as a program. The types are those that the
analysis has found, with or without violations. -/
def outline (source : String) : String :=
  match parseSource source with
  | .ok program => program.render (some (analyze program).types)
  | .error _ => ""

@[simp]
theorem stdoutText_log (options : Options) (level : LogLevel) (text : String) :
    Output.stdoutText (options.log level text) = "" :=
  LogLine.stdoutText_outputs ..

theorem stdoutText_logAnalysis (options : Options) (program : Program) (analysis : Analysis) :
    Output.stdoutText (options.logAnalysis program analysis) =
      if options.ast then program.render (some analysis.types) else "" := by
  unfold logAnalysis
  rw [Output.stdoutText_append, stdoutText_log, String.empty_append]
  split <;> simp [Output.stdoutText]

/-- Compiling puts nothing on the standard output but the outline. -/
theorem stdoutText_compile (options : Options) (source : String) :
    Output.stdoutText (options.compile source).1 = if options.ast then outline source else "" := by
  unfold Options.compile outline parseSource
  cases tokenize source with
  | error e => simp
  | ok tokens =>
    dsimp only
    cases parse tokens with
    | error e => simp [logTokens]
    | ok program =>
      dsimp only
      cases CheckedProgram.ofAnalysis program (analyze program) <;>
        simp [logTokens, logProgram, stdoutText_logAnalysis]

theorem log_congr {options options' : Options} (h : options'.verbose = options.verbose) :
    options'.log = options.log := by
  funext level text
  rw [log, log, h]

/-- The standard error shows nothing of the outline. -/
theorem stderrText_compile {options options' : Options} (h : options'.verbose = options.verbose)
    (source : String) :
    Output.stderrText (options'.compile source).1 =
      Output.stderrText (options.compile source).1 := by
  have hanalysis (options : Options) (program : Program) (analysis : Analysis) :
      Output.stderrText (options.logAnalysis program analysis) =
        Output.stderrText (options.log .debug ("semantic analysis finished" ++
          LogLine.field "symbols" (Text.decimal analysis.symbols.size) ++
          LogLine.field "errors" (Text.decimal analysis.errors.length))) := by
    unfold logAnalysis
    split <;> simp [Output.stderrText]
  have htokens : options'.logTokens = options.logTokens := by
    funext tokens
    rw [logTokens, log_congr h, logTokens]
  have hprogram : options'.logProgram = options.logProgram := by
    funext program
    rw [logProgram, log_congr h, logProgram]
  unfold Options.compile
  cases tokenize source with
  | error e => rfl
  | ok tokens =>
    dsimp only
    cases parse tokens with
    | error e => exact congrArg (fun f => Output.stderrText (f tokens)) htokens
    | ok program =>
      dsimp only
      cases CheckedProgram.ofAnalysis program (analyze program) <;>
        simp [hanalysis, htokens, hprogram, log_congr h]

theorem compiled_congr {options options' : Options} (h : options'.verbose = options.verbose)
    (hfile : options'.file = options.file) : options'.compiled = options.compiled := by
  rw [compiled, compiled, log_congr h, hfile]

theorem executed_congr {options options' : Options} (h : options'.verbose = options.verbose)
    (hfile : options'.file = options.file) : options'.executed = options.executed := by
  funext outcome
  match outcome with
  | .ok () => rw [executed, executed, log_congr h, compiled_congr h hfile]
  | .error (.error e) | .error .outOfFuel => rfl

/-- To ask for the outline puts it before the rest of the standard output and changes nothing
else. -/
theorem outlined_report {plain outlined : Options} (hplain : plain.ast = false)
    (houtlined : outlined = { plain with ast := true }) (fuel : ℕ) (input : StandardInput)
    (source : String) :
    (outlined.report fuel input source).status =
        (plain.report fuel input source).status ∧
      Output.stderrText (outlined.report fuel input source).outputs =
        Output.stderrText (plain.report fuel input source).outputs ∧
      Output.stdoutText (outlined.report fuel input source).outputs =
        outline source ++ Output.stdoutText (plain.report fuel input source).outputs := by
  have hverbose : outlined.verbose = plain.verbose := by rw [houtlined]
  have hfile : outlined.file = plain.file := by rw [houtlined]
  have hsame : outlined.execute = plain.execute := by rw [houtlined]
  have hast : outlined.ast = true := by rw [houtlined]
  have hstderr := stderrText_compile hverbose source
  have hstdout := plain.stdoutText_compile source
  have hstdout' := outlined.stdoutText_compile source
  cases h : TinyPascal.compile source with
  | error d =>
    rw [plain.report_of_error fuel input h, outlined.report_of_error fuel input h]
    simp [hstderr, hstdout, hstdout', hplain, hast]
  | ok checked =>
    by_cases hexecute : plain.execute = true
    · rw [plain.report_of_executed fuel input h hexecute rfl,
        outlined.report_of_executed fuel input h (hsame.trans hexecute) rfl,
        executed_congr hverbose hfile, hverbose]
      simp [hstderr, hstdout, hstdout', hplain, hast]
    · rw [Bool.not_eq_true] at hexecute
      rw [plain.report_of_compiled fuel input h hexecute,
        outlined.report_of_compiled fuel input h (hsame.trans hexecute),
        compiled_congr hverbose hfile]
      simp [hstderr, hstdout, hstdout', hplain, hast]

/-- Compiles and runs a source text on the standard console, with the default policy. -/
def standardRun (fuel : ℕ) (input : StandardInput) (source : String) :
    Except Diagnostic (Conducted Unit Terminal Unit) :=
  run Terminal.console Adviser.silent {} fuel false source { input } ()

/-- The source text compiles and, if it is to be executed, its run succeeds. -/
def Succeeds (options : Options) (fuel : ℕ) (input : StandardInput) (source : String) : Prop :=
  (∃ checked, TinyPascal.compile source = .ok checked) ∧
    (options.execute = true →
      ∃ c, standardRun fuel input source = .ok c ∧ c.outcome = .ok ())

/-- The source text does not compile, or it is to be executed and its run fails. -/
def FailsWith (options : Options) (fuel : ℕ) (input : StandardInput) (source : String)
    (d : Diagnostic) : Prop :=
  TinyPascal.compile source = .error d ∨
    options.execute = true ∧ ∃ c e, standardRun fuel input source = .ok c ∧
      c.outcome = .error (.error e) ∧ d = .runtime e

theorem countP_yieldsLine_le (run : Run Unit) (terminal : Terminal) :
    (run.conduct Terminal.console Adviser.silent terminal ()).moments.countP Moment.yieldsLine ≤
      terminal.input.lines.length := by
  refine Run.countP_moments_le (fun terminal _ => terminal.input.lines.length) ?_ run terminal ()
  intro request state terminal g
  cases request with
  | readLine prompt =>
    obtain ⟨⟨lines⟩, outputs⟩ := terminal
    cases lines with
    | nil => exact le_refl 0
    | cons line rest =>
      cases line with
      | error fault => exact Nat.le_succ _
      | ok line => exact le_refl _
  | writeLine | warn | consult | note => exact le_refl _

/-- A run on the standard console ends, and more fuel makes no difference to it. -/
theorem exists_enough (source : String) (input : StandardInput) :
    ∃ enough, (∀ fuel, enough ≤ fuel →
        standardRun fuel input source = standardRun enough input source) ∧
      ∀ c, standardRun enough input source = .ok c → c.outcome ≠ .error .outOfFuel := by
  cases h : TinyPascal.compile source with
  | error d =>
    refine ⟨0, fun fuel _ => ?_, fun c hc => ?_⟩
    · simp [standardRun, run, h]
    · simp [standardRun, run, h] at hc
  | ok checked =>
    have hconverges := checked.converges Terminal.console Adviser.silent
      (rfl : ({} : Policy).loopLimit = some 1000) (by decide) (by decide)
    obtain ⟨c, hc, hsettles⟩ := hconverges input.lines.length ⟨∅, false⟩ { input } ()
      (.of_forall fun fuel => countP_yieldsLine_le _ { input })
    obtain ⟨enough, henough⟩ := Filter.eventually_atTop.mp hsettles
    have hrun (fuel : ℕ) (hfuel : enough ≤ fuel) : standardRun fuel input source = .ok c := by
      simp only [standardRun, run, h, CheckedProgram.start, henough fuel hfuel]
    refine ⟨enough, fun fuel hfuel => ?_, fun c' hc' => ?_⟩
    · rw [hrun fuel hfuel, hrun enough le_rfl]
    · rw [hrun enough le_rfl] at hc'
      cases hc'
      exact hc

/-- The report depends on the fuel only through the run. -/
theorem report_congr {source : String} {input : StandardInput} {fuel fuel' : ℕ}
    (h : standardRun fuel' input source = standardRun fuel input source) (options : Options) :
    options.report fuel' input source = options.report fuel input source := by
  cases hcompile : TinyPascal.compile source with
  | error d => rw [options.report_of_error _ _ hcompile, options.report_of_error _ _ hcompile]
  | ok checked =>
    by_cases hexecute : options.execute = true
    · simp only [standardRun, run, hcompile, Except.ok.injEq] at h
      rw [options.report_of_executed _ _ hcompile hexecute h,
        options.report_of_executed _ _ hcompile hexecute rfl]
    · rw [Bool.not_eq_true] at hexecute
      rw [options.report_of_compiled _ _ hcompile hexecute,
        options.report_of_compiled _ _ hcompile hexecute]

/-- A report is one of a success, or of a failure whose message ends the standard error. -/
theorem report_cases (options : Options) {fuel : ℕ} {input : StandardInput} {source : String}
    (hends : ∀ c, standardRun fuel input source = .ok c → c.outcome ≠ .error .outOfFuel) :
    (options.report fuel input source).status = 0 ∧ options.Succeeds fuel input source ∨
      (options.report fuel input source).status = 1 ∧ ¬options.Succeeds fuel input source ∧
        ∃ d earlier, options.FailsWith fuel input source d ∧
          Output.stderrText (options.report fuel input source).outputs =
            earlier ++ d.message ++ "\n" := by
  have hlast (outputs : List Output) (text : String) :
      Output.stderrText (outputs ++ [.stderr (text ++ "\n")]) =
        Output.stderrText outputs ++ text ++ "\n" := by
    simp [Output.stderrText, String.append_assoc]
  cases h : TinyPascal.compile source with
  | error d =>
    rw [options.report_of_error _ _ h]
    refine .inr ⟨rfl, fun hsucceeds => ?_, d, _, .inl h, hlast _ _⟩
    obtain ⟨⟨checked, hchecked⟩, -⟩ := hsucceeds
    rw [h] at hchecked
    cases hchecked
  | ok checked =>
    by_cases hexecute : options.execute = true
    · let c := (checked.start {} fuel false).conduct Terminal.console Adviser.silent { input } ()
      have hrun : standardRun fuel input source = .ok c := by
        simp only [standardRun, run, h]
        rfl
      rw [options.report_of_executed _ _ h hexecute (rfl : _ = c)]
      cases houtcome : c.outcome with
      | ok a => exact .inl ⟨rfl, ⟨checked, h⟩, fun _ => ⟨c, hrun, houtcome⟩⟩
      | error halt =>
        cases halt with
        | outOfFuel => exact absurd houtcome (hends c hrun)
        | error e =>
          rw [← List.append_assoc]
          refine .inr ⟨rfl, fun hsucceeds => ?_, .runtime e, _,
            .inr ⟨hexecute, c, e, hrun, houtcome, rfl⟩, hlast _ _⟩
          obtain ⟨c', hc', houtcome'⟩ := hsucceeds.2 hexecute
          obtain rfl : c = c' := Except.ok.inj (hrun.symm.trans hc')
          rw [houtcome] at houtcome'
          cases houtcome'
    · rw [Bool.not_eq_true] at hexecute
      rw [options.report_of_compiled _ _ h hexecute]
      refine .inl ⟨rfl, ⟨checked, h⟩, fun hexecute' => ?_⟩
      rw [hexecute] at hexecute'
      cases hexecute'

/-- Arguments that ask for the options. The file comes last, where any name can be given. -/
def arguments (options : Options) : List String :=
  (if options.execute then ["-e"] else []) ++ (if options.verbose then ["-v"] else []) ++
    (if options.ast then ["--ast"] else []) ++ ["--", options.file]

open Invocation Invocation.Reading in
theorem ofArguments_arguments (options : Options) :
    ofArguments options.arguments = process options := by
  have hexecute : isFlagLike "-e" = true := by decide +kernel
  have hverbose : isFlagLike "-v" = true := by decide +kernel
  have hast : isFlagLike "--ast" = true := by decide +kernel
  have hends : isFlagLike "--" = true := by decide +kernel
  obtain ⟨file, execute, verbose, ast⟩ := options
  cases execute <;> cases verbose <;> cases ast <;>
    simp [arguments, ofArguments, Reading.take, hexecute, hverbose, hast, hends, Flag.ofArgument,
      Flag.ofLong?, Flag.ofShort?, takeFlag, takeFile, Reading.invocation, bind, Except.bind, pure,
      Except.pure]

/-- The report of the command line on a file with the text `source`. -/
def command (options : Options) (wording : Wording) (fuel : ℕ) (input : StandardInput)
    (source : String) : Report :=
  (Invocation.ofArguments options.arguments).report wording fuel
    (fun _ => sourceText source.toUTF8) input

theorem command_eq (options : Options) (wording : Wording) (fuel : ℕ) (input : StandardInput)
    (source : String) :
    options.command wording fuel input source = options.report fuel input source := by
  have hsource : sourceText source.toByteArray = .ok source := by
    rw [sourceText, StandardInput.decode_toByteArray]
    rfl
  simp only [command, ofArguments_arguments, String.toUTF8_eq_toByteArray, hsource]
  rfl

/-- The command line agrees with compiling and running, and its flags do not interfere. The run on
the standard console ends, so that from some fuel on neither it nor a report changes. The status is
zero exactly for a success, and otherwise one, with the message of the failure at the end of the
standard error. To ask for details only puts lines into the log, and to ask for the outline only
puts it before the rest of the standard output. -/
theorem command_agrees (wording : Wording) (source : String) (input : StandardInput) :
    ∃ enough,
      (∀ fuel, enough ≤ fuel → standardRun fuel input source = standardRun enough input source ∧
        ∀ options : Options,
          options.command wording fuel input source = options.command wording enough input source) ∧
      ∀ options : Options,
        let report := options.command wording enough input source
        (report.status = 0 ↔ options.Succeeds enough input source) ∧
        (report.status ≠ 0 → report.status = 1 ∧
          ∃ d earlier, options.FailsWith enough input source d ∧
            Output.stderrText report.outputs = earlier ++ d.message ++ "\n") ∧
        (let terse := { options with verbose := false }.command wording enough input source
          let full := { options with verbose := true }.command wording enough input source
          full.status = terse.status ∧
            Output.stdoutText full.outputs = Output.stdoutText terse.outputs ∧
            Output.Detailed terse.outputs full.outputs) ∧
        let plain := { options with ast := false }.command wording enough input source
        let outlined := { options with ast := true }.command wording enough input source
        outlined.status = plain.status ∧
          Output.stderrText outlined.outputs = Output.stderrText plain.outputs ∧
          Output.stdoutText outlined.outputs =
            outline source ++ Output.stdoutText plain.outputs := by
  obtain ⟨enough, henough, hends⟩ := exists_enough source input
  refine ⟨enough, fun fuel hfuel => ⟨henough fuel hfuel, fun options => ?_⟩, fun options => ?_⟩
  · rw [command_eq, command_eq, report_congr (henough fuel hfuel)]
  · simp only [command_eq]
    have hplain : { options with ast := false }.ast = false := rfl
    refine ⟨?_, ?_, ?_, outlined_report hplain rfl enough input source⟩
    · obtain ⟨hstatus, hsucceeds⟩ | ⟨hstatus, hsucceeds, -⟩ := options.report_cases hends
      · simp [hstatus, hsucceeds]
      · simp [hstatus, hsucceeds]
    · intro hne
      obtain ⟨hstatus, -⟩ | ⟨hstatus, -, hfails⟩ := options.report_cases hends
      · exact absurd hstatus hne
      · exact ⟨hstatus, hfails⟩
    · have hterse : { options with verbose := false }.verbose = false := rfl
      obtain ⟨hstatus, houtputs⟩ := detailed_report hterse rfl enough input source
      exact ⟨hstatus, houtputs.stdoutText_eq, houtputs⟩

end Options

end TinyPascal
