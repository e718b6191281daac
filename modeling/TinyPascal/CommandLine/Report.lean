import TinyPascal.CommandLine.Arguments
import TinyPascal.CommandLine.Files
import TinyPascal.CommandLine.Log
import TinyPascal.Interpreter
import TinyPascal.Syntax.Outline

/-!
# What the command line does

A source file is compiled, stage by stage, with the outline of the program shown in between if
asked for, and then executed if asked for. The exit status is zero if nothing failed and one
otherwise, and a failure is the last thing put out. All this is said once, for any surroundings:
performed on a terminal, the command leaves a report.
-/
namespace TinyPascal

/-- What the command line leaves behind. -/
structure Report where
  status : Nat
  outputs : List Output
deriving DecidableEq, Repr

/-- The texts in which the reader of the arguments words its own answers. -/
structure Wording where
  help : String
  misuse : String
deriving DecidableEq, Repr

def Report.help (wording : Wording) : Report :=
  ⟨0, [.stdout wording.help]⟩

def Report.version : Report :=
  ⟨0, [.stdout "fortall 0.1.0\n"]⟩

def Report.misuse (wording : Wording) : Report :=
  ⟨2, [.stderr wording.misuse]⟩

namespace Options

open LogLine (field)

/-- A log line as far as it is asked for. -/
def log (options : Options) (level : LogLevel) (text : String) : List Output :=
  LogLine.outputs options.verbose ⟨level, text⟩

def logTokens (options : Options) (tokens : List Token) : List Output :=
  let count := field "tokens" (Text.decimal (tokens.length - 1))
  options.log .debug ("lexical analysis finished" ++ count) ++
    options.log .info ("lexical analysis" ++ count)

def logProgram (options : Options) (program : Program) : List Output :=
  let fields := field "program" program.name.name ++
    field "declarations" (Text.decimal program.declarations.length) ++
    field "statements" (Text.decimal program.statements.length)
  options.log .debug ("syntax analysis finished" ++ fields) ++
    options.log .info ("syntax analysis" ++ fields)

/-- The log of the third stage, and the outline of the program. -/
def logAnalysis (options : Options) (program : Program) (analysis : Analysis) : List Output :=
  options.log .debug ("semantic analysis finished" ++
    field "symbols" (Text.decimal analysis.symbols.size) ++
    field "errors" (Text.decimal analysis.errors.length)) ++
  if options.ast then [.stdout (program.render (some analysis.types))] else []

/-- Compiles a source text, and says what is put out meanwhile. -/
def compile (options : Options) (source : String) :
    List Output × Except Diagnostic CheckedProgram :=
  match tokenize source with
  | .error e => ([], .error (.lexical e))
  | .ok tokens =>
    match parse tokens with
    | .error e => (options.logTokens tokens, .error (.syntactic e))
    | .ok program =>
      let analysis := analyze program
      let outputs := options.logTokens tokens ++ options.logProgram program ++
        options.logAnalysis program analysis
      match CheckedProgram.ofAnalysis program analysis with
      | .error errors => (outputs, .error (.semantic errors))
      | .ok checked =>
        (outputs ++ options.log .info "semantic analysis found no errors", .ok checked)

def unreadable (options : Options) (fault : FileFault) : Report :=
  ⟨1, [.stderr ("Failed to read the input file '" ++ options.file ++ "': " ++ fault.text ++ "\n")]⟩

def failed (diagnostic : Diagnostic) : Report :=
  ⟨1, [.stderr (diagnostic.message ++ "\n")]⟩

/-- The end of the report on a source text that was only compiled. -/
def compiled (options : Options) : Report :=
  ⟨0, options.log .info ("done" ++ field "file" options.file)⟩

/-- The end of the report on a program that was executed. -/
def executed (options : Options) : Except Halt Unit → Report
  | .ok () => ⟨0, options.log .info "program executed" ++ options.compiled.outputs⟩
  | .error (.error e) => failed (.runtime e)
  | .error .outOfFuel => ⟨1, []⟩

end Options

/-- What the command line finds around it: the standard streams and the source files. -/
structure Surroundings (m : Type → Type) extends Streams m where
  readFile : String → m (Except FileFault String)

variable {m : Type → Type} [Monad m]

namespace Streams

/-- Answers a request of a run. Notes go to the log, and there is nobody to consult. -/
def answer (streams : Streams m) (verbose : Bool) : (request : Request) → m (Answer request.Result)
  | .readLine text => return { result := ← streams.prompt text }
  | .writeLine line => return { result := ← streams.writeLine line }
  | .warn message => return { result := ← streams.warn message }
  | .consult _ => return { result := false }
  | .note note => do
    let _ ← streams.put (note.logLine.outputs verbose)
    return { result := () }

/-- Conducts a run to its end, each request answered as it comes. -/
def conduct (streams : Streams m) (verbose : Bool) : Run Unit → m (Except Halt Unit)
  | .ended outcome _ => return outcome
  | .paused request _ resume => do
    streams.conduct verbose (resume (← streams.answer verbose request))

/-- Puts out the end of a report, and gives the status. -/
def finish (streams : Streams m) (report : Report) : m Nat := do
  let _ ← streams.put report.outputs
  return report.status

end Streams

/-- Goes on from a source text that was compiled, with `fuel` iterations for each loop, and gives
the exit status. -/
def Options.proceed (streams : Streams m) (fuel : Nat) (options : Options) :
    Except Diagnostic CheckedProgram → m Nat
  | .error diagnostic => streams.finish (failed diagnostic)
  | .ok checked => do
    if options.execute then
      let outcome ← streams.conduct options.verbose (checked.start {} fuel false)
      streams.finish (options.executed outcome)
    else
      streams.finish options.compiled

def Options.perform (surroundings : Surroundings m) (fuel : Nat) (options : Options) : m Nat := do
  match ← surroundings.readFile options.file with
  | .error fault => surroundings.finish (options.unreadable fault)
  | .ok source =>
    let (outputs, result) := options.compile source
    let _ ← surroundings.put outputs
    options.proceed surroundings.toStreams fuel result

def Invocation.perform (surroundings : Surroundings m) (wording : Wording) (fuel : Nat) :
    Invocation → m Nat
  | process options => options.perform surroundings fuel
  | help => surroundings.finish (.help wording)
  | version => surroundings.finish .version
  | misuse => surroundings.finish (.misuse wording)

/-- A terminal, and source files that are read as `files` says. -/
def Terminal.surroundings (files : String → Except FileFault String) :
    Surroundings (StateM Terminal) :=
  { streams with readFile := fun file => return files file }

/-- The report on an invocation that is performed on a terminal. -/
def Invocation.report (wording : Wording) (fuel : Nat) (files : String → Except FileFault String)
    (input : StandardInput) (invocation : Invocation) : Report :=
  let (status, terminal) :=
    (invocation.perform (Terminal.surroundings files) wording fuel).run { input }
  ⟨status, terminal.outputs.toList⟩

end TinyPascal
