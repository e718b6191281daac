import TinyPascal.Console.Basic
import TinyPascal.Diagnostic
import TinyPascal.Execution.Statement
import TinyPascal.Syntax.Program

/-!
# Compiling and running

Compiling takes a source text to a checked program. Running a source text compiles it and conducts
the program on a console and an adviser; nothing is executed unless the source compiles.
-/
namespace TinyPascal

def parseSource (source : String) : Except Diagnostic Program :=
  match tokenize source with
  | .error e => .error (.lexical e)
  | .ok tokens =>
    match parse tokens with
    | .error e => .error (.syntactic e)
    | .ok program => .ok program

def compile (source : String) : Except Diagnostic CheckedProgram :=
  match parseSource source with
  | .error d => .error d
  | .ok program =>
    match check program with
    | .error errors => .error (.semantic errors)
    | .ok checked => .ok checked

def CheckedProgram.start (policy : Policy) (fuel : Nat) (interrupted : Bool)
    (checked : CheckedProgram) : Run Unit :=
  checked.exec policy fuel ⟨∅, interrupted⟩

def run {σ γ : Type} (console : Console σ) (adviser : Adviser γ) (policy : Policy) (fuel : Nat)
    (interrupted : Bool) (source : String) (s : σ) (g : γ) :
    Except Diagnostic (Conducted Unit σ γ) :=
  match compile source with
  | .error d => .error d
  | .ok checked => .ok ((checked.start policy fuel interrupted).conduct console adviser s g)

end TinyPascal
