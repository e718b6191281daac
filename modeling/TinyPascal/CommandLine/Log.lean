import TinyPascal.Console.Standard

/-!
# Log lines

The log goes to the standard error. Debugging and information lines are shown only when asked for,
warnings always.
-/
namespace TinyPascal

inductive LogLevel where
  | debug | info | warn
deriving DecidableEq, Repr

/-- The name of a level, in five columns. -/
def LogLevel.column : LogLevel → String
  | debug => "DEBUG"
  | info => " INFO"
  | warn => " WARN"

structure LogLine where
  level : LogLevel
  text : String
deriving DecidableEq, Repr

def LogLine.outputs (verbose : Bool) (line : LogLine) : List Output :=
  if verbose || line.level == .warn then
    [.stderr (line.level.column ++ " " ++ line.text ++ "\n")]
  else
    []

def LogLine.field (name value : String) : String :=
  " " ++ name ++ "=" ++ value

open LogLine (field)

def Note.logLine : Note → LogLine
  | started program size =>
    ⟨.debug, "execution started" ++ field "program" program ++
      field "variables" (Text.decimal size)⟩
  | finished => ⟨.debug, "execution finished"⟩
  | loopFinished iterations p =>
    ⟨.debug, "loop finished" ++ field "iterations" (Text.decimal iterations) ++
      field "position" p.text⟩
  | loopStopped iterations p =>
    ⟨.warn, "loop stopped by the loop guard" ++ field "iterations" (Text.decimal iterations) ++
      field "position" p.text⟩
  | interrupted p => ⟨.warn, "execution interrupted" ++ field "position" p.text⟩

end TinyPascal
