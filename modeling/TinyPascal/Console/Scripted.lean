import TinyPascal.Console.Basic

/-!
# Scripted consoles

A console that takes its input from a list of lines, never fails, and keeps what it is shown.
-/
namespace TinyPascal

/-- The lines still to be read, and all prompts, written lines and warnings so far. -/
structure Script where
  input : List String
  output : Array String := #[]
  warnings : Array String := #[]
  prompts : Array String := #[]
deriving DecidableEq, Repr

namespace Script

/-- Keeps the prompt and takes the next line, if there is one. -/
def readLine (prompt : String) (script : Script) : Option String × Script :=
  (script.input.head?,
    { script with input := script.input.tail, prompts := script.prompts.push prompt })

def writeLine (line : String) (script : Script) : Script :=
  { script with output := script.output.push line }

def warn (message : String) (script : Script) : Script :=
  { script with warnings := script.warnings.push message }

def console : Console Script where
  readLine prompt script :=
    let (line, script) := script.readLine prompt
    ({ result := .ok line }, script)
  writeLine line script := ({ result := .ok () }, script.writeLine line)
  warn message script := ({ result := .ok () }, script.warn message)

end Script

end TinyPascal
