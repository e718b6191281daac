import TinyPascal.Console.Basic

/-!
# The standard console

The standard console reads the lines of the standard input. A line ends after a line feed, or with
the input, and is handed over without the line feeds and carriage returns at its end. A line that
is not valid UTF-8 cannot be read. Prompts and written lines go to the standard output and warnings
to the standard error. How a console uses the streams does not depend on what these are: here they
belong to a terminal that keeps what is put out.
-/
namespace TinyPascal

/-- Cuts a list after each element that satisfies `isLast`. -/
def cutAfter {α : Type} (isLast : α → Bool) : List α → List (List α)
  | [] => []
  | a :: rest =>
    if isLast a then
      [a] :: cutAfter isLast rest
    else
      match cutAfter isLast rest with
      | [] => [[a]]
      | piece :: more => (a :: piece) :: more

/-- The lines of the standard input that are still to be read, each with what ends it. In place of a
line that cannot be read stands a description of the failure. -/
structure StandardInput where
  lines : List (Except String String)

namespace StandardInput

def invalidText : String := "stream did not contain valid UTF-8"

def decode (bytes : ByteArray) : Except String String :=
  match String.fromUTF8? bytes with
  | some text => .ok text
  | none => .error invalidText

def ofText (text : String) : StandardInput :=
  ⟨(cutAfter (· == '\n') text.toList).map fun line => .ok (.ofList line)⟩

def ofBytes (bytes : ByteArray) : StandardInput :=
  ⟨(cutAfter (· == 10) bytes.toList).map fun line => decode ⟨line.toArray⟩⟩

/-- A line without the line feeds and carriage returns at its end. -/
def chomp (line : String) : String :=
  .ofList (line.toList.reverse.dropWhile fun c => c == '\n' || c == '\r').reverse

def readLine (input : StandardInput) : Except String (Option String) × StandardInput :=
  match input.lines with
  | [] => (.ok none, input)
  | line :: rest => (line.map fun line => some (chomp line), ⟨rest⟩)

end StandardInput

/-- A piece of output, on one of the two streams. -/
inductive Output where
  | stdout (text : String)
  | stderr (text : String)
deriving DecidableEq, Repr

namespace Output

def stdoutText (outputs : List Output) : String :=
  String.join (outputs.map fun | stdout text => text | stderr _ => "")

def stderrText (outputs : List Output) : String :=
  String.join (outputs.map fun | stdout _ => "" | stderr text => text)

@[simp]
theorem stdoutText_nil : stdoutText [] = "" :=
  rfl

@[simp]
theorem stderrText_nil : stderrText [] = "" :=
  rfl

@[simp]
theorem stdoutText_append (earlier later : List Output) :
    stdoutText (earlier ++ later) = stdoutText earlier ++ stdoutText later := by
  rw [stdoutText, List.map_append, String.join_append]
  rfl

@[simp]
theorem stderrText_append (earlier later : List Output) :
    stderrText (earlier ++ later) = stderrText earlier ++ stderrText later := by
  rw [stderrText, List.map_append, String.join_append]
  rfl

end Output

/-- The standard streams, with the effects of `m`. An operation may fail, with a description of the
failure, and a line is absent at the end of the input. -/
structure Streams (m : Type → Type) where
  put : List Output → m (Except String Unit)
  readLine : m (Except String (Option String))

namespace Streams

variable {m : Type → Type} [Monad m] (streams : Streams m)

def prompt (text : String) : m (Except String (Option String)) := do
  match ← streams.put [.stdout text] with
  | .ok () => streams.readLine
  | .error description => return .error description

def writeLine (line : String) : m (Except String Unit) :=
  streams.put [.stdout (line ++ "\n")]

def warn (message : String) : m (Except String Unit) :=
  streams.put [.stderr ("Warning: " ++ message ++ "\n")]

end Streams

/-- The lines still to be read and all that has been put out, which never fails. -/
structure Terminal where
  input : StandardInput
  outputs : Array Output := #[]

namespace Terminal

def streams : Streams (StateM Terminal) where
  put outputs := do
    modify fun terminal => { terminal with outputs := terminal.outputs ++ outputs.toArray }
    return .ok ()
  readLine := modifyGet fun terminal =>
    let (line, input) := terminal.input.readLine
    (line, { terminal with input })

def console : Console Terminal where
  readLine text terminal :=
    let (result, terminal) := (streams.prompt text).run terminal
    ({ result }, terminal)
  writeLine line terminal :=
    let (result, terminal) := (streams.writeLine line).run terminal
    ({ result }, terminal)
  warn message terminal :=
    let (result, terminal) := (streams.warn message).run terminal
    ({ result }, terminal)

end Terminal

end TinyPascal
