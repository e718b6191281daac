import TinyPascal.CommandLine.Report

/-!
# The command

The command line on the real streams and files.
-/
namespace TinyPascal.Main

/-- Iterations for each loop: more than a machine can do. -/
def fuel : Nat := 1000000000000000000

def put : Output → IO Unit
  | .stdout text => do
    let stream ← IO.getStdout
    stream.putStr text
    stream.flush
  | .stderr text => IO.eprint text

/-- Puts out the pieces of a list, and describes the failure of the first that fails. -/
def putAll (outputs : List Output) : IO (Except String Unit) := do
  try
    outputs.forM put
    return .ok ()
  catch e =>
    return .error (toString e)

/-- Reads the bytes of a line, with the line feed that ends it. -/
partial def readBytes (stream : IO.FS.Stream) (line : ByteArray) : IO ByteArray := do
  let byte ← stream.read 1
  if byte.isEmpty then
    return line
  else if byte == ⟨#[10]⟩ then
    return line ++ byte
  else
    readBytes stream (line ++ byte)

def readLine : IO (Except String (Option String)) := do
  try
    let bytes ← readBytes (← IO.getStdin) .empty
    return (StandardInput.readLine (.ofBytes bytes)).1
  catch e =>
    return .error (toString e)

/-- Whether a failed call gave the number `code`, with either sign, for a name that is too long. -/
def isNameTooLong (code : UInt32) : Bool :=
  code == 36 || -code == 36

def readFile (file : String) : IO (Except FileFault String) := do
  try
    return sourceText (← IO.FS.readBinFile file)
  catch
    | .noFileOrDirectory _ _ _ => return .error .notFound
    | .inappropriateType _ 21 _ => return .error .isDirectory
    | .inappropriateType _ _ _ => return .error .notADirectory
    | .permissionDenied _ _ _ => return .error .permissionDenied
    | e@(.invalidArgument _ code _) =>
      return .error (if isNameTooLong code then .nameTooLong else .other (toString e))
    | e => return .error (.other (toString e))

def surroundings : Surroundings IO where
  put := putAll
  readLine := readLine
  readFile := readFile

def wording : Wording where
  help := "Lexer, parser, semantic checker and tree-walking interpreter for the Fortall " ++
    "teaching language\n\nUsage: fortall [OPTIONS] <FILE>\n\nArguments:\n" ++
    "  <FILE>  The Fortall source file to compile\n\nOptions:\n" ++
    "  -e, --execute  Runs the program after it compiled successfully\n" ++
    "  -v, --verbose  Logs every compilation stage to stderr\n" ++
    "      --ast      Prints the syntax tree, annotated with inferred types\n" ++
    "  -h, --help     Print help\n" ++
    "  -V, --version  Print version\n"
  misuse := "Usage: fortall [OPTIONS] <FILE>\n\nFor more information, try '--help'.\n"

end TinyPascal.Main

open TinyPascal in
def main (arguments : List String) : IO UInt32 := do
  let invocation := Invocation.ofArguments arguments
  return (← invocation.perform Main.surroundings Main.wording Main.fuel).toUInt32
