/-!
# Command line arguments

One source file and flags, each of them at most once. Short flags can be joined. After two hyphens
alone there are no more flags, so that a file may have any name. The arguments count from left to
right: the first that asks for help or for the version, or cannot be used, decides.
-/
namespace TinyPascal

structure Options where
  file : String
  execute : Bool := false
  verbose : Bool := false
  ast : Bool := false
deriving DecidableEq, Repr

inductive Invocation where
  | process (options : Options)
  | help
  | version
  | misuse
deriving DecidableEq, Repr

inductive Flag where
  | execute | verbose | ast | help | version
deriving DecidableEq, Repr

namespace Flag

def ofLong? : String → Option Flag
  | "--execute" => some execute
  | "--verbose" => some verbose
  | "--ast" => some ast
  | "--help" => some help
  | "--version" => some version
  | _ => none

def ofShort? : Char → Option Flag
  | 'e' => some execute
  | 'v' => some verbose
  | 'h' => some help
  | 'V' => some version
  | _ => none

/-- The flags that an argument names, where each name may be unknown. -/
def ofArgument (argument : String) : List (Option Flag) :=
  match argument.toList with
  | '-' :: '-' :: _ => [ofLong? argument]
  | _ :: letters => letters.map ofShort?
  | [] => []

end Flag

namespace Invocation

structure Reading where
  file? : Option String := none
  flags : List Flag := []
  flagsEnded : Bool := false

namespace Reading

/-- Takes a flag. Help and the version are shown at once, and a flag is given only once. -/
def takeFlag (reading : Reading) : Option Flag → Except Invocation Reading
  | none => .error misuse
  | some .help => .error help
  | some .version => .error version
  | some flag =>
    if reading.flags.contains flag then .error misuse
    else .ok { reading with flags := flag :: reading.flags }

def takeFile (reading : Reading) (file : String) : Except Invocation Reading :=
  match reading.file? with
  | none => .ok { reading with file? := some file }
  | some _ => .error misuse

/-- Whether an argument is meant as a flag, or as the end of the flags. -/
def isFlagLike (argument : String) : Bool :=
  argument.startsWith "-" && argument != "-"

def take (reading : Reading) (argument : String) : Except Invocation Reading :=
  if reading.flagsEnded || !isFlagLike argument then reading.takeFile argument
  else if argument = "--" then .ok { reading with flagsEnded := true }
  else (Flag.ofArgument argument).foldlM takeFlag reading

def invocation (reading : Reading) : Invocation :=
  match reading.file? with
  | some file => process
      { file
        execute := reading.flags.contains .execute
        verbose := reading.flags.contains .verbose
        ast := reading.flags.contains .ast }
  | none => misuse

end Reading

def ofArguments (arguments : List String) : Invocation :=
  match arguments.foldlM Reading.take {} with
  | .ok reading => reading.invocation
  | .error invocation => invocation

end Invocation

end TinyPascal
