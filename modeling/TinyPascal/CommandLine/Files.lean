import TinyPascal.Console.Standard

/-!
# Files

A path leads from a place in a tree of files, part by part, to a file or a folder. Only a file can
be read, and only as text.
-/
namespace TinyPascal

inductive FileFault where
  | notFound
  | notADirectory
  | isDirectory
  | nameTooLong
  | permissionDenied
  | notText
  | other (description : String)
deriving DecidableEq, Repr

def FileFault.text : FileFault → String
  | notFound => "No such file or directory (os error 2)"
  | notADirectory => "Not a directory (os error 20)"
  | isDirectory => "Is a directory (os error 21)"
  | nameTooLong => "File name too long (os error 36)"
  | permissionDenied => "Permission denied (os error 13)"
  | notText => StandardInput.invalidText
  | other description => description

/-- The text of a source file with given bytes. -/
def sourceText (bytes : ByteArray) : Except FileFault String :=
  (StandardInput.decode bytes).mapError fun _ => .notText

/-- A file with its bytes, or a folder with its entries by name. -/
inductive FileTree where
  | file (bytes : ByteArray)
  | folder (entries : List (String × FileTree))

/-- A place in a tree of files: what stands there, and the folders above it, innermost first. -/
structure Place where
  tree : FileTree
  above : List FileTree := []

namespace Place

/-- The most bytes in the name of an entry. -/
def longestName : Nat := 255

/-- The most bytes in a path. -/
def longestPath : Nat := 4095

/-- The folder above a place; the outermost folder is above itself. -/
def parent : Place → Place
  | ⟨_, folder :: above⟩ => ⟨folder, above⟩
  | place => place

def root (place : Place) : Place :=
  ⟨place.above.getLast?.getD place.tree, []⟩

/-- Follows one part of a path. Nothing lies below a file, not even the file itself. -/
def step (place : Place) (part : String) : Except FileFault Place :=
  match place.tree with
  | .file _ => .error .notADirectory
  | .folder entries =>
    if part = "" ∨ part = "." then .ok place
    else if part = ".." then .ok place.parent
    else if longestName < part.utf8ByteSize then .error .nameTooLong
    else
      match entries.lookup part with
      | some tree => .ok ⟨tree, place.tree :: place.above⟩
      | none => .error .notFound

/-- The place that a path leads to. A path that starts with a slash starts at the outermost folder,
and the empty path leads nowhere. -/
def find (place : Place) (path : String) : Except FileFault Place :=
  if path = "" then .error .notFound
  else if longestPath < path.utf8ByteSize then .error .nameTooLong
  else (path.splitOn "/").foldlM step (if path.startsWith "/" then place.root else place)

/-- The text of the file that a path leads to. -/
def read (place : Place) (path : String) : Except FileFault String := do
  match (← place.find path).tree with
  | .file bytes => sourceText bytes
  | .folder _ => .error .isDirectory

end Place

end TinyPascal
