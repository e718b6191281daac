import TinyPascal.Typing.Violation

/-!
# Symbol tables

A symbol table gives each declared name its type and the place of its declaration. The first
declaration of a name stands, and every further one is a violation.
-/
namespace TinyPascal

structure Symbol where
  type : Ty
  position : Position
deriving DecidableEq, Repr

/-- The declared names, in order of their code points. -/
abbrev SymbolTable := Std.TreeMap String Symbol

namespace SymbolTable

def typeOf? (symbols : SymbolTable) (name : String) : Option Ty :=
  symbols[name]?.map Symbol.type

/-- Adds a name that is not declared yet. -/
def declare (symbols : SymbolTable) (target : Identifier) (type : Ty) :
    Except SemanticError SymbolTable :=
  if symbols.contains target.name then
    .error ⟨.alreadyDeclared target.name, target.position⟩
  else
    .ok (symbols.insert target.name ⟨type, target.position⟩)

/-- Adds names one after the other, and collects the violations. -/
def declareAll (symbols : SymbolTable) : List (Identifier × Ty) → SymbolTable × List SemanticError
  | [] => (symbols, [])
  | (target, type) :: rest =>
    match symbols.declare target type with
    | .ok symbols => symbols.declareAll rest
    | .error e =>
      let (symbols, errors) := symbols.declareAll rest
      (symbols, e :: errors)

end SymbolTable

def Declaration.entries (d : Declaration) : List (Identifier × Ty) :=
  d.names.map fun name => (name, d.type)

/-- The declared names of a program in order, each with its type. -/
def Program.entries (program : Program) : List (Identifier × Ty) :=
  program.declarations.flatMap Declaration.entries

end TinyPascal
