import TinyPascal.Typing.Statement

/-!
# The analysis of a program

An analysis holds the symbol table, the types of the expressions and all violations. Types are
kept by position; where two expressions share a position, the one read last counts. A program
whose analysis has no violations can be run.
-/
namespace TinyPascal

/-- The types of expressions, by position. -/
abbrev TypeMap := Std.TreeMap Position Ty

structure Analysis where
  symbols : SymbolTable
  types : TypeMap
  errors : List SemanticError

namespace Analysis

def isClean (analysis : Analysis) : Bool :=
  analysis.errors.isEmpty

/-- The type found at the place of an expression. -/
def typeOf? (analysis : Analysis) (e : Expr) : Option Ty :=
  analysis.types[e.position]?

end Analysis

def analyze (program : Program) : Analysis :=
  let (symbols, repeated) := SymbolTable.declareAll ∅ program.entries
  { symbols
    types := .ofList
      ((Statement.expressionsOfAll program.statements).flatMap (Expr.typings symbols))
    errors := repeated ++ Statement.violationsOfAll symbols program.statements }

/-- A program with the symbol table and the types of an analysis without violations. -/
structure CheckedProgram where
  program : Program
  symbols : SymbolTable
  types : TypeMap

namespace CheckedProgram

/-- Joins a program with an analysis, unless the analysis has violations. -/
def ofAnalysis (program : Program) (analysis : Analysis) :
    Except (List SemanticError) CheckedProgram :=
  if analysis.isClean then
    .ok ⟨program, analysis.symbols, analysis.types⟩
  else
    .error analysis.errors

end CheckedProgram

def check (program : Program) : Except (List SemanticError) CheckedProgram :=
  CheckedProgram.ofAnalysis program (analyze program)

end TinyPascal
