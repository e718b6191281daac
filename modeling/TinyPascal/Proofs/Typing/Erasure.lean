import TinyPascal.Proofs.Syntax.WellFormed
import TinyPascal.Proofs.Typing.Judgement

/-!
# Analysis without positions

The check of a program depends on names and types. A program without positions has the same symbols
with the same types, and the same violations in the same order, each without its place.
-/
namespace TinyPascal

def SemanticError.erase (e : SemanticError) : SemanticError := ⟨e.violation, .start⟩

namespace SymbolTable

/-- Two symbol tables declare the same names with the same types. -/
def Agrees (symbols other : SymbolTable) : Prop :=
  ∀ name, other.typeOf? name = symbols.typeOf? name

variable {symbols other : SymbolTable}

theorem contains_eq_isSome_typeOf? (symbols : SymbolTable) (name : String) :
    symbols.contains name = (symbols.typeOf? name).isSome := by
  rw [Std.TreeMap.contains_eq_isSome_getElem?, typeOf?, Option.isSome_map]

namespace Agrees

theorem refl (symbols : SymbolTable) : symbols.Agrees symbols := fun _ => rfl

theorem symm (h : symbols.Agrees other) : other.Agrees symbols := fun name => (h name).symm

theorem contains_eq (h : Agrees symbols other) (name : String) :
    other.contains name = symbols.contains name := by
  rw [contains_eq_isSome_typeOf?, contains_eq_isSome_typeOf?, h name]

theorem insert (h : Agrees symbols other) (target : String) (type : Ty) (p q : Position) :
    Agrees (symbols.insert target ⟨type, p⟩) (other.insert target ⟨type, q⟩) := by
  intro name
  rw [typeOf?_insert, typeOf?_insert, h name]

theorem undeclared_eq (h : Agrees symbols other) (name : String) (p : Position) :
    other.undeclared name .start = (symbols.undeclared name p).map SemanticError.erase := by
  rw [undeclared, undeclared, h.contains_eq]
  split <;> rfl

theorem declareAll (h : Agrees symbols other) (entries : List (Identifier × Ty)) :
    Agrees (symbols.declareAll entries).1
        (other.declareAll (entries.map fun entry => (entry.1.erase, entry.2))).1 ∧
      (other.declareAll (entries.map fun entry => (entry.1.erase, entry.2))).2 =
        (symbols.declareAll entries).2.map SemanticError.erase := by
  induction entries generalizing symbols other with
  | nil => exact ⟨h, rfl⟩
  | cons entry entries ih =>
    obtain ⟨target, type⟩ := entry
    rw [List.map_cons]
    cases hmem : symbols.contains target.name with
    | true =>
      have hmem' : other.contains target.erase.name = true := (h.contains_eq _).trans hmem
      rw [declareAll_cons_of_bound hmem, declareAll_cons_of_bound hmem']
      obtain ⟨hagrees, herrors⟩ := ih h
      exact ⟨hagrees, by rw [herrors]; rfl⟩
    | false =>
      have hmem' : other.contains target.erase.name = false := (h.contains_eq _).trans hmem
      rw [declareAll_cons_of_new hmem, declareAll_cons_of_new hmem']
      exact ih (h.insert target.name type target.position .start)

end Agrees

end SymbolTable

variable {symbols other : SymbolTable}

namespace Expr

theorem type?_erase (h : symbols.Agrees other) (e : Expr) :
    e.erase.type? other = e.type? symbols := by
  induction e with
  | int value p | str value p => rfl
  | var name p => exact h name
  | neg operand p ih => rw [erase, type?, type?, ih]
  | binary op left right p ihl ihr => rw [erase, type?, type?, ihl, ihr]

theorem violations_erase (h : symbols.Agrees other) (e : Expr) :
    e.erase.violations other = (e.violations symbols).map SemanticError.erase := by
  induction e with
  | int value p | str value p => rfl
  | var name p => exact h.undeclared_eq name p
  | neg operand p ih =>
    rw [erase, violations, violations, ih, type?_erase h, List.map_append]
    congr 1
    split <;> rfl
  | binary op left right p ihl ihr =>
    rw [erase, violations, violations, ihl, ihr, type?_erase h, type?_erase h, List.map_append,
      List.map_append]
    congr 1
    split
    · rw [List.map_map]
      rfl
    · rfl

theorem conditionViolations_erase (h : symbols.Agrees other) (condition : Expr) (p : Position) :
    condition.erase.conditionViolations other .start =
      (condition.conditionViolations symbols p).map SemanticError.erase := by
  rw [conditionViolations, conditionViolations, violations_erase h, type?_erase h, List.map_append]
  congr 1
  split <;> rfl

end Expr

theorem Identifier.assignmentViolations_erase (h : symbols.Agrees other) (target : Identifier)
    (value : Expr) (p : Position) :
    target.erase.assignmentViolations other value.erase .start =
      (target.assignmentViolations symbols value p).map SemanticError.erase := by
  have hundeclared := h.undeclared_eq target.name target.position
  have htype : other.typeOf? target.erase.name = symbols.typeOf? target.name := h target.name
  rw [assignmentViolations, assignmentViolations, Expr.violations_erase h, Expr.type?_erase h,
    htype, List.map_append, List.map_append, ← hundeclared]
  congr 1
  split
  · split <;> rfl
  · rfl

namespace Statement

mutual

theorem violations_erase (h : symbols.Agrees other) : ∀ s : Statement,
    s.erase.violations other = (s.violations symbols).map SemanticError.erase
  | .assign target value p => by
    rw [erase, violations, violations, target.assignmentViolations_erase h value p]
  | .read targets _ => by
    rw [erase, violations, violations, List.flatMap_map, List.map_flatMap]
    exact List.flatMap_congr fun target _ => h.undeclared_eq target.name target.position
  | .write values _ => by
    rw [erase, violations, violations, List.flatMap_map, List.map_flatMap]
    exact List.flatMap_congr fun value _ => value.violations_erase h
  | .block body _ => by rw [erase, violations, violations, violationsOfAll_eraseAll h body]
  | .ifThen condition consequent p => by
    rw [erase, violations, violations, condition.conditionViolations_erase h p,
      violations_erase h consequent, List.map_append]
  | .ifElse condition consequent alternative p => by
    rw [erase, violations, violations, condition.conditionViolations_erase h p,
      violations_erase h consequent, violations_erase h alternative, List.map_append,
      List.map_append]
  | .whileDo condition body p => by
    rw [erase, violations, violations, condition.conditionViolations_erase h p,
      violations_erase h body, List.map_append]

theorem violationsOfAll_eraseAll (h : symbols.Agrees other) : ∀ body : List Statement,
    violationsOfAll other (eraseAll body) = (violationsOfAll symbols body).map SemanticError.erase
  | [] => rfl
  | s :: rest => by
    rw [eraseAll, violationsOfAll, violationsOfAll, violations_erase h s,
      violationsOfAll_eraseAll h rest, List.map_append]

end

end Statement

theorem Program.entries_erase (program : Program) :
    program.erase.entries = program.entries.map fun entry => (entry.1.erase, entry.2) := by
  simp [Program.erase, entries, Declaration.entries, Declaration.erase, List.flatMap_map,
    List.map_flatMap, Function.comp_def]

/-- The analysis of a program without positions has the same symbols and violations. -/
theorem analyze_erase (program : Program) :
    (analyze program).symbols.Agrees (analyze program.erase).symbols ∧
      (analyze program.erase).errors = (analyze program).errors.map SemanticError.erase := by
  obtain ⟨hsymbols, hrepeated⟩ := (SymbolTable.Agrees.refl ∅).declareAll program.entries
  rw [← program.entries_erase] at hsymbols hrepeated
  refine ⟨hsymbols, ?_⟩
  change _ ++ _ = (_ ++ _ : List SemanticError).map _
  rw [hrepeated, List.map_append]
  congr 1
  exact Statement.violationsOfAll_eraseAll hsymbols program.statements

end TinyPascal
