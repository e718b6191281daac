import TinyPascal.Proofs.Typing.Declarations
import TinyPascal.Proofs.Typing.Erasure

/-!
# Variables that occur

What is wrong with the statements of a program depends on the types of the variables that occur in
them. A program may declare more names than that. If each of these is declared once, the violations
of the program and the types of its expressions are the same as without them.
-/
namespace TinyPascal

def Expr.mentions : Expr → List String
  | int _ _ | str _ _ => []
  | var name _ => [name]
  | neg operand _ => operand.mentions
  | binary _ left right _ => left.mentions ++ right.mentions

namespace Statement

mutual

/-- The names that occur in a statement, whether they are used or changed there. -/
def mentions : Statement → List String
  | assign target value _ => target.name :: value.mentions
  | read targets _ => targets.map Identifier.name
  | write values _ => values.flatMap Expr.mentions
  | block body _ => mentionsOfAll body
  | ifThen condition consequent _ => condition.mentions ++ consequent.mentions
  | ifElse condition consequent alternative _ =>
    condition.mentions ++ (consequent.mentions ++ alternative.mentions)
  | whileDo condition body _ => condition.mentions ++ body.mentions

def mentionsOfAll : List Statement → List String
  | [] => []
  | s :: rest => s.mentions ++ mentionsOfAll rest

end

end Statement

def SymbolTable.AgreesOn (names : List String) (symbols other : SymbolTable) : Prop :=
  ∀ name ∈ names, other.typeOf? name = symbols.typeOf? name

section

variable {names : List String} {symbols other : SymbolTable}

theorem SymbolTable.AgreesOn.undeclared_eq (h : symbols.AgreesOn names other) {name : String}
    (hname : name ∈ names) (p : Position) :
    other.undeclared name p = symbols.undeclared name p := by
  rw [undeclared, undeclared, contains_eq_isSome_typeOf?, contains_eq_isSome_typeOf?, h name hname]

namespace Expr

theorem type?_eq (h : symbols.AgreesOn names other) {e : Expr} (he : e.mentions ⊆ names) :
    e.type? other = e.type? symbols := by
  induction e with
  | int value p | str value p => rfl
  | var name p => exact h name (he List.mem_cons_self)
  | neg operand p ih => rw [type?, type?, ih he]
  | binary op left right p ihl ihr =>
    rw [mentions, List.append_subset] at he
    rw [type?, type?, ihl he.1, ihr he.2]

theorem violations_eq (h : symbols.AgreesOn names other) {e : Expr} (he : e.mentions ⊆ names) :
    e.violations other = e.violations symbols := by
  induction e with
  | int value p | str value p => rfl
  | var name p => exact h.undeclared_eq (he List.mem_cons_self) p
  | neg operand p ih =>
    rw [mentions] at he
    rw [violations, violations, ih he, type?_eq h he]
  | binary op left right p ihl ihr =>
    rw [mentions, List.append_subset] at he
    rw [violations, violations, ihl he.1, ihr he.2, type?_eq h he.1, type?_eq h he.2]

theorem typings_eq (h : symbols.AgreesOn names other) {e : Expr} (he : e.mentions ⊆ names) :
    e.typings other = e.typings symbols := by
  induction e with
  | int value p | str value p => rfl
  | var name p => rw [typings, typings, type?_eq h he]
  | neg operand p ih => rw [typings, typings, ih he, type?_eq h he]
  | binary op left right p ihl ihr =>
    have hparts := he
    rw [mentions, List.append_subset] at hparts
    rw [typings, typings, ihl hparts.1, ihr hparts.2, type?_eq h he]

theorem conditionViolations_eq (h : symbols.AgreesOn names other) {condition : Expr}
    (hcondition : condition.mentions ⊆ names) (p : Position) :
    condition.conditionViolations other p = condition.conditionViolations symbols p := by
  rw [conditionViolations, conditionViolations, violations_eq h hcondition,
    type?_eq h hcondition]

end Expr

theorem Identifier.assignmentViolations_eq (h : symbols.AgreesOn names other)
    {target : Identifier} {value : Expr} (htarget : target.name ∈ names)
    (hvalue : value.mentions ⊆ names) (p : Position) :
    target.assignmentViolations other value p = target.assignmentViolations symbols value p := by
  rw [assignmentViolations, assignmentViolations, h.undeclared_eq htarget,
    Expr.violations_eq h hvalue, Expr.type?_eq h hvalue, h _ htarget]

namespace Statement

mutual

theorem violations_eq (h : symbols.AgreesOn names other) : ∀ s : Statement, s.mentions ⊆ names →
    s.violations other = s.violations symbols
  | .assign target value p, hs => by
    rw [mentions, List.cons_subset] at hs
    rw [violations, violations, Identifier.assignmentViolations_eq h hs.1 hs.2]
  | .read targets _, hs => by
    rw [mentions] at hs
    rw [violations, violations]
    exact List.flatMap_congr fun target htarget =>
      h.undeclared_eq (hs (List.mem_map_of_mem htarget)) target.position
  | .write values _, hs => by
    rw [mentions] at hs
    rw [violations, violations]
    refine List.flatMap_congr fun value hvalue => Expr.violations_eq h fun name hname => ?_
    exact hs (List.mem_flatMap_of_mem hvalue hname)
  | .block body _, hs => by
    rw [mentions] at hs
    rw [violations, violations, violationsOfAll_eq h body hs]
  | .ifThen condition consequent p, hs => by
    rw [mentions, List.append_subset] at hs
    rw [violations, violations, Expr.conditionViolations_eq h hs.1, violations_eq h consequent hs.2]
  | .ifElse condition consequent alternative p, hs => by
    rw [mentions, List.append_subset, List.append_subset] at hs
    rw [violations, violations, Expr.conditionViolations_eq h hs.1,
      violations_eq h consequent hs.2.1, violations_eq h alternative hs.2.2]
  | .whileDo condition body p, hs => by
    rw [mentions, List.append_subset] at hs
    rw [violations, violations, Expr.conditionViolations_eq h hs.1, violations_eq h body hs.2]

theorem violationsOfAll_eq (h : symbols.AgreesOn names other) : ∀ body : List Statement,
    mentionsOfAll body ⊆ names → violationsOfAll other body = violationsOfAll symbols body
  | [], _ => rfl
  | s :: rest, hs => by
    rw [mentionsOfAll, List.append_subset] at hs
    rw [violationsOfAll, violationsOfAll, violations_eq h s hs.1, violationsOfAll_eq h rest hs.2]

end

mutual

theorem mentions_subset : ∀ (s : Statement) {e : Expr}, e ∈ s.expressions →
    e.mentions ⊆ s.mentions
  | .assign target value _, e, he => by
    rw [expressions, List.mem_singleton] at he
    subst he
    exact List.subset_cons_self _ _
  | .read _ _, _, he => nomatch he
  | .write values _, e, he => fun _ hname => List.mem_flatMap_of_mem he hname
  | .block body _, e, he => mentionsOfAll_subset body he
  | .ifThen condition consequent _, e, he => by
    rw [expressions, List.mem_cons] at he
    rcases he with rfl | he
    · exact List.subset_append_left _ _
    · exact List.subset_append_of_subset_right _ (mentions_subset consequent he)
  | .ifElse condition consequent alternative _, e, he => by
    rw [expressions, List.mem_cons, List.mem_append] at he
    rcases he with rfl | he | he
    · exact List.subset_append_left _ _
    · exact List.subset_append_of_subset_right _
        (List.subset_append_of_subset_left _ (mentions_subset consequent he))
    · exact List.subset_append_of_subset_right _
        (List.subset_append_of_subset_right _ (mentions_subset alternative he))
  | .whileDo condition body _, e, he => by
    rw [expressions, List.mem_cons] at he
    rcases he with rfl | he
    · exact List.subset_append_left _ _
    · exact List.subset_append_of_subset_right _ (mentions_subset body he)

theorem mentionsOfAll_subset : ∀ (body : List Statement) {e : Expr}, e ∈ expressionsOfAll body →
    e.mentions ⊆ mentionsOfAll body
  | [], _, he => nomatch he
  | s :: rest, e, he => by
    rw [expressionsOfAll, List.mem_append] at he
    rcases he with he | he
    · exact List.subset_append_of_subset_left _ (mentions_subset s he)
    · exact List.subset_append_of_subset_right _ (mentionsOfAll_subset rest he)

end

end Statement

end

namespace Identifier

theorem repeatedAfter_congr {known known' : String → Bool} {names : List Identifier}
    (h : ∀ target ∈ names, known target.name = known' target.name) :
    repeatedAfter known names = repeatedAfter known' names := by
  rw [repeatedAfter, repeatedAfter]
  congr 1
  exact List.filter_congr fun pair hmem => congrArg (· || _) (h pair.1 (List.of_mem_zip hmem).1)

/-- Names that occur once in a list make no repetitions, and may be left out. -/
theorem repeatedAfter_filter (fresh : String → Bool) {known : String → Bool}
    {names : List Identifier}
    (hnew : ∀ target ∈ names, fresh target.name = true → known target.name = false)
    (honce : ((names.map Identifier.name).filter fresh).Nodup) :
    repeatedAfter known (names.filter fun target => !fresh target.name) =
      repeatedAfter known names := by
  induction names generalizing known with
  | nil => rfl
  | cons target names ih =>
    rw [List.forall_mem_cons] at hnew
    cases hfresh : fresh target.name with
    | true =>
      rw [List.map_cons, List.filter_cons_of_pos hfresh, List.nodup_cons] at honce
      have hother : ∀ other ∈ names, fresh other.name = true → target.name ≠ other.name := by
        intro other hmem hother hname
        apply honce.1
        rw [hname]
        exact List.mem_filter.2 ⟨List.mem_map_of_mem hmem, hother⟩
      have hrest := @ih (fun name => target.name == name || known name)
        (fun other hmem h => by simp [hother other hmem h, hnew.2 other hmem h]) honce.2
      rw [List.filter_cons_of_neg (by simp [hfresh]), repeatedAfter_cons, hnew.1 hfresh,
        if_neg Bool.false_ne_true, List.nil_append, ← hrest]
      refine repeatedAfter_congr fun other hmem => ?_
      have hstale : fresh other.name = false := by simpa using (List.mem_filter.1 hmem).2
      have hne : target.name ≠ other.name := by
        intro hname
        rw [hname, hstale] at hfresh
        cases hfresh
      simp [hne]
    | false =>
      rw [List.map_cons, List.filter_cons_of_neg (by simp [hfresh])] at honce
      rw [List.filter_cons_of_pos (by simp [hfresh]), repeatedAfter_cons, repeatedAfter_cons]
      congr 1
      refine ih (fun other hmem hother => ?_) honce
      have hne : target.name ≠ other.name := by
        intro hname
        rw [hname, hother] at hfresh
        cases hfresh
      simp [hne, hnew.2 other hmem hother]

end Identifier

/-- `program.AddsUnused unused larger`: the two programs differ in their declarations. Those of
`larger` are those of `program`, with the names `unused` declared once each, anywhere among them and
with any types. None of these names occurs in `program`. -/
structure Program.AddsUnused (unused : List String) (program larger : Program) : Prop where
  name : larger.name = program.name
  statements : larger.statements = program.statements
  entries : larger.entries.filter (fun entry => !decide (entry.1.name ∈ unused)) = program.entries
  once : ((larger.names.map Identifier.name).filter (· ∈ unused)).Nodup
  absent : ∀ name ∈ unused, name ∉ Statement.mentionsOfAll program.statements

theorem eq_of_check {program : Program} {checked : CheckedProgram}
    (h : check program = .ok checked) :
    checked = ⟨program, (analyze program).symbols, (analyze program).types⟩ := by
  unfold check CheckedProgram.ofAnalysis at h
  split_ifs at h
  cases h
  rfl

namespace Program.AddsUnused

variable {unused : List String} {program larger : Program}

/-- The names that occur in the statements have the same declarations. -/
theorem getElem?_symbols (h : program.AddsUnused unused larger) {name : String}
    (hname : name ∈ Statement.mentionsOfAll program.statements) :
    (analyze larger).symbols[name]? = (analyze program).symbols[name]? := by
  rw [Program.getElem?_symbols, Program.getElem?_symbols, ← h.entries, List.find?_filter]
  congr 1
  refine List.find?_congr fun entry hentry => ?_
  by_cases hentry : entry.1.name = name
  · have hused : name ∉ unused := fun hmem => h.absent name hmem hname
    simp [hentry, hused]
  · simp [hentry]

theorem agreesOn (h : program.AddsUnused unused larger) :
    (analyze program).symbols.AgreesOn (Statement.mentionsOfAll program.statements)
      (analyze larger).symbols := fun name hname => by
  rw [SymbolTable.typeOf?, SymbolTable.typeOf?, h.getElem?_symbols hname]

theorem names_eq (h : program.AddsUnused unused larger) :
    larger.names.filter (fun target => !decide (target.name ∈ unused)) = program.names := by
  rw [← map_entries_fst, ← map_entries_fst, ← h.entries, List.filter_map]
  rfl

/-- Names that are declared once and do not occur elsewhere violate nothing. -/
theorem errors_eq (h : program.AddsUnused unused larger) :
    (analyze larger).errors = (analyze program).errors := by
  have hrepeated : Identifier.repeated larger.names = Identifier.repeated program.names := by
    rw [← h.names_eq]
    exact (Identifier.repeatedAfter_filter (· ∈ unused) (fun _ _ _ => rfl) h.once).symm
  change (SymbolTable.declareAll ∅ larger.entries).2 ++ _ =
    (SymbolTable.declareAll ∅ program.entries).2 ++ _
  rw [repetitions_eq, repetitions_eq, hrepeated, h.statements]
  congr 1
  exact Statement.violationsOfAll_eq h.agreesOn program.statements (List.Subset.refl _)

theorem types_eq (h : program.AddsUnused unused larger) :
    (analyze larger).types = (analyze program).types := by
  change Std.TreeMap.ofList _ _ = Std.TreeMap.ofList _ _
  rw [h.statements]
  congr 1
  exact List.flatMap_congr fun e he =>
    Expr.typings_eq h.agreesOn (Statement.mentionsOfAll_subset program.statements he)

/-- The larger program is checked with the same result, apart from its declarations. -/
theorem check_eq (h : program.AddsUnused unused larger) :
    check larger = (check program).map fun checked =>
      ⟨larger, (analyze larger).symbols, checked.types⟩ := by
  rw [check, check, CheckedProgram.ofAnalysis, CheckedProgram.ofAnalysis, Analysis.isClean,
    Analysis.isClean, h.errors_eq, h.types_eq]
  split <;> rfl

end Program.AddsUnused

end TinyPascal
