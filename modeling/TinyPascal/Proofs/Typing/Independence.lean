import Mathlib.Tactic
import TinyPascal.Proofs.Typing.SourceOrder
import TinyPascal.Proofs.Typing.TypeMap

/-!
# Violations are independent

A program has sites where a rule can be broken: the nodes of its expressions, the names that are
given values, its assignments and its conditions. A site breaks its own rule only if all its
operands have types, so what is wrong with an operand is not reported again further up. The errors
of an analysis are one for each name that is declared again and one for each site that breaks its
rule, in the order in which the sites are visited.
-/
namespace TinyPascal

/-- What can break a rule of its own: a node of an expression, a name that a value is assigned to or
read into, the types of an assignment, and the condition of a statement. -/
inductive Site where
  | node (e : Expr)
  | target (target : Identifier)
  | types (target : Identifier) (value : Expr) (position : Position)
  | condition (condition : Expr) (position : Position)
deriving DecidableEq, Repr

namespace Site

/-- The expressions whose types a rule is about. The target of an assignment counts as one. -/
def operands : Site → List Expr
  | node (.neg operand _) => [operand]
  | node (.binary _ left right _) => [left, right]
  | node _ | target _ => []
  | types i value _ => [.var i.name i.position, value]
  | condition e _ => [e]

/-- The name that occurs at a site, as a variable or as a target. -/
def name? : Site → Option Identifier
  | node (.var name p) => some ⟨name, p⟩
  | target i => some i
  | _ => none

/-- `site.Breaks context error`: the operands of the site have types in the context, and the rule of
the site itself is broken, which is the error. -/
inductive Breaks (context : Context) : Site → SemanticError → Prop where
  | name {name : String} {p : Position} (h : ∀ type, ¬ context name type) :
      Breaks context (.node (.var name p)) ⟨.notDeclared name, p⟩
  | negation {operand : Expr} {p : Position} {found : Ty}
      (hoperand : operand.HasType context found) (h : found ≠ .integer) :
      Breaks context (.node (.neg operand p)) ⟨.unaryOperand found, p⟩
  | arithmetic {op : ArithmeticOp} {left right : Expr} {p : Position} {l r : Ty}
      (hleft : left.HasType context l) (hright : right.HasType context r)
      (h : ¬ (l = .integer ∧ r = .integer)) :
      Breaks context (.node (.binary (.arithmetic op) left right p))
        ⟨.arithmeticOperands op l r, p⟩
  | relational {op : RelationalOp} {left right : Expr} {p : Position} {l r : Ty}
      (hleft : left.HasType context l) (hright : right.HasType context r) (h : l ≠ r) :
      Breaks context (.node (.binary (.relational op) left right p))
        ⟨.relationalOperands op l r, p⟩
  | target {target : Identifier} (h : ∀ type, ¬ context target.name type) :
      Breaks context (.target target) ⟨.notDeclared target.name, target.position⟩
  | types {target : Identifier} {value : Expr} {p : Position} {expected found : Ty}
      (htarget : context target.name expected) (hvalue : value.HasType context found)
      (h : expected ≠ found) :
      Breaks context (.types target value p) ⟨.incompatibleTypes target.name expected found, p⟩
  | condition {condition : Expr} {p : Position} {found : Ty}
      (hcondition : condition.HasType context found) (h : found ≠ .integer) :
      Breaks context (.condition condition p) ⟨.conditionNotInteger found, p⟩

def charge? (symbols : SymbolTable) : Site → Option SemanticError
  | node (.int _ _) | node (.str _ _) => none
  | node (.var name p) => (symbols.undeclared name p).head?
  | node (.neg operand p) =>
    (operand.type? symbols).bind fun found =>
      if found = .integer then none else some ⟨.unaryOperand found, p⟩
  | node (.binary op left right p) =>
    (left.type? symbols).bind fun l => (right.type? symbols).bind fun r =>
      (op.violation? l r).map fun v => ⟨v, p⟩
  | target i => (symbols.undeclared i.name i.position).head?
  | types i value p =>
    (symbols.typeOf? i.name).bind fun expected => (value.type? symbols).bind fun found =>
      if expected = found then none else some ⟨.incompatibleTypes i.name expected found, p⟩
  | condition e p =>
    (e.type? symbols).bind fun found =>
      if found = .integer then none else some ⟨.conditionNotInteger found, p⟩

def charges (symbols : SymbolTable) (sites : List Site) : List SemanticError :=
  sites.filterMap (charge? symbols)

end Site

variable {symbols : SymbolTable}

theorem SymbolTable.head?_undeclared {name : String} {p : Position} {error : SemanticError} :
    (symbols.undeclared name p).head? = some error ↔
      (∀ type, ¬ symbols.context name type) ∧ error = ⟨.notDeclared name, p⟩ := by
  rw [← not_exists, ← undeclared_eq_nil_iff (p := p), undeclared]
  split_ifs <;> simp [eq_comm]

theorem BinaryOp.violation?_eq_some {op : BinaryOp} {l r : Ty} {v : Violation} :
    op.violation? l r = some v ↔
      (∃ a, op = .arithmetic a ∧ ¬ (l = .integer ∧ r = .integer) ∧ v = .arithmeticOperands a l r) ∨
      ∃ a, op = .relational a ∧ l ≠ r ∧ v = .relationalOperands a l r := by
  cases op with
  | arithmetic a | relational a =>
    rw [violation?]
    split_ifs <;> simp_all [eq_comm]

namespace Site

/-- A site is charged exactly with the rule that it breaks. -/
theorem charge?_eq_some_iff {site : Site} {error : SemanticError} :
    site.charge? symbols = some error ↔ site.Breaks symbols.context error := by
  cases site with
  | node e =>
    cases e with
    | int value p | str value p =>
      constructor
      · intro h
        cases h
      · intro h
        cases h
    | var name p =>
      rw [charge?, SymbolTable.head?_undeclared]
      constructor
      · rintro ⟨h, rfl⟩
        exact .name h
      · intro h
        cases h with
        | name h => exact ⟨h, rfl⟩
    | neg operand p =>
      simp only [charge?, Option.bind_eq_some_iff, Expr.type?_eq_some_iff_hasType]
      constructor
      · rintro ⟨found, hfound, h⟩
        split_ifs at h with hinteger
        cases h
        exact .negation hfound hinteger
      · intro h
        cases h with
        | negation hoperand h => exact ⟨_, hoperand, if_neg h⟩
    | binary op left right p =>
      simp only [charge?, Option.bind_eq_some_iff, Option.map_eq_some_iff,
        Expr.type?_eq_some_iff_hasType, BinaryOp.violation?_eq_some]
      constructor
      · rintro ⟨l, hl, r, hr, v, ⟨a, rfl, h, rfl⟩ | ⟨a, rfl, h, rfl⟩, rfl⟩
        · exact .arithmetic hl hr h
        · exact .relational hl hr h
      · intro h
        cases h with
        | arithmetic hl hr h => exact ⟨_, hl, _, hr, _, .inl ⟨_, rfl, h, rfl⟩, rfl⟩
        | relational hl hr h => exact ⟨_, hl, _, hr, _, .inr ⟨_, rfl, h, rfl⟩, rfl⟩
  | target target =>
    rw [charge?, SymbolTable.head?_undeclared]
    constructor
    · rintro ⟨h, rfl⟩
      exact .target h
    · intro h
      cases h with
      | target h => exact ⟨h, rfl⟩
  | types target value p =>
    simp only [charge?, Option.bind_eq_some_iff, Expr.type?_eq_some_iff_hasType]
    constructor
    · rintro ⟨expected, hexpected, found, hfound, h⟩
      split_ifs at h with heq
      cases h
      exact .types hexpected hfound heq
    · intro h
      cases h with
      | types htarget hvalue h => exact ⟨_, htarget, _, hvalue, if_neg h⟩
  | condition condition p =>
    simp only [charge?, Option.bind_eq_some_iff, Expr.type?_eq_some_iff_hasType]
    constructor
    · rintro ⟨found, hfound, h⟩
      split_ifs at h with hinteger
      cases h
      exact .condition hfound hinteger
    · intro h
      cases h with
      | condition hcondition h => exact ⟨_, hcondition, if_neg h⟩

/-- The operands of a site that breaks its rule have types. -/
theorem Breaks.hasType {context : Context} {site : Site} {error : SemanticError}
    (h : site.Breaks context error) {operand : Expr} (hoperand : operand ∈ site.operands) :
    ∃ type, operand.HasType context type := by
  cases h with
  | name | target => cases hoperand
  | negation htype | condition htype =>
    obtain rfl := List.mem_singleton.1 hoperand
    exact ⟨_, htype⟩
  | arithmetic hleft hright | relational hleft hright =>
    rcases List.mem_pair.1 hoperand with rfl | rfl
    · exact ⟨_, hleft⟩
    · exact ⟨_, hright⟩
  | types htarget hvalue =>
    rcases List.mem_pair.1 hoperand with rfl | rfl
    · exact ⟨_, .var _ htarget⟩
    · exact ⟨_, hvalue⟩

end Site

def Expr.sites (e : Expr) : List Site :=
  e.postorder.map Site.node

namespace Statement

mutual

/-- The sites of a statement, in the order in which they are visited. -/
def sites : Statement → List Site
  | assign target value p => .target target :: (value.sites ++ [.types target value p])
  | read targets _ => targets.map Site.target
  | write values _ => values.flatMap Expr.sites
  | block body _ => sitesOfAll body
  | ifThen condition consequent p =>
    condition.sites ++ .condition condition p :: consequent.sites
  | ifElse condition consequent alternative p =>
    condition.sites ++ .condition condition p :: (consequent.sites ++ alternative.sites)
  | whileDo condition body p => condition.sites ++ .condition condition p :: body.sites

def sitesOfAll : List Statement → List Site
  | [] => []
  | s :: rest => s.sites ++ sitesOfAll rest

end

end Statement

def Program.sites (program : Program) : List Site :=
  Statement.sitesOfAll program.statements

theorem SymbolTable.toList_head?_undeclared (symbols : SymbolTable) (name : String)
    (p : Position) : (symbols.undeclared name p).head?.toList = symbols.undeclared name p := by
  rw [undeclared]
  split_ifs <;> rfl

namespace Site

theorem charges_cons (site : Site) (sites : List Site) :
    charges symbols (site :: sites) = (site.charge? symbols).toList ++ charges symbols sites := by
  cases h : site.charge? symbols <;> simp [charges, h]

theorem charges_append (sites others : List Site) :
    charges symbols (sites ++ others) = charges symbols sites ++ charges symbols others :=
  List.filterMap_append

theorem charges_singleton (site : Site) :
    charges symbols [site] = (site.charge? symbols).toList := by
  rw [charges_cons]
  exact List.append_nil _

end Site

open Site (charges charge? charges_cons charges_append charges_singleton)

/-- What is wrong with an expression is what its sites are charged with. -/
theorem Expr.violations_eq_charges (symbols : SymbolTable) (e : Expr) :
    e.violations symbols = charges symbols e.sites := by
  induction e with
  | int value p | str value p =>
    rw [violations]
    rfl
  | var name p =>
    rw [violations, sites, postorder, List.map_singleton, charges_singleton, charge?,
      SymbolTable.toList_head?_undeclared]
  | neg operand p ih =>
    rw [violations, sites, postorder, List.map_append, charges_append, ih, sites,
      List.map_singleton, charges_singleton, charge?]
    congr 1
    cases htype : operand.type? symbols with
    | none => rfl
    | some type => cases type <;> rfl
  | binary op left right p ihl ihr =>
    rw [violations, sites, postorder, List.map_append, charges_append, List.map_append,
      charges_append, ihl, ihr, sites, sites, List.map_singleton, charges_singleton, charge?,
      List.append_assoc]
    congr 2
    cases hl : left.type? symbols with
    | none => rfl
    | some l =>
      cases hr : right.type? symbols with
      | none => rfl
      | some r => cases h : op.violation? l r <;> simp [h]

theorem Expr.conditionViolations_eq_charges (symbols : SymbolTable) (p : Position)
    (e : Expr) : e.conditionViolations symbols p =
      charges symbols e.sites ++ ((Site.condition e p).charge? symbols).toList := by
  rw [conditionViolations, violations_eq_charges, charge?]
  congr 1
  cases htype : e.type? symbols with
  | none => rfl
  | some type => cases type <;> rfl

theorem Identifier.assignmentViolations_eq_charges (symbols : SymbolTable) (i : Identifier)
    (value : Expr) (p : Position) : i.assignmentViolations symbols value p =
      ((Site.target i).charge? symbols).toList ++
        (charges symbols value.sites ++ ((Site.types i value p).charge? symbols).toList) := by
  rw [assignmentViolations, Expr.violations_eq_charges, charge?, charge?,
    SymbolTable.toList_head?_undeclared, List.append_assoc]
  congr 2
  cases htarget : symbols.typeOf? i.name with
  | none => rfl
  | some expected =>
    cases hvalue : value.type? symbols with
    | none => rfl
    | some found => by_cases h : expected = found <;> simp [h]

namespace Statement

mutual

theorem violations_eq_charges : ∀ s : Statement,
    s.violations symbols = charges symbols s.sites
  | assign target value p => by
    rw [violations, Identifier.assignmentViolations_eq_charges, sites, charges_cons,
      charges_append, charges_singleton]
  | read targets p => by
    rw [violations, sites]
    induction targets with
    | nil => rfl
    | cons target rest ih =>
      rw [List.flatMap_cons, List.map_cons, charges_cons, ← ih, charge?,
        SymbolTable.toList_head?_undeclared]
  | write values p => by
    rw [violations, sites]
    induction values with
    | nil => rfl
    | cons value rest ih =>
      rw [List.flatMap_cons, List.flatMap_cons, charges_append, ← ih,
        Expr.violations_eq_charges]
  | block body p => by
    rw [violations, sites]
    exact violationsOfAll_eq_charges body
  | ifThen condition consequent p => by
    rw [violations, sites, charges_append, charges_cons, Expr.conditionViolations_eq_charges,
      violations_eq_charges consequent, List.append_assoc]
  | ifElse condition consequent alternative p => by
    rw [violations, sites, charges_append, charges_cons, charges_append,
      Expr.conditionViolations_eq_charges, violations_eq_charges consequent,
      violations_eq_charges alternative, List.append_assoc, List.append_assoc]
  | whileDo condition body p => by
    rw [violations, sites, charges_append, charges_cons, Expr.conditionViolations_eq_charges,
      violations_eq_charges body, List.append_assoc]

theorem violationsOfAll_eq_charges : ∀ body : List Statement,
    violationsOfAll symbols body = charges symbols (sitesOfAll body)
  | [] => by
    rw [violationsOfAll, sitesOfAll]
    rfl
  | s :: rest => by
    rw [violationsOfAll, sitesOfAll, charges_append, violations_eq_charges s,
      violationsOfAll_eq_charges rest]

end

end Statement

/-- The context of a program in which names may be declared again: the first declaration of a name
gives its type. -/
def Program.FirstDeclares (program : Program) : Context := fun name type =>
  ∃ target, program.entries.find? (fun entry => entry.1.name == name) = some (target, type)

/-- The names that a program declares, each as often as it is declared. -/
def Program.declared (program : Program) : List String :=
  program.entries.map fun entry => entry.1.name

theorem Program.context_symbols (program : Program) :
    (analyze program).symbols.context = program.FirstDeclares := by
  funext name type
  rw [eq_iff_iff, SymbolTable.context, SymbolTable.typeOf?, FirstDeclares]
  simp only [analyze, SymbolTable.getElem?_declareAll, Std.TreeMap.getElem?_emptyc, Option.none_or,
    Option.map_map, Option.map_eq_some_iff, Function.comp_apply, Prod.exists, exists_eq_right]

theorem Program.mem_declared {program : Program} {name : String} :
    name ∈ program.declared ↔ ∃ type, (analyze program).symbols.context name type := by
  rw [context_symbols, declared, List.mem_map]
  constructor
  · rintro ⟨entry, hentry, hname⟩
    obtain ⟨⟨target, type⟩, hfound⟩ : ∃ found,
        program.entries.find? (fun other => other.1.name == name) = some found := by
      rw [← Option.isSome_iff_exists, List.find?_isSome]
      exact ⟨entry, hentry, by simpa using hname⟩
    exact ⟨type, target, hfound⟩
  · rintro ⟨type, target, hfound⟩
    exact ⟨_, List.mem_of_find?_eq_some hfound, by simpa using List.find?_some hfound⟩

/-- A list has one more different element than the part of it without its first. -/
theorem length_dedup_cons (name : String) (names : List String) :
    (name :: names).dedup.length = (names.filter (· ≠ name)).dedup.length + 1 := by
  have herase : (names.filter (· ≠ name)).toFinset = names.toFinset.erase name := by
    ext other
    simp [and_comm]
  rw [← List.card_toFinset, ← List.card_toFinset, herase,
    ← Finset.card_insert_of_notMem (Finset.notMem_erase name _)]
  congr 1
  ext other
  by_cases h : other = name <;> simp [h]

/-- Every declaration is either the first of its name or charged. -/
theorem SymbolTable.length_declareAll_errors (symbols : SymbolTable)
    (entries : List (Identifier × Ty)) :
    (symbols.declareAll entries).2.length +
        ((entries.map fun entry => entry.1.name).filter fun name =>
          !symbols.contains name).dedup.length = entries.length := by
  induction entries generalizing symbols with
  | nil => rfl
  | cons entry entries ih =>
    obtain ⟨target, type⟩ := entry
    cases hmem : symbols.contains target.name with
    | true =>
      have hrest := ih symbols
      rw [declareAll_cons_of_bound hmem, List.map_cons, List.filter_cons_of_neg (by simp [hmem]),
        List.length_cons, List.length_cons]
      omega
    | false =>
      have hrest := ih (symbols.insert target.name ⟨type, target.position⟩)
      have hnew :
          (fun name => !(symbols.insert target.name ⟨type, target.position⟩).contains name) =
            fun name => decide (name ≠ target.name) && !symbols.contains name := by
        funext name
        by_cases h : name = target.name
        · simp [h]
        · simp [h, Ne.symm h]
      rw [hnew] at hrest
      rw [declareAll_cons_of_new hmem, List.map_cons, List.filter_cons_of_pos (by simp [hmem]),
        length_dedup_cons, List.filter_filter, List.length_cons, ← hrest, Nat.add_assoc]

def Violation.isUndeclared : Violation → Bool
  | notDeclared _ => true
  | _ => false

/-- The names that occur in a program as variables or targets, in the order in which they are
visited. -/
def Program.occurrences (program : Program) : List Identifier :=
  program.sites.filterMap Site.name?

def Identifier.undeclaredError (i : Identifier) : SemanticError :=
  ⟨.notDeclared i.name, i.position⟩

namespace Site

theorem Breaks.isUndeclared {context : Context} {site : Site} {error : SemanticError}
    (h : site.Breaks context error) : error.violation.isUndeclared = site.name?.isSome := by
  cases h <;> rfl

theorem charge?_of_name? {site : Site} {i : Identifier} (h : site.name? = some i) :
    site.charge? symbols = (symbols.undeclared i.name i.position).head? := by
  cases site with
  | node e =>
    cases e with
    | var name p =>
      cases h
      rfl
    | int | str | neg | binary => cases h
  | target target =>
    cases h
    rfl
  | types | condition => cases h

theorem filter_charge? (program : Program) (site : Site) :
    (site.charge? (analyze program).symbols).filter (fun e => e.violation.isUndeclared) =
      (site.name?.filter fun i => i.name ∉ program.declared).map Identifier.undeclaredError := by
  cases hname : site.name? with
  | none =>
    rw [Option.filter_none, Option.map_none, Option.filter_eq_none_iff]
    intro error herror
    have hbreaks := (charge?_eq_some_iff.1 herror).isUndeclared
    simp [hbreaks, hname]
  | some i =>
    rw [charge?_of_name? hname]
    by_cases hdeclared : i.name ∈ program.declared
    · rw [SymbolTable.undeclared_eq_nil_iff.2 (Program.mem_declared.1 hdeclared)]
      simp [hdeclared]
    · have herror : ((analyze program).symbols.undeclared i.name i.position).head? =
          some i.undeclaredError :=
        SymbolTable.head?_undeclared.2 ⟨not_exists.1 (mt Program.mem_declared.2 hdeclared), rfl⟩
      rw [herror, Option.filter_some, Option.filter_some, if_pos (decide_eq_true hdeclared)]
      rfl

end Site

namespace Program

/-- As many declarations are charged as there are more of them than different names. -/
theorem length_repeated (program : Program) :
    (SymbolTable.declareAll ∅ program.entries).2.length =
      program.declared.length - program.declared.dedup.length := by
  have hlength := SymbolTable.length_declareAll_errors ∅ program.entries
  have hall : (program.entries.map fun entry => entry.1.name).filter
      (fun name => !(∅ : SymbolTable).contains name) = program.declared :=
    List.filter_eq_self.2 (by simp)
  have hdeclared : program.declared.length = program.entries.length := List.length_map _
  rw [hall] at hlength
  omega

/-- The errors of a program are those of its declarations and those of its sites. -/
theorem errors_eq (program : Program) :
    (analyze program).errors = (SymbolTable.declareAll ∅ program.entries).2 ++
      charges (analyze program).symbols program.sites := by
  rw [sites, ← Statement.violationsOfAll_eq_charges]
  rfl

theorem filter_errors (program : Program) :
    (analyze program).errors.filter (fun e => e.violation.isUndeclared) =
      (program.occurrences.filter fun i => i.name ∉ program.declared).map
        Identifier.undeclaredError := by
  have hrepeated : (SymbolTable.declareAll ∅ program.entries).2.filter
      (fun e => e.violation.isUndeclared) = [] := by
    rw [List.filter_eq_nil_iff]
    intro e he
    have hrepetition := (SymbolTable.declareAll_errors ∅ program.entries).1 e he
    cases hviolation : e.violation <;>
      simp_all [Violation.isRepetition, Violation.isUndeclared]
  rw [errors_eq, List.filter_append, hrepeated, List.nil_append, charges, occurrences,
    List.filter_filterMap, List.filter_filterMap, List.map_filterMap]
  simp only [Site.filter_charge?]

end Program

theorem Expr.type?_eq_none_iff {e : Expr} :
    e.type? symbols = none ↔ e.violations symbols ≠ [] := by
  rw [ne_eq, violations_eq_nil_iff, not_exists, Option.eq_none_iff_forall_ne_some]
  simp only [ne_eq, type?_eq_some_iff_hasType]

/-- Every violation is reported once, where it is, and nothing follows from another. An expression
has no type exactly if some error is recorded within it. Where no two nodes share a place, its type
is the one that the analysis keeps. A site is charged exactly if its operands have types and its own
rule is broken, and then nothing is charged within its operands. The errors of the analysis are
those of the names that are declared again and those of the sites; among them, every occurrence of a
name that is not declared has one. -/
theorem violations_are_independent (program : Program) :
    let symbols := (analyze program).symbols
    let errors := (analyze program).errors
    (∀ e : Expr, (∀ type, e.type? symbols = some type ↔ e.HasType program.FirstDeclares type) ∧
      e.violations symbols = charges symbols e.sites ∧
      (e.type? symbols = none ↔ e.violations symbols ≠ [])) ∧
    ((program.nodes.map Expr.position).Nodup →
      ∀ e ∈ program.nodes, (analyze program).typeOf? e = e.type? symbols) ∧
    (∀ site error, charge? symbols site = some error ↔ site.Breaks program.FirstDeclares error) ∧
    (∀ site error, charge? symbols site = some error →
      ∀ operand ∈ site.operands, operand.violations symbols = []) ∧
    (∃ repeated, errors = repeated ++ charges symbols program.sites ∧
      (∀ e ∈ repeated, e.violation.isRepetition = true) ∧
      repeated.length = program.declared.length - program.declared.dedup.length) ∧
    errors.filter (fun e => e.violation.isUndeclared) =
      (program.occurrences.filter fun i => i.name ∉ program.declared).map
        Identifier.undeclaredError ∧
    errors.length = program.sites.countP (fun site => (charge? symbols site).isSome) +
      (program.declared.length - program.declared.dedup.length) := by
  intro symbols errors
  have hcontext : symbols.context = program.FirstDeclares := program.context_symbols
  refine ⟨?_, fun hnodup e => Program.typeOf?_analyze_of_nodup hnodup, ?_, ?_, ?_,
    program.filter_errors, ?_⟩
  · intro e
    refine ⟨fun type => ?_, e.violations_eq_charges symbols, Expr.type?_eq_none_iff⟩
    rw [Expr.type?_eq_some_iff_hasType, hcontext]
  · intro site error
    rw [Site.charge?_eq_some_iff, hcontext]
  · intro site error herror operand hoperand
    rw [Expr.violations_eq_nil_iff]
    exact (Site.charge?_eq_some_iff.1 herror).hasType hoperand
  · exact ⟨_, program.errors_eq, (SymbolTable.declareAll_errors ∅ program.entries).1,
      program.length_repeated⟩
  · have herrors : errors = _ := program.errors_eq
    rw [herrors, List.length_append, program.length_repeated, charges,
      List.length_filterMap_eq_countP, Nat.add_comm]

/-- Of `x := -('a' + y)` with `x` declared twice and `y` not at all, only this is reported: neither
the sum nor its opposite nor the assignment has operands with types. -/
example :
    (analyze ⟨⟨"p", .start⟩, [⟨[⟨"x", ⟨1, 1⟩⟩, ⟨"x", ⟨1, 4⟩⟩], .integer, .start⟩],
      [.assign ⟨"x", ⟨2, 1⟩⟩ (.neg (.binary (.arithmetic .add) (.str "a" ⟨2, 8⟩)
        (.var "y" ⟨2, 14⟩) ⟨2, 12⟩) ⟨2, 6⟩) ⟨2, 1⟩], .start⟩).errors =
      [⟨.alreadyDeclared "x", ⟨1, 4⟩⟩, ⟨.notDeclared "y", ⟨2, 14⟩⟩] := by
  decide +kernel

end TinyPascal
