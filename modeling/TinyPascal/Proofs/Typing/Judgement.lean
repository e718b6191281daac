import Mathlib.Tactic
import TinyPascal.Proofs.Typing.Evaluation
import TinyPascal.Typing.Analysis

/-!
# The type system

The rules of the language as judgements: which expressions have which types in a context, and which
statements and programs obey the rules. No order of checking and no violation occurs in them. The
analysis decides them: it finds nothing wrong with a program exactly if the program obeys the rules.
-/
namespace TinyPascal

abbrev Context := String → Ty → Prop

/-- `e.HasType context type`: the expression has the type in the context. -/
inductive Expr.HasType (context : Context) : Expr → Ty → Prop where
  | int (value : Integer) (p : Position) : HasType context (.int value p) .integer
  | str (value : String) (p : Position) : HasType context (.str value p) .string
  | var {name : String} {type : Ty} (p : Position) (hname : context name type) :
      HasType context (.var name p) type
  | neg {operand : Expr} (p : Position) (hoperand : HasType context operand .integer) :
      HasType context (.neg operand p) .integer
  | arithmetic (op : ArithmeticOp) {left right : Expr} (p : Position)
      (hleft : HasType context left .integer) (hright : HasType context right .integer) :
      HasType context (.binary (.arithmetic op) left right p) .integer
  | relational (op : RelationalOp) {left right : Expr} {type : Ty} (p : Position)
      (hleft : HasType context left type) (hright : HasType context right type) :
      HasType context (.binary (.relational op) left right p) .integer

/-- `s.IsTyped context`: the statement obeys the rules in the context. -/
inductive Statement.IsTyped (context : Context) : Statement → Prop where
  | assign {target : Identifier} {value : Expr} {type : Ty} (p : Position)
      (htarget : context target.name type) (hvalue : value.HasType context type) :
      IsTyped context (.assign target value p)
  | read {targets : List Identifier} (p : Position)
      (htargets : ∀ target ∈ targets, ∃ type, context target.name type) :
      IsTyped context (.read targets p)
  | write {values : List Expr} (p : Position)
      (hvalues : ∀ value ∈ values, ∃ type, value.HasType context type) :
      IsTyped context (.write values p)
  | block {body : List Statement} (p : Position) (hbody : ∀ s ∈ body, IsTyped context s) :
      IsTyped context (.block body p)
  | ifThen {condition : Expr} {consequent : Statement} (p : Position)
      (hcondition : condition.HasType context .integer) (hconsequent : IsTyped context consequent) :
      IsTyped context (.ifThen condition consequent p)
  | ifElse {condition : Expr} {consequent alternative : Statement} (p : Position)
      (hcondition : condition.HasType context .integer) (hconsequent : IsTyped context consequent)
      (halternative : IsTyped context alternative) :
      IsTyped context (.ifElse condition consequent alternative p)
  | whileDo {condition : Expr} {body : Statement} (p : Position)
      (hcondition : condition.HasType context .integer) (hbody : IsTyped context body) :
      IsTyped context (.whileDo condition body p)

namespace Program

/-- The context of a program: every name with the types it is declared with. -/
def Declares (program : Program) : Context := fun name type =>
  ∃ d ∈ program.declarations, d.type = type ∧ ∃ target ∈ d.names, target.name = name

/-- A program obeys the rules if no name is declared twice and its statements obey them. -/
structure IsTyped (program : Program) : Prop where
  distinct : (program.declarations.flatMap fun d => d.names.map Identifier.name).Nodup
  statements : ∀ s ∈ program.statements, s.IsTyped program.Declares

end Program

namespace SymbolTable

def context (symbols : SymbolTable) : Context := fun name type => symbols.typeOf? name = some type

theorem undeclared_eq_nil_iff {symbols : SymbolTable} {name : String} {p : Position} :
    symbols.undeclared name p = [] ↔ ∃ type, symbols.context name type := by
  constructor
  · exact exists_typeOf?_of_undeclared
  · rintro ⟨type, htype⟩
    obtain ⟨symbol, hsymbol, -⟩ := Option.map_eq_some_iff.1 htype
    rw [undeclared, if_pos]
    rw [Std.TreeMap.contains_eq_isSome_getElem?, hsymbol]
    rfl

end SymbolTable

variable {symbols : SymbolTable}

theorem BinaryOp.violation?_arithmetic_eq_none {op : ArithmeticOp} {left right : Ty} :
    violation? (.arithmetic op) left right = none ↔ left = .integer ∧ right = .integer := by
  simp [violation?]

theorem BinaryOp.violation?_relational_eq_none {op : RelationalOp} {left right : Ty} :
    violation? (.relational op) left right = none ↔ left = right := by
  simp [violation?]

namespace Expr

theorem type?_neg_eq_some {operand : Expr} {p : Position} {type : Ty} :
    (neg operand p).type? symbols = some type ↔
      operand.type? symbols = some .integer ∧ type = .integer := by
  rw [type?]
  constructor
  · intro h
    split at h
    · next hoperand => exact ⟨hoperand, (Option.some.inj h).symm⟩
    · cases h
  · rintro ⟨hoperand, rfl⟩
    rw [hoperand]

theorem type?_binary_eq_some {op : BinaryOp} {left right : Expr} {p : Position} {type : Ty} :
    (binary op left right p).type? symbols = some type ↔
      ∃ l r, left.type? symbols = some l ∧ right.type? symbols = some r ∧
        op.violation? l r = none ∧ type = .integer := by
  rw [type?]
  constructor
  · intro h
    split at h
    · next l r hl hr =>
      split_ifs at h with hop
      exact ⟨l, r, hl, hr, Option.isNone_iff_eq_none.1 hop, (Option.some.inj h).symm⟩
    · cases h
  · rintro ⟨l, r, hl, hr, hop, rfl⟩
    simp [hl, hr, hop]

/-- The type that is inferred for an expression is the type it has by the rules. -/
theorem type?_eq_some_iff_hasType {e : Expr} {type : Ty} :
    e.type? symbols = some type ↔ e.HasType symbols.context type := by
  constructor
  · intro h
    induction e generalizing type with
    | int value p =>
      cases h
      exact .int value p
    | str value p =>
      cases h
      exact .str value p
    | var name p => exact .var p h
    | neg operand p ih =>
      obtain ⟨hoperand, rfl⟩ := type?_neg_eq_some.1 h
      exact .neg p (ih hoperand)
    | binary op left right p ihl ihr =>
      obtain ⟨l, r, hl, hr, hop, rfl⟩ := type?_binary_eq_some.1 h
      cases op with
      | arithmetic op =>
        obtain ⟨rfl, rfl⟩ := BinaryOp.violation?_arithmetic_eq_none.1 hop
        exact .arithmetic op p (ihl hl) (ihr hr)
      | relational op =>
        obtain rfl := BinaryOp.violation?_relational_eq_none.1 hop
        exact .relational op p (ihl hl) (ihr hr)
  · intro h
    induction h with
    | int value p | str value p => rfl
    | var p hname => exact hname
    | neg p _ ih => exact type?_neg_eq_some.2 ⟨ih, rfl⟩
    | arithmetic op p _ _ ihl ihr =>
      exact type?_binary_eq_some.2 ⟨_, _, ihl, ihr, by simp [BinaryOp.violation?], rfl⟩
    | relational op p _ _ ihl ihr =>
      exact type?_binary_eq_some.2 ⟨_, _, ihl, ihr, by simp [BinaryOp.violation?], rfl⟩

/-- With an expression that has a type nothing is wrong, at none of its nodes. -/
theorem violations_eq_nil_of_type? {e : Expr} {type : Ty} (h : e.type? symbols = some type) :
    e.violations symbols = [] := by
  induction e generalizing type with
  | int value p | str value p => rfl
  | var name p => exact SymbolTable.undeclared_eq_nil_iff.2 ⟨type, h⟩
  | neg operand p ih =>
    obtain ⟨hoperand, -⟩ := type?_neg_eq_some.1 h
    simp [violations, ih hoperand, hoperand]
  | binary op left right p ihl ihr =>
    obtain ⟨l, r, hl, hr, hop, -⟩ := type?_binary_eq_some.1 h
    simp [violations, ihl hl, ihr hr, hl, hr, hop]

theorem violations_eq_nil_iff {e : Expr} :
    e.violations symbols = [] ↔ ∃ type, e.HasType symbols.context type := by
  constructor
  · intro h
    obtain ⟨type, htype⟩ := exists_type?_of_violations h
    exact ⟨type, type?_eq_some_iff_hasType.1 htype⟩
  · rintro ⟨type, htype⟩
    exact violations_eq_nil_of_type? (type?_eq_some_iff_hasType.2 htype)

theorem conditionViolations_eq_nil_iff {condition : Expr} {p : Position} :
    condition.conditionViolations symbols p = [] ↔
      condition.HasType symbols.context .integer := by
  constructor
  · intro h
    exact type?_eq_some_iff_hasType.1 (type?_of_conditionViolations h)
  · intro h
    have htype := type?_eq_some_iff_hasType.2 h
    simp [conditionViolations, htype, violations_eq_nil_of_type? htype]

end Expr

theorem Identifier.assignmentViolations_eq_nil_iff {target : Identifier} {value : Expr}
    {p : Position} : target.assignmentViolations symbols value p = [] ↔
      ∃ type, symbols.context target.name type ∧ value.HasType symbols.context type := by
  constructor
  · intro h
    obtain ⟨type, htarget, hvalue⟩ := exists_type_of_assignmentViolations h
    exact ⟨type, htarget, Expr.type?_eq_some_iff_hasType.1 hvalue⟩
  · rintro ⟨type, htarget, hvalue⟩
    have hdeclared := SymbolTable.undeclared_eq_nil_iff (p := target.position).2 ⟨type, htarget⟩
    have htype := Expr.type?_eq_some_iff_hasType.2 hvalue
    rw [SymbolTable.context] at htarget
    simp [assignmentViolations, hdeclared, Expr.violations_eq_nil_of_type? htype, htarget, htype]

namespace Statement

mutual

theorem violations_eq_nil_iff : ∀ s : Statement,
    s.violations symbols = [] ↔ s.IsTyped symbols.context
  | .assign target value p => by
    rw [violations, Identifier.assignmentViolations_eq_nil_iff]
    constructor
    · rintro ⟨type, htarget, hvalue⟩
      exact .assign p htarget hvalue
    · rintro ⟨⟩
      next type htarget hvalue => exact ⟨type, htarget, hvalue⟩
  | .read targets p => by
    simp only [violations, List.flatMap_eq_nil_iff, SymbolTable.undeclared_eq_nil_iff]
    constructor
    · exact .read p
    · rintro ⟨⟩
      assumption
  | .write values p => by
    simp only [violations, List.flatMap_eq_nil_iff, Expr.violations_eq_nil_iff]
    constructor
    · exact .write p
    · rintro ⟨⟩
      assumption
  | .block body p => by
    rw [violations, violationsOfAll_eq_nil_iff body]
    constructor
    · exact .block p
    · rintro ⟨⟩
      assumption
  | .ifThen condition consequent p => by
    rw [violations, List.append_eq_nil_iff, Expr.conditionViolations_eq_nil_iff,
      violations_eq_nil_iff consequent]
    constructor
    · rintro ⟨hcondition, hconsequent⟩
      exact .ifThen p hcondition hconsequent
    · rintro ⟨⟩
      exact ⟨by assumption, by assumption⟩
  | .ifElse condition consequent alternative p => by
    rw [violations, List.append_eq_nil_iff, List.append_eq_nil_iff,
      Expr.conditionViolations_eq_nil_iff, violations_eq_nil_iff consequent,
      violations_eq_nil_iff alternative]
    constructor
    · rintro ⟨⟨hcondition, hconsequent⟩, halternative⟩
      exact .ifElse p hcondition hconsequent halternative
    · rintro ⟨⟩
      exact ⟨⟨by assumption, by assumption⟩, by assumption⟩
  | .whileDo condition body p => by
    rw [violations, List.append_eq_nil_iff, Expr.conditionViolations_eq_nil_iff,
      violations_eq_nil_iff body]
    constructor
    · rintro ⟨hcondition, hbody⟩
      exact .whileDo p hcondition hbody
    · rintro ⟨⟩
      exact ⟨by assumption, by assumption⟩

theorem violationsOfAll_eq_nil_iff : ∀ body : List Statement,
    violationsOfAll symbols body = [] ↔ ∀ s ∈ body, s.IsTyped symbols.context
  | [] => by simp [violationsOfAll]
  | s :: rest => by
    rw [violationsOfAll, List.append_eq_nil_iff, violations_eq_nil_iff s,
      violationsOfAll_eq_nil_iff rest, List.forall_mem_cons]

end

end Statement

namespace SymbolTable

variable {target : Identifier} {type : Ty} {entries : List (Identifier × Ty)}

theorem declareAll_cons_of_bound (h : symbols.contains target.name = true) :
    symbols.declareAll ((target, type) :: entries) =
      ((symbols.declareAll entries).1,
        ⟨.alreadyDeclared target.name, target.position⟩ :: (symbols.declareAll entries).2) := by
  simp only [declareAll, declare, h, if_true]

theorem declareAll_cons_of_new (h : symbols.contains target.name = false) :
    symbols.declareAll ((target, type) :: entries) =
      declareAll (symbols.insert target.name ⟨type, target.position⟩) entries := by
  simp only [declareAll, declare, h, Bool.false_eq_true, if_false]

/-- The first declaration of a name stands, and what was declared before comes first of all. -/
theorem getElem?_declareAll (symbols : SymbolTable) (entries : List (Identifier × Ty))
    (name : String) :
    (symbols.declareAll entries).1[name]? =
      symbols[name]?.or ((entries.find? fun entry => entry.1.name == name).map fun entry =>
        ⟨entry.2, entry.1.position⟩) := by
  induction entries generalizing symbols with
  | nil => simp [declareAll]
  | cons entry entries ih =>
    obtain ⟨target, type⟩ := entry
    cases hmem : symbols.contains target.name with
    | true =>
      rw [declareAll_cons_of_bound hmem, ih]
      by_cases hname : target.name = name
      · -- The name is bound already, so the entries are not looked at.
        subst hname
        rw [Std.TreeMap.contains_eq_isSome_getElem?, Option.isSome_iff_exists] at hmem
        obtain ⟨symbol, hsymbol⟩ := hmem
        simp [hsymbol]
      · simp [hname]
    | false =>
      rw [declareAll_cons_of_new hmem, ih, Std.TreeMap.getElem?_insert]
      by_cases hname : target.name = name
      · subst hname
        rw [Std.TreeMap.contains_eq_isSome_getElem?, Option.isSome_eq_false_iff,
          Option.isNone_iff_eq_none] at hmem
        simp [hmem]
      · simp [hname]

/-- Nothing is wrong with declarations exactly if each name is new. -/
theorem declareAll_errors_eq_nil_iff (symbols : SymbolTable) (entries : List (Identifier × Ty)) :
    (symbols.declareAll entries).2 = [] ↔
      (entries.map fun entry => entry.1.name).Nodup ∧
        ∀ entry ∈ entries, symbols.contains entry.1.name = false := by
  induction entries generalizing symbols with
  | nil => simp [declareAll]
  | cons entry entries ih =>
    obtain ⟨target, type⟩ := entry
    cases hmem : symbols.contains target.name with
    | true => simp [declareAll_cons_of_bound hmem, hmem]
    | false =>
      rw [declareAll_cons_of_new hmem, ih]
      simp only [Std.TreeMap.contains_insert, Bool.or_eq_false_iff, List.map_cons, List.nodup_cons,
        List.forall_mem_cons, List.mem_map, not_exists, not_and, hmem, true_and]
      constructor
      · rintro ⟨hnodup, hnew⟩
        refine ⟨⟨fun entry hentry hname => ?_, hnodup⟩, fun entry hentry => (hnew entry hentry).2⟩
        simpa [hname] using (hnew entry hentry).1
      · rintro ⟨⟨hother, hnodup⟩, hnew⟩
        refine ⟨hnodup, fun entry hentry => ⟨?_, hnew entry hentry⟩⟩
        simpa using fun h => hother entry hentry h.symm

end SymbolTable

namespace Program

variable {program : Program}

theorem map_entries_name (program : Program) :
    (program.entries.map fun entry => entry.1.name) =
      program.declarations.flatMap fun d => d.names.map Identifier.name := by
  simp [entries, Declaration.entries, List.map_flatMap, Function.comp_def]

theorem declares_iff_mem_entries {name : String} {type : Ty} :
    program.Declares name type ↔
      ∃ entry ∈ program.entries, entry.1.name = name ∧ entry.2 = type := by
  simp only [Declares, entries, Declaration.entries, List.mem_flatMap, List.mem_map]
  constructor
  · rintro ⟨d, hd, rfl, target, htarget, rfl⟩
    exact ⟨(target, d.type), ⟨d, hd, target, htarget, rfl⟩, rfl, rfl⟩
  · rintro ⟨entry, ⟨d, hd, target, htarget, rfl⟩, rfl, rfl⟩
    exact ⟨d, hd, rfl, target, htarget, rfl⟩

/-- Where no name is declared twice, the symbol table gives each name the type it is declared
with. -/
theorem context_symbols_of_nodup (h : (program.entries.map fun entry => entry.1.name).Nodup) :
    (analyze program).symbols.context = program.Declares := by
  funext name type
  rw [declares_iff_mem_entries, eq_iff_iff, SymbolTable.context, SymbolTable.typeOf?]
  simp only [analyze, SymbolTable.getElem?_declareAll, Std.TreeMap.getElem?_emptyc, Option.none_or,
    Option.map_map, Option.map_eq_some_iff, Function.comp_apply]
  constructor
  · rintro ⟨entry, hfind, rfl⟩
    exact ⟨entry, List.mem_of_find?_eq_some hfind, by simpa using List.find?_some hfind, rfl⟩
  · rintro ⟨entry, hentry, rfl, rfl⟩
    obtain ⟨found, hfound⟩ : ∃ found,
        program.entries.find? (fun other => other.1.name == entry.1.name) = some found := by
      rw [← Option.isSome_iff_exists, List.find?_isSome]
      exact ⟨entry, hentry, by simp⟩
    have hname : found.1.name = entry.1.name := by simpa using List.find?_some hfound
    have heq := List.inj_on_of_nodup_map h (List.mem_of_find?_eq_some hfound) hentry hname
    exact ⟨found, hfound, by rw [heq]⟩

end Program

/-- The analysis of a program is clean exactly if the program obeys the rules of the type system. -/
theorem analyze_isClean_iff_isTyped (program : Program) :
    (analyze program).isClean = true ↔ program.IsTyped := by
  have hclean : (analyze program).isClean = true ↔
      (program.entries.map fun entry => entry.1.name).Nodup ∧
        ∀ s ∈ program.statements, s.IsTyped (analyze program).symbols.context := by
    rw [Analysis.isClean, List.isEmpty_iff, ← Statement.violationsOfAll_eq_nil_iff]
    simp only [analyze, List.append_eq_nil_iff, SymbolTable.declareAll_errors_eq_nil_iff]
    simp
  rw [hclean]
  constructor
  · rintro ⟨hdistinct, hstatements⟩
    rw [Program.context_symbols_of_nodup hdistinct] at hstatements
    exact ⟨Program.map_entries_name program ▸ hdistinct, hstatements⟩
  · rintro ⟨hdistinct, hstatements⟩
    rw [← Program.map_entries_name] at hdistinct
    rw [Program.context_symbols_of_nodup hdistinct]
    exact ⟨hdistinct, hstatements⟩

end TinyPascal
