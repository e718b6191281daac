import Mathlib.Data.List.Infix
import TinyPascal.Execution.Store
import TinyPascal.Proofs.Typing.Independence

/-!
# Declarations

A program may declare a name any number of times, within a group and in several groups. The first
declaration stands, with its type and its place. Every later one is reported, at its own place and
before anything else. A run starts with the declared names, and all of them are zero.
-/
namespace TinyPascal

namespace Identifier

/-- The names of a list that are known from the start or have occurred before in the list, each as
often as it does. -/
def repeatedAfter (known : String → Bool) (names : List Identifier) : List Identifier :=
  ((names.zip names.inits).filter fun (target, before) =>
    known target.name || before.any (·.name == target.name)).map Prod.fst

/-- The names of a list that have occurred before in it. -/
def repeated (names : List Identifier) : List Identifier :=
  repeatedAfter (fun _ => false) names

def repetitionError (target : Identifier) : SemanticError :=
  ⟨.alreadyDeclared target.name, target.position⟩

theorem repeatedAfter_cons (known : String → Bool) (target : Identifier)
    (names : List Identifier) :
    repeatedAfter known (target :: names) = (if known target.name then [target] else []) ++
      repeatedAfter (fun name => target.name == name || known name) names := by
  have hknown (other : Identifier) (before : List Identifier) :
      (known other.name || (target :: before).any (·.name == other.name)) =
        ((target.name == other.name || known other.name) ||
          before.any (·.name == other.name)) := by
    rw [List.any_cons, Bool.or_left_comm, Bool.or_assoc]
  have hrest : ((names.zip (names.inits.map fun before => target :: before)).filter
        fun (other, before) => known other.name || before.any (·.name == other.name)).map Prod.fst =
      repeatedAfter (fun name => target.name == name || known name) names := by
    rw [List.zip_map_right, List.filter_map, List.map_map, repeatedAfter]
    simp only [Function.comp_def, Prod.map, id, hknown]
  rw [repeatedAfter, List.inits_cons, List.zip_cons_cons, List.filter_cons, ← hrest]
  cases hhead : known target.name <;> simp [hhead]

end Identifier

namespace SymbolTable

/-- A declaration is charged if the table has its name at the start, or if an earlier declaration of
the list has it. -/
theorem declareAll_errors_eq (symbols : SymbolTable) (entries : List (Identifier × Ty)) :
    (symbols.declareAll entries).2 =
      (Identifier.repeatedAfter (symbols.contains ·) (entries.map Prod.fst)).map
        Identifier.repetitionError := by
  induction entries generalizing symbols with
  | nil => rfl
  | cons entry entries ih =>
    obtain ⟨target, type⟩ := entry
    rw [List.map_cons, Identifier.repeatedAfter_cons, List.map_append]
    cases hmem : symbols.contains target.name with
    | true =>
      have hknown : (fun name => target.name == name || symbols.contains name) =
          (symbols.contains ·) := by
        funext name
        by_cases hname : target.name = name
        · simp [← hname, hmem]
        · simp [hname]
      rw [declareAll_cons_of_bound hmem, ih, hknown]
      rfl
    | false =>
      have hknown : (fun name => target.name == name || symbols.contains name) =
          ((symbols.insert target.name ⟨type, target.position⟩).contains ·) := by
        funext name
        rw [Std.TreeMap.contains_insert, Bool.eq_iff_iff]
        simp
      rw [declareAll_cons_of_new hmem, ih, hknown]
      rfl

/-- Every declaration adds a name to the table or is charged. -/
theorem size_declareAll (symbols : SymbolTable) (entries : List (Identifier × Ty)) :
    (symbols.declareAll entries).1.size + (symbols.declareAll entries).2.length =
      symbols.size + entries.length := by
  induction entries generalizing symbols with
  | nil => rfl
  | cons entry entries ih =>
    obtain ⟨target, type⟩ := entry
    cases hmem : symbols.contains target.name with
    | true =>
      rw [declareAll_cons_of_bound hmem, List.length_cons, List.length_cons, ← Nat.add_assoc, ih,
        Nat.add_assoc]
    | false =>
      have hsize : (symbols.insert target.name ⟨type, target.position⟩).size =
          symbols.size + 1 := by
        rw [Std.TreeMap.size_insert, if_neg]
        simp [hmem]
      rw [declareAll_cons_of_new hmem, ih, hsize, List.length_cons, Nat.add_right_comm,
        Nat.add_assoc]

end SymbolTable

/-- What is charged at a site is no repetition. -/
theorem Site.Breaks.isRepetition {context : Context} {site : Site} {error : SemanticError}
    (h : site.Breaks context error) : error.violation.isRepetition = false := by
  cases h <;> rfl

namespace Program

variable (program : Program)

def names : List Identifier :=
  program.declarations.flatMap Declaration.names

theorem map_entries_fst : program.entries.map Prod.fst = program.names := by
  simp [entries, names, Declaration.entries, List.map_flatMap, Function.comp_def]

theorem length_entries :
    program.entries.length = (program.declarations.map fun d => d.names.length).sum := by
  simp [entries, Declaration.entries, List.length_flatMap]

theorem getElem?_symbols (name : String) :
    (analyze program).symbols[name]? =
      (program.entries.find? (·.1.name == name)).map fun entry =>
        ⟨entry.2, entry.1.position⟩ := by
  change (SymbolTable.declareAll ∅ program.entries).1[name]? = _
  rw [SymbolTable.getElem?_declareAll, Std.TreeMap.getElem?_emptyc, Option.none_or]

theorem repetitions_eq :
    (SymbolTable.declareAll ∅ program.entries).2 =
      (Identifier.repeated program.names).map Identifier.repetitionError := by
  have hempty : ((∅ : SymbolTable).contains ·) = fun _ => false := by
    funext name
    exact Std.TreeMap.contains_emptyc
  rw [SymbolTable.declareAll_errors_eq, program.map_entries_fst, hempty, Identifier.repeated]

theorem isRepetition_charges :
    ∀ e ∈ Site.charges (analyze program).symbols program.sites,
      e.violation.isRepetition = false := by
  intro e he
  obtain ⟨site, -, hcharge⟩ := List.mem_filterMap.1 he
  exact (Site.charge?_eq_some_iff.1 hcharge).isRepetition

theorem mem_symbols {name : String} :
    name ∈ (analyze program).symbols ↔ ∃ type, program.Declares name type := by
  have hfound : ((analyze program).symbols[name]?).isSome =
      (program.entries.find? (·.1.name == name)).isSome := by
    rw [program.getElem?_symbols, Option.isSome_map]
  rw [Std.TreeMap.mem_iff_isSome_getElem?, hfound, List.find?_isSome]
  simp only [declares_iff_mem_entries, beq_iff_eq]
  constructor
  · rintro ⟨entry, hentry, hname⟩
    exact ⟨entry.2, entry, hentry, hname, rfl⟩
  · rintro ⟨-, entry, hentry, hname, -⟩
    exact ⟨entry, hentry, hname⟩

theorem countP_isRepetition :
    (analyze program).errors.countP (·.violation.isRepetition) =
      (SymbolTable.declareAll ∅ program.entries).2.length := by
  have hrepeated := (SymbolTable.declareAll_errors ∅ program.entries).1
  have hothers : (Site.charges (analyze program).symbols program.sites).countP
      (·.violation.isRepetition) = 0 :=
    List.countP_eq_zero.2 fun e he => by simp [program.isRepetition_charges e he]
  rw [program.errors_eq, List.countP_append, List.countP_eq_length.2 hrepeated, hothers,
    Nat.add_zero]

end Program

namespace Store

theorem getElem?_ofSymbols_eq_some_iff {symbols : SymbolTable} {name : String} {value : Value} :
    (ofSymbols symbols)[name]? = some value ↔ name ∈ symbols ∧ value = .int 0 := by
  rw [ofSymbols, Std.TreeMap.getElem?_map, Std.TreeMap.mem_iff_isSome_getElem?]
  cases symbols[name]? with
  | none => simp
  | some symbol => simp [eq_comm]

end Store

/-- The first declaration of a name stands, with its type and its place. All others are reported, in
their order and before any other error, so each declaration is in the table or among the errors. A
run starts with the declared names, and all of them are zero. -/
theorem first_declaration_stands (program : Program) :
    let symbols := (analyze program).symbols
    let errors := (analyze program).errors
    (∀ name, name ∈ symbols ↔ ∃ type, program.Declares name type) ∧
    (∀ name, symbols[name]? = (program.entries.find? (·.1.name == name)).map fun entry =>
      ⟨entry.2, entry.1.position⟩) ∧
    (∃ others, errors =
        (Identifier.repeated program.names).map Identifier.repetitionError ++ others ∧
      ∀ e ∈ others, e.violation.isRepetition = false) ∧
    symbols.size + errors.countP (·.violation.isRepetition) =
      (program.declarations.map fun d => d.names.length).sum ∧
    ∀ name value, (Store.ofSymbols symbols)[name]? = some value ↔
      (∃ type, program.Declares name type) ∧ value = .int 0 := by
  intro symbols errors
  refine ⟨fun name => program.mem_symbols, program.getElem?_symbols,
    ⟨_, ?_, program.isRepetition_charges⟩, ?_, fun name value => ?_⟩
  · rw [← program.repetitions_eq]
    exact program.errors_eq
  · have hsize := SymbolTable.size_declareAll ∅ program.entries
    rw [Std.TreeMap.size_emptyc, Nat.zero_add, program.length_entries] at hsize
    rw [program.countP_isRepetition]
    exact hsize
  · rw [Store.getElem?_ofSymbols_eq_some_iff, program.mem_symbols]

/-- Of the names `x, y, x` and `x`, in two groups, the third and the fourth are reported. -/
example :
    Identifier.repeated [⟨"x", ⟨1, 1⟩⟩, ⟨"y", ⟨1, 4⟩⟩, ⟨"x", ⟨1, 7⟩⟩, ⟨"x", ⟨2, 1⟩⟩] =
      [⟨"x", ⟨1, 7⟩⟩, ⟨"x", ⟨2, 1⟩⟩] := by
  decide +kernel

end TinyPascal
