import Mathlib.Tactic
import TinyPascal.Execution.Evaluation
import TinyPascal.Typing.Statement

/-!
# Values of typed expressions

A store agrees with a symbol table if it binds exactly the declared names, each to a value of its
declared type. In such a store an expression with a type evaluates to a value of that type, unless
it divides by zero or overflows. An expression without violations has a type.
-/
namespace TinyPascal

variable {symbols : SymbolTable} {store : Store}

theorem Value.exists_int {value : Value} (h : value.type = .integer) : ∃ n, value = .int n := by
  cases value with
  | int n => exact ⟨n, rfl⟩
  | str text => cases h

namespace SymbolTable

def IsInteger (symbols : SymbolTable) : Prop :=
  ∀ name type, symbols.typeOf? name = some type → type = .integer

theorem typeOf?_insert (symbols : SymbolTable) (target : String) (symbol : Symbol) (name : String) :
    typeOf? (symbols.insert target symbol) name =
      if target = name then some symbol.type else symbols.typeOf? name := by
  rw [typeOf?, Std.TreeMap.getElem?_insert]
  by_cases h : target = name
  · simp [h]
  · simp [h, typeOf?]

theorem IsInteger.declareAll (h : symbols.IsInteger) {entries : List (Identifier × Ty)}
    (hentries : ∀ entry ∈ entries, entry.2 = .integer) :
    (symbols.declareAll entries).1.IsInteger := by
  induction entries generalizing symbols with
  | nil => exact h
  | cons entry entries ih =>
    obtain ⟨target, type⟩ := entry
    rw [List.forall_mem_cons] at hentries
    simp only [SymbolTable.declareAll, declare]
    by_cases hmem : symbols.contains target.name = true
    · simp only [hmem, if_pos]
      exact ih h hentries.2
    · simp only [hmem]
      refine ih (fun name found hfound => ?_) hentries.2
      rw [typeOf?_insert] at hfound
      split_ifs at hfound
      · rw [← Option.some.inj hfound]
        exact hentries.1
      · exact h name found hfound

theorem exists_typeOf?_of_undeclared {name : String} {p : Position}
    (h : symbols.undeclared name p = []) : ∃ type, symbols.typeOf? name = some type := by
  have hmem : symbols.contains name = true := by
    by_contra hmem
    simp [undeclared, hmem] at h
  rw [Std.TreeMap.contains_eq_isSome_getElem?, Option.isSome_iff_exists] at hmem
  obtain ⟨symbol, hsymbol⟩ := hmem
  exact ⟨symbol.type, by simp [typeOf?, hsymbol]⟩

end SymbolTable

namespace Store

/-- The store binds the declared names and no others, each to a value of its declared type. -/
def Agrees (store : Store) (symbols : SymbolTable) : Prop :=
  ∀ name, store[name]?.map Value.type = symbols.typeOf? name

theorem agrees_ofSymbols (h : symbols.IsInteger) : (ofSymbols symbols).Agrees symbols := by
  intro name
  rw [ofSymbols, Std.TreeMap.getElem?_map, SymbolTable.typeOf?]
  cases hsymbol : symbols[name]? with
  | none => rfl
  | some symbol =>
    have hinteger := h name symbol.type (by simp [SymbolTable.typeOf?, hsymbol])
    simp [Value.type, hinteger]

theorem Agrees.fetch (h : store.Agrees symbols) {name : String} {type : Ty}
    (htype : symbols.typeOf? name = some type) :
    ∃ value, store.fetch name = .ok value ∧ value.type = type := by
  rw [← h name, Option.map_eq_some_iff] at htype
  obtain ⟨value, hvalue, htype⟩ := htype
  exact ⟨value, by simp [Store.fetch, hvalue], htype⟩

theorem Agrees.assign (h : store.Agrees symbols) {name : String} {value : Value}
    (htype : symbols.typeOf? name = some value.type) :
    ∃ next, store.assign name value = .ok next ∧ next.Agrees symbols := by
  have hmem : store.contains name = true := by
    rw [← h name, Option.map_eq_some_iff] at htype
    obtain ⟨old, hold, _⟩ := htype
    rw [Std.TreeMap.contains_eq_isSome_getElem?, hold]
    rfl
  refine ⟨store.insert name value, by rw [Store.assign, if_pos hmem], fun other => ?_⟩
  rw [Std.TreeMap.getElem?_insert]
  by_cases hname : name = other
  · subst hname
    simp [htype]
  · simp [hname, h other]

/-- Every declared variable holds an integer, and no other name is bound. -/
def HoldsIntegers (symbols : SymbolTable) (store : Store) : Prop :=
  ∀ name : String, (name ∈ symbols → ∃ n, store[name]? = some (.int n)) ∧
    (name ∉ symbols → store[name]? = none)

theorem Agrees.holdsIntegers (h : store.Agrees symbols) (hsymbols : symbols.IsInteger) :
    store.HoldsIntegers symbols := by
  intro name
  have hname := h name
  constructor
  · intro hmem
    rw [Std.TreeMap.mem_iff_isSome_getElem?, Option.isSome_iff_exists] at hmem
    obtain ⟨symbol, hsymbol⟩ := hmem
    have htype : symbols.typeOf? name = some symbol.type := by simp [SymbolTable.typeOf?, hsymbol]
    rw [htype, hsymbols name _ htype, Option.map_eq_some_iff] at hname
    obtain ⟨value, hvalue, hinteger⟩ := hname
    obtain ⟨n, rfl⟩ := Value.exists_int hinteger
    exact ⟨n, hvalue⟩
  · intro hmem
    rw [Std.TreeMap.mem_iff_isSome_getElem?, Option.not_isSome_iff_eq_none] at hmem
    rw [SymbolTable.typeOf?, hmem, Option.map_none, Option.map_eq_none_iff] at hname
    exact hname

end Store

namespace RuntimeFault

def IsArithmetic (fault : RuntimeFault) : Prop :=
  fault = .divisionByZero ∨ fault = .overflow

end RuntimeFault

/-- The result is a value of a given type or a fault of arithmetic. -/
def Value.Fits {ε : Type} (fault : ε → RuntimeFault) (type : Ty) : Except ε Value → Prop
  | .ok value => value.type = type
  | .error e => (fault e).IsArithmetic

theorem isArithmetic_of_orOverflow {α : Type} {a : Option α} {fault : RuntimeFault}
    (h : orOverflow a = .error fault) : fault.IsArithmetic := by
  cases a with
  | some a => cases h
  | none =>
    cases h
    exact .inr rfl

theorem ArithmeticOp.isArithmetic_of_apply {op : ArithmeticOp} {a b : Integer}
    {fault : RuntimeFault} (h : op.apply a b = .error fault) : fault.IsArithmetic := by
  cases op with
  | add | sub | mul => exact isArithmetic_of_orOverflow h
  | div =>
    simp only [apply] at h
    split_ifs at h
    · cases h
      exact .inl rfl
    · exact isArithmetic_of_orOverflow h

theorem Value.fits_negate {value : Value} (h : value.type = .integer) :
    Fits id .integer value.negate := by
  obtain ⟨n, rfl⟩ := exists_int h
  rw [negate]
  cases hn : orOverflow n.neg? with
  | ok m => rfl
  | error fault => exact isArithmetic_of_orOverflow hn

theorem BinaryOp.fits_apply {op : BinaryOp} {left right : Value}
    (h : op.violation? left.type right.type = none) :
    Value.Fits id .integer (op.apply left right) := by
  cases op with
  | arithmetic op =>
    simp only [violation?, ite_eq_left_iff, reduceCtorEq, imp_false, not_not] at h
    obtain ⟨a, rfl⟩ := Value.exists_int h.1
    obtain ⟨b, rfl⟩ := Value.exists_int h.2
    change Value.Fits id .integer (op.apply a b >>= fun n => pure (.int n))
    cases hab : op.apply a b with
    | ok n => rfl
    | error fault => exact ArithmeticOp.isArithmetic_of_apply hab
  | relational op =>
    simp only [violation?, ite_eq_left_iff, reduceCtorEq, imp_false, not_not] at h
    cases left with
    | int a =>
      cases right with
      | int b => rfl
      | str b => cases h
    | str a =>
      cases right with
      | int b => cases h
      | str b => rfl

theorem Value.fits_locate {type : Ty} (p : Position) {result : Except RuntimeFault Value}
    (h : Fits id type result) : Fits RuntimeError.fault type (RuntimeError.locate p result) := by
  cases result with
  | ok value => exact h
  | error fault => exact h

namespace Expr

/-- In a given store an expression evaluates to a value of a type, or arithmetic fails. -/
def EvaluatesTo (store : Store) (e : Expr) (type : Ty) : Prop :=
  Value.Fits RuntimeError.fault type (e.eval store)

/-- In a store that agrees with the declarations, an expression evaluates to a value of its type
unless arithmetic fails. -/
theorem evaluatesTo_of_type? (hstore : store.Agrees symbols) {e : Expr} {type : Ty}
    (h : e.type? symbols = some type) : e.EvaluatesTo store type := by
  induction e generalizing type with
  | int value p | str value p => exact Option.some.inj h
  | var name p =>
    obtain ⟨value, hvalue, htype⟩ := hstore.fetch h
    simp only [EvaluatesTo, eval, hvalue]
    exact htype
  | neg operand p ih =>
    simp only [type?] at h
    split at h
    · next hoperand =>
      cases h
      have hfits := ih hoperand
      simp only [EvaluatesTo, eval] at hfits ⊢
      cases hv : operand.eval store with
      | ok value =>
        rw [hv] at hfits
        exact Value.fits_locate p (Value.fits_negate hfits)
      | error e =>
        rw [hv] at hfits
        exact hfits
    · cases h
  | binary op left right p ihl ihr =>
    simp only [type?] at h
    split at h
    · next l r hl hr =>
      split_ifs at h with hop
      cases h
      have hfitsl := ihl hl
      have hfitsr := ihr hr
      simp only [EvaluatesTo, eval] at hfitsl hfitsr ⊢
      cases hvl : left.eval store with
      | error e =>
        rw [hvl] at hfitsl
        exact hfitsl
      | ok a =>
        rw [hvl] at hfitsl
        cases hvr : right.eval store with
        | error e =>
          rw [hvr] at hfitsr
          exact hfitsr
        | ok b =>
          rw [hvr] at hfitsr
          cases hfitsl
          cases hfitsr
          exact Value.fits_locate p (BinaryOp.fits_apply (Option.isNone_iff_eq_none.1 hop))
    · cases h

theorem exists_type?_of_violations {e : Expr} (h : e.violations symbols = []) :
    ∃ type, e.type? symbols = some type := by
  induction e with
  | int value p | str value p => exact ⟨_, rfl⟩
  | var name p => exact SymbolTable.exists_typeOf?_of_undeclared h
  | neg operand p ih =>
    simp only [violations, List.append_eq_nil_iff] at h
    obtain ⟨type, htype⟩ := ih h.1
    cases type with
    | integer => exact ⟨.integer, by simp [type?, htype]⟩
    | string => simp [htype] at h
  | binary op left right p ihl ihr =>
    simp only [violations, List.append_eq_nil_iff] at h
    obtain ⟨l, hl⟩ := ihl h.1.1
    obtain ⟨r, hr⟩ := ihr h.1.2
    have hop : op.violation? l r = none := by
      have hlast := h.2
      simp only [hl, hr, List.map_eq_nil_iff] at hlast
      exact Option.toList_eq_nil_iff.1 hlast
    exact ⟨.integer, by simp [type?, hl, hr, hop]⟩

theorem type?_of_conditionViolations {condition : Expr} {p : Position}
    (h : condition.conditionViolations symbols p = []) :
    condition.type? symbols = some .integer := by
  simp only [conditionViolations, List.append_eq_nil_iff] at h
  obtain ⟨type, htype⟩ := exists_type?_of_violations h.1
  cases type with
  | integer => exact htype
  | string => simp [htype] at h

end Expr

/-- An assignment in which nothing is wrong assigns a value of the type of its target. -/
theorem Identifier.exists_type_of_assignmentViolations {target : Identifier} {value : Expr}
    {p : Position} (h : target.assignmentViolations symbols value p = []) :
    ∃ type, symbols.typeOf? target.name = some type ∧ value.type? symbols = some type := by
  simp only [assignmentViolations, List.append_eq_nil_iff] at h
  obtain ⟨expected, hexpected⟩ := SymbolTable.exists_typeOf?_of_undeclared h.1.1
  obtain ⟨found, hfound⟩ := Expr.exists_type?_of_violations h.1.2
  have hlast := h.2
  simp only [hexpected, hfound] at hlast
  split_ifs at hlast with heq
  exact ⟨expected, hexpected, heq ▸ hfound⟩

end TinyPascal
