import TinyPascal.Proofs.Integer
import TinyPascal.Proofs.Syntax.Anchor
import TinyPascal.Proofs.Typing.Judgement

/-!
# Evaluation with unbounded integers

An exact evaluation computes with integers of any size. Evaluation refines it: as long as every
exact result fits into 64 bits and nothing is divided by zero, the two agree, and otherwise
evaluation fails at the first node, in the order of evaluation, where this is not so. What comes
after that node in the exact evaluation does not matter.
-/
namespace TinyPascal

inductive ExactValue where
  | int (n : ℤ)
  | str (text : String)
deriving DecidableEq, Repr

namespace ExactValue

def ofBool (b : Bool) : ExactValue :=
  int (if b then 1 else 0)

def negate? : ExactValue → Option ExactValue
  | int n => some (int (-n))
  | str _ => none

end ExactValue

def Value.exact : Value → ExactValue
  | int n => .int n.toInt
  | str text => .str text

/-- The exact result of an arithmetic operator. A quotient is rounded toward negative infinity. -/
def ArithmeticOp.exact : ArithmeticOp → ℤ → ℤ → ℤ
  | add, a, b => a + b
  | sub, a, b => a - b
  | mul, a, b => a * b
  | div, a, b => a.fdiv b

/-- The exact result of a binary operator. There is none for a division by zero, and none for
operands of types that do not fit. -/
def BinaryOp.exactValue? : BinaryOp → ExactValue → ExactValue → Option ExactValue
  | arithmetic op, .int a, .int b =>
    if op = .div ∧ b = 0 then none else some (.int (op.exact a b))
  | relational op, .int a, .int b => some (.ofBool (op.relates a b))
  | relational op, .str a, .str b =>
    some (.ofBool (op.relates (Text.codePoints a) (Text.codePoints b)))
  | _, _, _ => none

def Expr.exactValue? (store : Store) : Expr → Option ExactValue
  | int value _ => some (.int value.toInt)
  | str value _ => some (.str value)
  | var name _ => store[name]?.map Value.exact
  | neg operand _ => (operand.exactValue? store).bind ExactValue.negate?
  | binary op left right _ =>
    (left.exactValue? store).bind fun l =>
      (right.exactValue? store).bind fun r => op.exactValue? l r

/-- The fault of computing with the given operands on 64 bits. -/
def ArithmeticOp.offence? (op : ArithmeticOp) (a b : ℤ) : Option RuntimeFault :=
  if op = .div ∧ b = 0 then some .divisionByZero
  else if Integer.Fits (op.exact a b) then none
  else some .overflow

/-- The fault of a node, from the exact values of its operands: its divisor is zero, or its own
exact value does not fit. Comparisons, literals and names commit none. -/
def Expr.offence? (store : Store) : Expr → Option RuntimeFault
  | neg operand _ =>
    match operand.exactValue? store with
    | some (.int n) => if Integer.Fits (-n) then none else some .overflow
    | _ => none
  | binary (.arithmetic op) left right _ =>
    match left.exactValue? store, right.exactValue? store with
    | some (.int a), some (.int b) => op.offence? a b
    | _, _ => none
  | _ => none

def Expr.error? (store : Store) (node : Expr) : Option RuntimeError :=
  (node.offence? store).map fun fault => ⟨fault, node.position⟩

/-- The fault of the first node that commits one. -/
def Expr.firstError? (store : Store) (e : Expr) : Option RuntimeError :=
  e.postorder.findSome? (error? store)

/-- `Refines result type fault exact`: a computation fails with `fault` if there is one, and
otherwise it gives the value `exact`, which is of the type. -/
def Value.Refines {ε : Type} (result : Except ε Value) (type : Ty) :
    Option ε → Option ExactValue → Prop
  | some fault, _ => result = .error fault
  | none, exact => ∃ value, result = .ok value ∧ value.type = type ∧ exact = some value.exact

theorem Value.refines_ofInt? (n : ℤ) :
    Refines ((orOverflow (Integer.ofInt? n)).map int) .integer
      (if Integer.Fits n then none else some .overflow) (some (.int n)) := by
  by_cases h : Integer.Fits n
  · obtain ⟨a, ha, rfl⟩ := Integer.exists_ofInt? h
    rw [if_pos h, ha]
    exact ⟨int a, rfl, rfl, rfl⟩
  · rw [if_neg h, Integer.ofInt?_eq_none.2 h]
    rfl

theorem ArithmeticOp.refines_apply (op : ArithmeticOp) (a b : Integer) :
    Value.Refines ((op.apply a b).map .int) .integer (op.offence? a.toInt b.toInt)
      (BinaryOp.exactValue? (.arithmetic op) (.int a.toInt) (.int b.toInt)) := by
  by_cases hzero : op = .div ∧ b.toInt = 0
  · obtain ⟨rfl, hzero⟩ := hzero
    have hb : b = 0 := by rwa [← Int64.toInt_inj, Int64.toInt_zero]
    rw [offence?, if_pos ⟨rfl, hzero⟩, apply, if_pos hb]
    rfl
  · rw [offence?, if_neg hzero, BinaryOp.exactValue?, if_neg hzero]
    cases op with
    | add | sub | mul => exact Value.refines_ofInt? _
    | div =>
      have hb : b ≠ 0 := Integer.toInt_ne_zero.1 fun h => hzero ⟨rfl, h⟩
      rw [apply, if_neg hb, Integer.floorDiv?_eq hb]
      exact Value.refines_ofInt? _

theorem Value.exact_ofBool (b : Bool) : (Value.ofBool b).exact = .ofBool b := by
  cases b <;> rfl

/-- A comparison of values of one type never fails. -/
theorem RelationalOp.refines_relate (op : RelationalOp) {left right : Value}
    (h : left.type = right.type) :
    Value.Refines (BinaryOp.relate (.relational op) left right) .integer none
      (BinaryOp.exactValue? (.relational op) left.exact right.exact) := by
  cases left with
  | int a =>
    cases right with
    | int b =>
      refine ⟨_, rfl, rfl, ?_⟩
      rw [Value.exact_ofBool, op.holds_compare_integer]
      rfl
    | str b => cases h
  | str a =>
    cases right with
    | int b => cases h
    | str b =>
      refine ⟨_, rfl, rfl, ?_⟩
      rw [Value.exact_ofBool, op.holds_compare_string]
      rfl

theorem Value.Refines.locate {type : Ty} {result : Except RuntimeFault Value}
    {fault : Option RuntimeFault} {exact : Option ExactValue} (h : Refines result type fault exact)
    (p : Position) :
    Refines (RuntimeError.locate p result) type (fault.map fun fault => ⟨fault, p⟩) exact := by
  cases fault with
  | some fault =>
    obtain rfl : result = .error fault := h
    rfl
  | none =>
    obtain ⟨value, rfl, htype, hexact⟩ := h
    exact ⟨value, rfl, htype, hexact⟩

namespace Expr

variable {store : Store} {type : Ty} {left right operand : Expr} {p : Position}

def IsRefined (store : Store) (e : Expr) (type : Ty) : Prop :=
  Value.Refines (e.eval store) type (e.firstError? store) (e.exactValue? store)

theorem firstError?_neg : (neg operand p).firstError? store =
    (operand.firstError? store).or ((neg operand p).error? store) := by
  simp [firstError?, postorder, List.findSome?_append]

theorem firstError?_binary {op : BinaryOp} : (binary op left right p).firstError? store =
    (left.firstError? store).or
      ((right.firstError? store).or ((binary op left right p).error? store)) := by
  simp [firstError?, postorder, List.findSome?_append]

theorem IsRefined.neg (h : operand.IsRefined store .integer) (p : Position) :
    (neg operand p).IsRefined store .integer := by
  rw [IsRefined] at h ⊢
  rw [firstError?_neg, eval, exactValue?]
  cases herror : operand.firstError? store with
  | some error =>
    rw [herror] at h
    have heval : operand.eval store = .error error := h
    rw [heval]
    rfl
  | none =>
    rw [herror] at h
    obtain ⟨value, heval, htype, hexact⟩ := h
    obtain ⟨n, rfl⟩ := Value.exists_int htype
    have hown : (Expr.neg operand p).error? store =
        (if Integer.Fits (-n.toInt) then none else some .overflow).map (⟨·, p⟩) := by
      simp only [error?, offence?, hexact, Value.exact, position]
    rw [heval, hexact, hown]
    exact (Value.refines_ofInt? (-n.toInt)).locate p

/-- An operation is refined if its operands are, and its operator is on the values of these. -/
theorem IsRefined.binary {op : BinaryOp} {l r : Ty} (hleft : left.IsRefined store l)
    (hright : right.IsRefined store r) (p : Position)
    (hop : ∀ a b : Value, a.type = l → b.type = r → left.exactValue? store = some a.exact →
      right.exactValue? store = some b.exact →
      Value.Refines (op.apply a b) .integer ((binary op left right p).offence? store)
        (op.exactValue? a.exact b.exact)) :
    (binary op left right p).IsRefined store .integer := by
  rw [IsRefined] at hleft hright ⊢
  rw [firstError?_binary, eval, exactValue?]
  cases hl : left.firstError? store with
  | some error =>
    rw [hl] at hleft
    have heval : left.eval store = .error error := hleft
    rw [heval]
    rfl
  | none =>
    rw [hl] at hleft
    obtain ⟨a, ha, hatype, haexact⟩ := hleft
    rw [ha]
    cases hr : right.firstError? store with
    | some error =>
      rw [hr] at hright
      have heval : right.eval store = .error error := hright
      rw [heval]
      rfl
    | none =>
      rw [hr] at hright
      obtain ⟨b, hb, hbtype, hbexact⟩ := hright
      rw [hb, haexact, hbexact]
      exact (hop a b hatype hbtype haexact hbexact).locate p

/-- The value of a typed expression refines its exact value, if its names hold integers. The
induction is on the derivation of the type. -/
theorem isRefined_of_hasType {context : Context} {e : Expr}
    (hcontext : ∀ name type, context name type → type = .integer) (h : e.HasType context type)
    (hstore : ∀ name p, var name p ∈ e.postorder → ∃ n, store[name]? = some (.int n)) :
    e.IsRefined store type := by
  induction h with
  | int value p => exact ⟨.int value, rfl, rfl, rfl⟩
  | str value p => exact ⟨.str value, rfl, rfl, rfl⟩
  | @var name type p hname =>
    obtain rfl := hcontext name type hname
    obtain ⟨n, hn⟩ := hstore name p (List.mem_singleton_self _)
    refine ⟨.int n, ?_, rfl, ?_⟩
    · simp [eval, Store.fetch, hn, RuntimeError.locate]
    · simp [exactValue?, hn, Value.exact]
  | neg p _ ih =>
    exact (ih fun name q h => hstore name q (List.mem_append_left _ h)).neg p
  | @arithmetic op left right p _ _ ihl ihr =>
    have hl := ihl fun name q h => hstore name q (List.mem_append_left _ h)
    have hr := ihr fun name q h =>
      hstore name q (List.mem_append_right _ (List.mem_append_left _ h))
    refine hl.binary hr p fun a b ha hb hexact hexact' => ?_
    obtain ⟨m, rfl⟩ := Value.exists_int ha
    obtain ⟨n, rfl⟩ := Value.exists_int hb
    have hoffence : (binary (.arithmetic op) left right p).offence? store =
        op.offence? m.toInt n.toInt := by
      simp only [offence?, hexact, hexact', Value.exact]
    rw [hoffence]
    exact op.refines_apply m n
  | @relational op left right type p _ _ ihl ihr =>
    have hl := ihl fun name q h => hstore name q (List.mem_append_left _ h)
    have hr := ihr fun name q h =>
      hstore name q (List.mem_append_right _ (List.mem_append_left _ h))
    exact hl.binary hr p fun a b ha hb _ _ => op.refines_relate (ha.trans hb.symm)

/-- Checked arithmetic refines exact arithmetic. A typed expression, with integers in the store for
all its names, evaluates to its exact value if no node offends; otherwise the fault is that of the
first node that offends, at the place of that node. -/
theorem eval_refines_exact {symbols : SymbolTable} (hsymbols : symbols.IsInteger) {e : Expr}
    (htype : e.type? symbols = some type)
    (hstore : ∀ name p, var name p ∈ e.postorder → ∃ n, store[name]? = some (.int n)) :
    ((∀ node ∈ e.postorder, node.offence? store = none) →
      ∃ value, e.eval store = .ok value ∧ e.exactValue? store = some value.exact) ∧
    ∀ before node after fault, e.postorder = before ++ node :: after →
      (∀ other ∈ before, other.offence? store = none) → node.offence? store = some fault →
      e.eval store = .error ⟨fault, node.position⟩ := by
  have hrefined := isRefined_of_hasType hsymbols (type?_eq_some_iff_hasType.1 htype) hstore
  rw [IsRefined] at hrefined
  have hclear {nodes : List Expr} (h : ∀ node ∈ nodes, node.offence? store = none) :
      nodes.findSome? (error? store) = none := by
    rw [List.findSome?_eq_none_iff]
    intro node hnode
    rw [error?, h node hnode, Option.map_none]
  constructor
  · intro h
    rw [firstError?, hclear h] at hrefined
    obtain ⟨value, heval, -, hexact⟩ := hrefined
    exact ⟨value, heval, hexact⟩
  · intro before node after fault hsplit hbefore hfault
    have herror : e.firstError? store = some ⟨fault, node.position⟩ := by
      rw [firstError?, hsplit, List.findSome?_append, hclear hbefore, Option.none_or,
        List.findSome?_cons, error?, hfault]
      rfl
    rw [herror] at hrefined
    exact hrefined

/-- The least integer divided by minus one, plus a division by zero. -/
def lowest : Expr :=
  .binary (.arithmetic .add)
    (.binary (.arithmetic .div) (.var "x" ⟨1, 1⟩) (.neg (.int 1 ⟨1, 6⟩) ⟨1, 5⟩) ⟨1, 3⟩)
    (.binary (.arithmetic .div) (.int 1 ⟨1, 10⟩) (.int 0 ⟨1, 14⟩) ⟨1, 12⟩) ⟨1, 8⟩

/-- The first quotient does not fit, and the division by zero is not reached. -/
theorem eval_refines_exact_lowest :
    let symbols : SymbolTable := (∅ : SymbolTable).insert "x" ⟨.integer, .start⟩
    let store : Store := (∅ : Store).insert "x" (.int Int64.minValue)
    lowest.type? symbols = some .integer ∧
      lowest.eval store = .error ⟨.overflow, ⟨1, 3⟩⟩ := by
  intro symbols store
  have htype : lowest.type? symbols = some .integer := by decide +kernel
  have hsymbols : symbols.IsInteger := by
    intro name type h
    rw [SymbolTable.typeOf?_insert] at h
    split_ifs at h
    · exact (Option.some.inj h).symm
    · simp [SymbolTable.typeOf?] at h
  have hstore : ∀ name p, var name p ∈ lowest.postorder → ∃ n, store[name]? = some (.int n) := by
    intro name p h
    simp [lowest, postorder] at h
    exact ⟨Int64.minValue, by simp [store, h]⟩
  refine ⟨htype, ?_⟩
  exact (eval_refines_exact hsymbols htype hstore).2 [_, _, _] _ _ .overflow rfl
    (by decide +kernel) (by decide +kernel)

end Expr

end TinyPascal
