import TinyPascal.Interpreter
import TinyPascal.Proofs.Execution.Logic
import TinyPascal.Proofs.Syntax.Parts

/-!
# Where runs fail

Apart from the misuse of names and types, a node of an expression fails only by its arithmetic, and
a statement only by what it asks of its surroundings: a read statement for a line, a write statement
for its output, a loop for its guard, and each of them for the interrupt. The place of a failure is
the anchor of the node or the statement that is to blame, so a run fails only at anchors of its
program.
-/
namespace TinyPascal

open Exec

/-- `node.Raises e`: the arithmetic of the node itself fails with `e`. -/
inductive Expr.Raises : Expr → RuntimeError → Prop where
  | negation (operand : Expr) (p : Position) : Raises (.neg operand p) ⟨.overflow, p⟩
  | operation (op : ArithmeticOp) (left right : Expr) (p : Position) :
      Raises (.binary (.arithmetic op) left right p) ⟨.overflow, p⟩
  | division (left right : Expr) (p : Position) :
      Raises (.binary (.arithmetic .div) left right p) ⟨.divisionByZero, p⟩

theorem Value.fault_of_negate {value : Value} {fault : RuntimeFault}
    (h : value.negate = .error fault) : fault.isMisuse = true ∨ fault = .overflow := by
  cases value with
  | int n =>
    right
    rw [negate] at h
    cases hn : Integer.neg? n with
    | some m => simp [hn, orOverflow, Except.map] at h
    | none => simpa [hn, orOverflow, Except.map] using h.symm
  | str text =>
    cases h
    exact .inl rfl

theorem ArithmeticOp.fault_of_apply {op : ArithmeticOp} {a b : Integer} {fault : RuntimeFault}
    (h : op.apply a b = .error fault) :
    fault = .overflow ∨ op = .div ∧ fault = .divisionByZero := by
  have hoverflow {n : Option Integer} (hn : orOverflow n = .error fault) : fault = .overflow := by
    cases n with
    | some n => cases hn
    | none =>
      cases hn
      rfl
  cases op with
  | add | sub | mul => exact .inl (hoverflow h)
  | div =>
    simp only [apply] at h
    split_ifs at h
    · cases h
      exact .inr ⟨rfl, rfl⟩
    · exact .inl (hoverflow h)

theorem BinaryOp.raises_of_apply {op : BinaryOp} {left right : Value} {fault : RuntimeFault}
    (h : op.apply left right = .error fault) (l r : Expr) (p : Position) :
    fault.isMisuse = true ∨ (Expr.binary op l r p).Raises ⟨fault, p⟩ := by
  cases op with
  | arithmetic op =>
    cases left with
    | str a =>
      cases h
      exact .inl rfl
    | int a =>
      cases right with
      | str b =>
        cases h
        exact .inl rfl
      | int b =>
        right
        change (op.apply a b >>= fun n => pure (Value.int n)) = .error fault at h
        cases hab : op.apply a b with
        | ok n =>
          rw [hab] at h
          cases h
        | error found =>
          rw [hab] at h
          cases h
          obtain rfl | ⟨rfl, rfl⟩ := ArithmeticOp.fault_of_apply hab
          · exact .operation op l r p
          · exact .division l r p
  | relational op =>
    left
    simp only [apply, relate, holds?] at h
    split at h
    · cases h
      rfl
    · cases h

/-- An expression fails by misuse or by the arithmetic of one of its nodes. -/
theorem Expr.raises_of_eval {store : Store} {e : Expr} {error : RuntimeError}
    (h : e.eval store = .error error) :
    error.fault.isMisuse = true ∨ ∃ node ∈ e.nodes, node.Raises error := by
  induction e with
  | int value p | str value p => cases h
  | var name p =>
    left
    rw [eval, Store.fetch] at h
    cases hname : store[name]? with
    | some value =>
      rw [hname] at h
      cases h
    | none =>
      rw [hname] at h
      cases h
      rfl
  | neg operand p ih =>
    rw [eval] at h
    cases hoperand : operand.eval store with
    | error found =>
      rw [hoperand] at h
      cases h
      obtain hmisuse | ⟨node, hnode, hraises⟩ := ih hoperand
      · exact .inl hmisuse
      · exact .inr ⟨node, List.mem_cons_of_mem _ hnode, hraises⟩
    | ok value =>
      rw [hoperand] at h
      change RuntimeError.locate p value.negate = .error error at h
      cases hvalue : value.negate with
      | ok result =>
        rw [hvalue] at h
        cases h
      | error fault =>
        rw [hvalue] at h
        cases h
        obtain hmisuse | rfl := Value.fault_of_negate hvalue
        · exact .inl hmisuse
        · exact .inr ⟨_, List.mem_cons_self, .negation operand p⟩
  | binary op left right p ihl ihr =>
    rw [eval] at h
    cases hleft : left.eval store with
    | error found =>
      rw [hleft] at h
      cases h
      obtain hmisuse | ⟨node, hnode, hraises⟩ := ihl hleft
      · exact .inl hmisuse
      · exact .inr ⟨node, List.mem_append_left _ hnode, hraises⟩
    | ok a =>
      cases hright : right.eval store with
      | error found =>
        rw [hleft, hright] at h
        cases h
        obtain hmisuse | ⟨node, hnode, hraises⟩ := ihr hright
        · exact .inl hmisuse
        · exact .inr ⟨node, List.mem_append_right _ (List.mem_cons_of_mem _ hnode), hraises⟩
      | ok b =>
        rw [hleft, hright] at h
        change RuntimeError.locate p (op.apply a b) = .error error at h
        cases hresult : op.apply a b with
        | ok result =>
          rw [hresult] at h
          cases h
        | error fault =>
          rw [hresult] at h
          cases h
          obtain hmisuse | hraises := BinaryOp.raises_of_apply hresult left right p
          · exact .inl hmisuse
          · exact .inr ⟨_, List.mem_append_right _ List.mem_cons_self, hraises⟩

/-- `s.Raises e`: the statement fails with `e`, apart from the statements in it. -/
inductive Statement.Raises : Statement → RuntimeError → Prop where
  | interrupt (s : Statement) : Raises s ⟨.aborted, s.position⟩
  | input (targets : List Identifier) (p : Position) (name : String) (defect : InputDefect) :
      Raises (.read targets p) ⟨.invalidInput name defect, p⟩
  | reading (targets : List Identifier) (p : Position) (details : String) :
      Raises (.read targets p) ⟨.io details, p⟩
  | writing (values : List Expr) (p : Position) (details : String) :
      Raises (.write values p) ⟨.io details, p⟩
  | asking (condition : Expr) (body : Statement) (p : Position) (details : String) :
      Raises (.whileDo condition body p) ⟨.io details, p⟩
  | stop (condition : Expr) (body : Statement) (p : Position) (iterations : Nat) :
      Raises (.whileDo condition body p) ⟨.loopStopped iterations, p⟩
  | node {s : Statement} {node : Expr} {e : RuntimeError} (hnode : node ∈ s.nodes)
      (h : node.Raises e) : Raises s e

/-- A failure is a misuse, or one of the statements raises it. -/
def RuntimeError.IsRaisedBy (parts : List Statement) (e : RuntimeError) : Prop :=
  e.fault.isMisuse = true ∨ ∃ part ∈ parts, part.Raises e

theorem RuntimeError.IsRaisedBy.mono {parts more : List Statement} {e : RuntimeError}
    (h : e.IsRaisedBy parts) (hsubset : parts ⊆ more) : e.IsRaisedBy more := by
  obtain hmisuse | ⟨part, hpart, hraises⟩ := h
  · exact .inl hmisuse
  · exact .inr ⟨part, hsubset hpart, hraises⟩

namespace Exec

/-- All failures of an action are raised by one of the statements. -/
def FailsWithin {α : Type} (parts : List Statement) (action : Exec α) : Prop :=
  Meets (fun _ => True) (fun o => ∀ e state, o = .failure e state → e.IsRaisedBy parts) action
    fun _ => True

namespace FailsWithin

variable {α : Type} {parts more : List Statement}

theorem mono {action : Exec α} (h : FailsWithin parts action) (hsubset : parts ⊆ more) :
    FailsWithin more action := by
  constructor
  · exact h.gives
  · intro state hstate o hshows e last ho
    exact (h.shows hstate hshows e last ho).mono hsubset

theorem permissiveAt (parts : List Statement) (p : Position) :
    PermissiveAt (fun _ => True) (fun o => ∀ e state, o = .failure e state → e.IsRaisedBy parts) p
      fun fault => RuntimeError.IsRaisedBy parts ⟨fault, p⟩ where
  raise _ _ := trivial
  pause _ _ _ _ ho := nomatch ho
  failure _ hfault _ _ ho := by
    cases ho
    exact hfault
  consult _ _ _ _ ho := nomatch ho

theorem evaluate {s : Statement} {value : Expr} (hs : s ∈ parts)
    (hnodes : value.nodes ⊆ s.nodes) : FailsWithin parts (evaluate value) := by
  refine Meets.evaluate (fun _ _ _ _ => trivial) fun state error _ heval e last ho => ?_
  cases ho
  obtain hmisuse | ⟨node, hnode, hraises⟩ := Expr.raises_of_eval heval
  · exact .inl hmisuse
  · exact .inr ⟨s, hs, .node (hnodes hnode) hraises⟩

theorem assign (parts : List Statement) (target : Identifier) (value : Value) :
    FailsWithin parts (assign target value) := by
  refine Meets.assign (fun _ _ _ _ => trivial) fun state fault _ hassign e last ho => ?_
  cases ho
  rw [Store.assign] at hassign
  split_ifs at hassign
  cases hassign
  exact .inl rfl

theorem checkInterrupt {s : Statement} (hs : s ∈ parts) :
    FailsWithin parts (checkInterrupt s.position) :=
  (permissiveAt parts s.position).checkInterrupt (.inr ⟨s, hs, .interrupt s⟩)

end FailsWithin

end Exec

open Exec

namespace Statement

variable (policy : Policy) (fuel : Nat)

mutual

/-- The execution of a statement fails only by misuse and by what its parts raise. -/
theorem failsWithin : ∀ s : Statement, FailsWithin s.parts (s.exec policy fuel)
  | assign target value p => by
    have hself := self_mem_parts (assign target value p)
    rw [exec]
    refine (FailsWithin.checkInterrupt hself).bind fun _ _ => ?_
    refine (FailsWithin.evaluate hself ?_).bind fun v _ => FailsWithin.assign _ target v
    rw [nodes]
    exact List.Subset.refl _
  | read targets p => by
    have hself := self_mem_parts (read targets p)
    rw [exec]
    refine (FailsWithin.checkInterrupt hself).bind fun _ _ => ?_
    exact (FailsWithin.permissiveAt _ p).readTargets (.inr ⟨_, hself, .interrupt _⟩)
      (fun details => .inr ⟨_, hself, .reading targets p details⟩)
      (fun name defect => .inr ⟨_, hself, .input targets p name defect⟩) policy
      fun target _ n => FailsWithin.assign _ target (.int n)
  | write values p => by
    have hself := self_mem_parts (write values p)
    rw [exec]
    refine (FailsWithin.checkInterrupt hself).bind fun _ _ => ?_
    refine (Meets.textOfAll fun value hvalue => FailsWithin.evaluate hself ?_).bind fun text _ =>
      (FailsWithin.permissiveAt _ p).writeLine
        (fun details => .inr ⟨_, hself, .writing values p details⟩) text
    rw [nodes]
    exact fun node hnode => List.mem_flatMap.2 ⟨value, hvalue, hnode⟩
  | block body p => by
    have hself := self_mem_parts (block body p)
    rw [exec]
    refine (FailsWithin.checkInterrupt hself).bind fun _ _ => (failsWithinAll body).mono ?_
    rw [parts]
    exact List.subset_cons_self _ _
  | ifThen condition consequent p => by
    have hself := self_mem_parts (ifThen condition consequent p)
    rw [exec]
    refine (FailsWithin.checkInterrupt hself).bind fun _ _ => ?_
    refine (Meets.holds (FailsWithin.evaluate hself ?_)).bind fun b _ =>
      .ite ((failsWithin consequent).mono ?_) (.pure trivial)
    · rw [nodes]
      exact List.subset_append_left _ _
    · rw [parts]
      exact List.subset_cons_self _ _
  | ifElse condition consequent alternative p => by
    have hself := self_mem_parts (ifElse condition consequent alternative p)
    rw [exec]
    refine (FailsWithin.checkInterrupt hself).bind fun _ _ => ?_
    refine (Meets.holds (FailsWithin.evaluate hself ?_)).bind fun b _ =>
      .ite ((failsWithin consequent).mono ?_) ((failsWithin alternative).mono ?_)
    · rw [nodes]
      exact List.subset_append_left _ _
    · rw [parts]
      exact List.subset_cons_of_subset _ (List.subset_append_left _ _)
    · rw [parts]
      exact List.subset_cons_of_subset _ (List.subset_append_right _ _)
  | whileDo condition body p => by
    have hself := self_mem_parts (whileDo condition body p)
    rw [exec]
    refine (FailsWithin.checkInterrupt hself).bind fun _ _ => ?_
    refine (FailsWithin.permissiveAt _ p).loop (fun _ _ _ _ ho => nomatch ho)
      (.inr ⟨_, hself, .interrupt _⟩)
      (fun details => .inr ⟨_, hself, .asking condition body p details⟩)
      (fun iterations => .inr ⟨_, hself, .stop condition body p iterations⟩) policy
      (Meets.holds (FailsWithin.evaluate hself ?_)) ((failsWithin body).mono ?_) fuel 0
    · rw [nodes]
      exact List.subset_append_left _ _
    · rw [parts]
      exact List.subset_cons_self _ _

theorem failsWithinAll : ∀ body : List Statement,
    FailsWithin (partsOfAll body) (execAll policy fuel body)
  | [] => by
    rw [execAll]
    exact .pure trivial
  | s :: rest => by
    rw [execAll, partsOfAll]
    exact ((failsWithin s).mono (List.subset_append_left _ _)).bind fun _ _ =>
      (failsWithinAll rest).mono (List.subset_append_right _ _)

end

end Statement

/-- A run of a program fails only by misuse and by what the statements of the program raise. -/
theorem CheckedProgram.isRaisedBy_of_conduct {σ γ : Type} {console : Console σ}
    {adviser : Adviser γ} {policy : Policy} {fuel : Nat} {interrupted : Bool}
    {checked : CheckedProgram} {s : σ} {g : γ} {e : RuntimeError}
    (h : ((checked.start policy fuel interrupted).conduct console adviser s g).outcome =
      .error (.error e)) : e.IsRaisedBy checked.program.parts := by
  have hnote (n : Note) : FailsWithin checked.program.parts (note n) :=
    (FailsWithin.permissiveAt _ .start).note n
  have hstore : FailsWithin checked.program.parts (setStore (.ofSymbols checked.symbols)) := by
    constructor
    · exact fun _ _ _ _ => ⟨trivial, trivial⟩
    · intro state _ o hshows
      cases hshows
  have hprogram : FailsWithin checked.program.parts (checked.exec policy fuel) :=
    hstore.bind fun _ _ => (hnote _).bind fun _ _ =>
      (Statement.failsWithinAll policy fuel _).bind fun _ _ => hnote _
  have hend := Run.conduct_outcome console adviser (checked.start policy fuel interrupted) s g
  rw [h] at hend
  exact hprogram.shows trivial hend e _ rfl

end TinyPascal
