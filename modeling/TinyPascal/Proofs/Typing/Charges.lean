import TinyPascal.Proofs.Syntax.Parts
import TinyPascal.Proofs.Typing.Judgement

/-!
# What is charged with a violation

Every violation is charged to something in the tree, at its place: a node of an expression to its
name or its operator, a statement to a name that it gives a value to, to the types of its assignment
or to its condition, and a declaration to the name that it repeats.
-/
namespace TinyPascal

variable {symbols : SymbolTable}

/-- `node.IsCharged e`: the violation `e` is one of the node itself. -/
inductive Expr.IsCharged : Expr → SemanticError → Prop where
  | name (name : String) (p : Position) : IsCharged (.var name p) ⟨.notDeclared name, p⟩
  | negation (operand : Expr) (p : Position) (found : Ty) :
      IsCharged (.neg operand p) ⟨.unaryOperand found, p⟩
  | arithmetic (op : ArithmeticOp) (left right : Expr) (p : Position) (l r : Ty) :
      IsCharged (.binary (.arithmetic op) left right p) ⟨.arithmeticOperands op l r, p⟩
  | relational (op : RelationalOp) (left right : Expr) (p : Position) (l r : Ty) :
      IsCharged (.binary (.relational op) left right p) ⟨.relationalOperands op l r, p⟩

theorem SymbolTable.mem_undeclared {name : String} {p : Position} {e : SemanticError}
    (h : e ∈ symbols.undeclared name p) : e = ⟨.notDeclared name, p⟩ := by
  rw [undeclared] at h
  split_ifs at h
  · cases h
  · exact List.mem_singleton.1 h

theorem BinaryOp.isCharged_of_violation? {op : BinaryOp} {l r : Ty} {v : Violation}
    (h : op.violation? l r = some v) (left right : Expr) (p : Position) :
    (Expr.binary op left right p).IsCharged ⟨v, p⟩ := by
  cases op with
  | arithmetic op =>
    rw [violation?] at h
    split_ifs at h
    cases h
    exact .arithmetic op left right p l r
  | relational op =>
    rw [violation?] at h
    split_ifs at h
    cases h
    exact .relational op left right p l r

/-- A violation of an expression is charged to one of its nodes. -/
theorem Expr.isCharged_of_mem {x : Expr} {e : SemanticError} (h : e ∈ x.violations symbols) :
    ∃ node ∈ x.nodes, node.IsCharged e := by
  induction x with
  | int value p | str value p => cases h
  | var name p =>
    rw [SymbolTable.mem_undeclared h]
    exact ⟨_, List.mem_singleton_self _, .name name p⟩
  | neg operand p ih =>
    rw [violations, List.mem_append] at h
    obtain h | h := h
    · obtain ⟨node, hnode, hcharged⟩ := ih h
      exact ⟨node, List.mem_cons_of_mem _ hnode, hcharged⟩
    · split at h
      · rw [List.mem_singleton.1 h]
        exact ⟨_, List.mem_cons_self, .negation operand p _⟩
      · cases h
  | binary op left right p ihl ihr =>
    rw [violations, List.mem_append, List.mem_append] at h
    obtain (h | h) | h := h
    · obtain ⟨node, hnode, hcharged⟩ := ihl h
      exact ⟨node, List.mem_append_left _ hnode, hcharged⟩
    · obtain ⟨node, hnode, hcharged⟩ := ihr h
      exact ⟨node, List.mem_append_right _ (List.mem_cons_of_mem _ hnode), hcharged⟩
    · split at h
      · simp only [List.mem_map, Option.mem_toList] at h
        obtain ⟨v, hv, rfl⟩ := h
        exact ⟨_, List.mem_append_right _ List.mem_cons_self,
          BinaryOp.isCharged_of_violation? hv left right p⟩
      · cases h

/-- `s.IsCharged e`: the violation `e` is one of the statement, apart from the statements in it. -/
inductive Statement.IsCharged : Statement → SemanticError → Prop where
  | node {s : Statement} {node : Expr} {e : SemanticError} (hnode : node ∈ s.nodes)
      (h : node.IsCharged e) : IsCharged s e
  | target {s : Statement} {target : Identifier} (h : target ∈ s.ownTargets) :
      IsCharged s ⟨.notDeclared target.name, target.position⟩
  | types (target : Identifier) (value : Expr) (p : Position) (expected found : Ty) :
      IsCharged (.assign target value p) ⟨.incompatibleTypes target.name expected found, p⟩
  | condition {s : Statement} (found : Ty)
      (h : s.firstKind = .keyword .«if» ∨ s.firstKind = .keyword .«while») :
      IsCharged s ⟨.conditionNotInteger found, s.position⟩

namespace Statement

theorem isCharged_of_mem_condition {s : Statement} {condition : Expr} {e : SemanticError}
    (hs : s.firstKind = .keyword .«if» ∨ s.firstKind = .keyword .«while»)
    (hnodes : condition.nodes ⊆ s.nodes)
    (h : e ∈ condition.conditionViolations symbols s.position) : s.IsCharged e := by
  rw [Expr.conditionViolations, List.mem_append] at h
  obtain h | h := h
  · obtain ⟨node, hnode, hcharged⟩ := Expr.isCharged_of_mem h
    exact .node (hnodes hnode) hcharged
  · split at h
    · rw [List.mem_singleton.1 h]
      exact .condition _ hs
    · cases h

theorem isCharged_of_mem_assignment {target : Identifier} {value : Expr} {p : Position}
    {e : SemanticError} (h : e ∈ target.assignmentViolations symbols value p) :
    (assign target value p).IsCharged e := by
  rw [Identifier.assignmentViolations, List.mem_append, List.mem_append] at h
  obtain (h | h) | h := h
  · rw [SymbolTable.mem_undeclared h]
    exact .target (List.mem_singleton_self target)
  · obtain ⟨node, hnode, hcharged⟩ := Expr.isCharged_of_mem h
    refine .node ?_ hcharged
    rwa [nodes]
  · split at h
    · split_ifs at h
      · cases h
      · rw [List.mem_singleton.1 h]
        exact .types target value p _ _
    · cases h

mutual

theorem isCharged_of_mem : ∀ (s : Statement) {e : SemanticError}, e ∈ s.violations symbols →
    ∃ part ∈ s.parts, part.IsCharged e
  | assign target value p, e, h => by
    rw [violations] at h
    exact ⟨_, self_mem_parts _, isCharged_of_mem_assignment h⟩
  | read targets p, e, h => by
    rw [violations, List.mem_flatMap] at h
    obtain ⟨target, htarget, h⟩ := h
    rw [SymbolTable.mem_undeclared h]
    exact ⟨_, self_mem_parts _, .target htarget⟩
  | write values p, e, h => by
    rw [violations, List.mem_flatMap] at h
    obtain ⟨value, hvalue, h⟩ := h
    obtain ⟨node, hnode, hcharged⟩ := Expr.isCharged_of_mem h
    refine ⟨_, self_mem_parts _, .node ?_ hcharged⟩
    rw [nodes]
    exact List.mem_flatMap.2 ⟨value, hvalue, hnode⟩
  | block body p, e, h => by
    rw [violations] at h
    obtain ⟨part, hpart, hcharged⟩ := isCharged_of_mem_all body h
    rw [parts]
    exact ⟨part, List.mem_cons_of_mem _ hpart, hcharged⟩
  | ifThen condition consequent p, e, h => by
    rw [violations, List.mem_append] at h
    obtain h | h := h
    · refine ⟨_, self_mem_parts _, isCharged_of_mem_condition (.inl rfl) ?_ h⟩
      rw [nodes]
      exact List.subset_append_left _ _
    · obtain ⟨part, hpart, hcharged⟩ := isCharged_of_mem consequent h
      rw [parts]
      exact ⟨part, List.mem_cons_of_mem _ hpart, hcharged⟩
  | ifElse condition consequent alternative p, e, h => by
    rw [violations, List.mem_append, List.mem_append] at h
    obtain (h | h) | h := h
    · refine ⟨_, self_mem_parts _, isCharged_of_mem_condition (.inl rfl) ?_ h⟩
      rw [nodes]
      exact List.subset_append_left _ _
    · obtain ⟨part, hpart, hcharged⟩ := isCharged_of_mem consequent h
      rw [parts]
      exact ⟨part, List.mem_cons_of_mem _ (List.mem_append_left _ hpart), hcharged⟩
    · obtain ⟨part, hpart, hcharged⟩ := isCharged_of_mem alternative h
      rw [parts]
      exact ⟨part, List.mem_cons_of_mem _ (List.mem_append_right _ hpart), hcharged⟩
  | whileDo condition body p, e, h => by
    rw [violations, List.mem_append] at h
    obtain h | h := h
    · refine ⟨_, self_mem_parts _, isCharged_of_mem_condition (.inr rfl) ?_ h⟩
      rw [nodes]
      exact List.subset_append_left _ _
    · obtain ⟨part, hpart, hcharged⟩ := isCharged_of_mem body h
      rw [parts]
      exact ⟨part, List.mem_cons_of_mem _ hpart, hcharged⟩

theorem isCharged_of_mem_all : ∀ (body : List Statement) {e : SemanticError},
    e ∈ violationsOfAll symbols body → ∃ part ∈ partsOfAll body, part.IsCharged e
  | [], e, h => by
    rw [violationsOfAll] at h
    cases h
  | s :: rest, e, h => by
    rw [violationsOfAll, List.mem_append] at h
    rw [partsOfAll]
    obtain h | h := h
    · obtain ⟨part, hpart, hcharged⟩ := isCharged_of_mem s h
      exact ⟨part, List.mem_append_left _ hpart, hcharged⟩
    · obtain ⟨part, hpart, hcharged⟩ := isCharged_of_mem_all rest h
      exact ⟨part, List.mem_append_right _ hpart, hcharged⟩

end

end Statement

/-- A repeated declaration is charged to the name that it repeats. -/
theorem SymbolTable.mem_declareAll {entries : List (Identifier × Ty)} {e : SemanticError}
    (h : e ∈ (symbols.declareAll entries).2) :
    ∃ entry ∈ entries, e = ⟨.alreadyDeclared entry.1.name, entry.1.position⟩ := by
  induction entries generalizing symbols with
  | nil => cases h
  | cons entry entries ih =>
    obtain ⟨target, type⟩ := entry
    cases hmem : symbols.contains target.name with
    | true =>
      rw [declareAll_cons_of_bound hmem, List.mem_cons] at h
      obtain rfl | h := h
      · exact ⟨_, List.mem_cons_self, rfl⟩
      · obtain ⟨entry, hentry, he⟩ := ih h
        exact ⟨entry, List.mem_cons_of_mem _ hentry, he⟩
    | false =>
      rw [declareAll_cons_of_new hmem] at h
      obtain ⟨entry, hentry, he⟩ := ih h
      exact ⟨entry, List.mem_cons_of_mem _ hentry, he⟩

/-- A violation of a program is a repeated declaration of a name, or it is charged to one of the
statements. -/
theorem Program.isCharged_of_mem {program : Program} {e : SemanticError}
    (h : e ∈ (analyze program).errors) :
    (∃ d ∈ program.declarations, ∃ i ∈ d.names, e = ⟨.alreadyDeclared i.name, i.position⟩) ∨
      ∃ part ∈ program.parts, part.IsCharged e := by
  obtain h | h := List.mem_append.1 h
  · obtain ⟨entry, hentry, he⟩ := SymbolTable.mem_declareAll h
    obtain ⟨d, hd, hentry⟩ := List.mem_flatMap.1 hentry
    obtain ⟨i, hi, rfl⟩ := List.mem_map.1 hentry
    exact .inl ⟨d, hd, i, hi, he⟩
  · exact .inr (Statement.isCharged_of_mem_all _ h)

end TinyPascal
