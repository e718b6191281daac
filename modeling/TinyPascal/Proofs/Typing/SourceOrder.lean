import Mathlib.Tactic
import TinyPascal.Proofs.Syntax.Anchor
import TinyPascal.Proofs.Token.Order
import TinyPascal.Proofs.Typing.Judgement

/-!
# The order of violations

The analysis does not sort what it finds. A violation of a node, a condition or an assignment is
recorded after those of its parts although it stands before them in the text, and yet the list is
in the order of the text: such a violation is recorded only if nothing is wrong with the parts. So
the violations of a program that is read stand at different tokens of its text, in their order.
-/
namespace TinyPascal

def Violation.isRepetition : Violation → Bool
  | alreadyDeclared _ => true
  | _ => false

/-- The errors stand at different tokens of the list, in their order. They are all repeated
declarations, or none of them is. -/
structure Located (repetitions : Bool) (ts : List Token) (errors : List SemanticError) : Prop where
  isRepetition : ∀ e ∈ errors, e.violation.isRepetition = repetitions
  positions : (errors.map SemanticError.position).Sublist (ts.map Token.position)

namespace Located

variable {repetitions : Bool} {ts us : List Token} {errors others : List SemanticError}

theorem nil (ts : List Token) : Located repetitions ts [] := ⟨by simp, List.nil_sublist _⟩

theorem mono (h : Located repetitions ts errors) (hsublist : ts.Sublist us) :
    Located repetitions us errors :=
  ⟨h.isRepetition, h.positions.trans (hsublist.map Token.position)⟩

theorem append (h : Located repetitions ts errors) (hothers : Located repetitions us others) :
    Located repetitions (ts ++ us) (errors ++ others) := by
  constructor
  · intro e he
    rcases List.mem_append.1 he with he | he
    · exact h.isRepetition e he
    · exact hothers.isRepetition e he
  · rw [List.map_append, List.map_append]
    exact h.positions.append hothers.positions

theorem at_mem {t : Token} {v : Violation} (hv : v.isRepetition = repetitions) (ht : t ∈ ts) :
    Located repetitions ts [⟨v, t.position⟩] := by
  constructor
  · simpa using hv
  · exact List.singleton_sublist.2 (List.mem_map_of_mem ht)

theorem skip (h : Located repetitions ts errors) (t : Token) :
    Located repetitions (t :: ts) errors :=
  h.mono (List.sublist_cons_self t ts)

theorem skipLast (h : Located repetitions ts errors) (us : List Token) :
    Located repetitions (ts ++ us) errors :=
  h.mono (List.sublist_append_left ts us)

end Located

variable {symbols : SymbolTable}

theorem BinaryOp.isRepetition_of_violation? {op : BinaryOp} {left right : Ty} {v : Violation}
    (h : op.violation? left right = some v) : v.isRepetition = false := by
  cases op with
  | arithmetic op | relational op =>
    rw [violation?] at h
    split_ifs at h
    cases h
    rfl

namespace Expr

/-- A negation is charged only if nothing is wrong with its operand. -/
theorem violations_neg (operand : Expr) (p : Position) :
    (neg operand p).violations symbols = operand.violations symbols ∨
      ∃ v, (neg operand p).violations symbols = [⟨v, p⟩] ∧ v.isRepetition = false := by
  rw [violations]
  split
  · next htype =>
    right
    rw [violations_eq_nil_of_type? htype]
    exact ⟨_, rfl, rfl⟩
  · left
    rw [List.append_nil]

/-- An operation is charged only if nothing is wrong with its operands. -/
theorem violations_binary (op : BinaryOp) (left right : Expr) (p : Position) :
    (binary op left right p).violations symbols =
        left.violations symbols ++ right.violations symbols ∨
      ∃ v, (binary op left right p).violations symbols = [⟨v, p⟩] ∧ v.isRepetition = false := by
  rw [violations]
  split
  · next l r hl hr =>
    cases hop : op.violation? l r with
    | none => exact .inl (List.append_nil _)
    | some v =>
      right
      rw [violations_eq_nil_of_type? hl, violations_eq_nil_of_type? hr]
      exact ⟨v, rfl, BinaryOp.isRepetition_of_violation? hop⟩
  · left
    rw [List.append_nil]

/-- A statement is charged for its condition only if nothing is wrong within the condition. -/
theorem conditionViolations_cases (condition : Expr) (p : Position) :
    condition.conditionViolations symbols p = condition.violations symbols ∨
      ∃ v, condition.conditionViolations symbols p = [⟨v, p⟩] ∧ v.isRepetition = false := by
  rw [conditionViolations]
  split
  · next htype =>
    right
    rw [violations_eq_nil_of_type? htype]
    exact ⟨_, rfl, rfl⟩
  · left
    rw [List.append_nil]

end Expr

/-- An assignment is charged only if nothing is wrong with its target and its value. -/
theorem Identifier.assignmentViolations_cases (target : Identifier) (value : Expr) (p : Position) :
    target.assignmentViolations symbols value p =
        symbols.undeclared target.name target.position ++ value.violations symbols ∨
      ∃ v, target.assignmentViolations symbols value p = [⟨v, p⟩] ∧ v.isRepetition = false := by
  rw [assignmentViolations]
  split
  · next expected found htarget hvalue =>
    split_ifs
    · left
      rw [List.append_nil]
    · right
      rw [Expr.violations_eq_nil_of_type? hvalue,
        SymbolTable.undeclared_eq_nil_iff.2 ⟨expected, htarget⟩]
      exact ⟨_, rfl, rfl⟩
  · left
    rw [List.append_nil]

theorem SymbolTable.located_undeclared (name : String) (t : Token) :
    Located false [t] (symbols.undeclared name t.position) := by
  rw [undeclared]
  split_ifs
  · exact .nil [t]
  · exact .at_mem rfl (List.mem_singleton_self t)

theorem Statement.violationsOfAll_eq_flatMap (body : List Statement) :
    violationsOfAll symbols body = body.flatMap (violations symbols) := by
  induction body with
  | nil => rw [violationsOfAll, List.flatMap_nil]
  | cons s rest ih => rw [violationsOfAll, ih, List.flatMap_cons]

namespace Grammar

variable (symbols)

theorem DerivesExpr.located {level : Level} {ts : List Token} {e : Expr}
    (h : DerivesExpr level ts e) : Located false ts (e.violations symbols) := by
  induction h with
  | int _ _ | string _ => exact .nil _
  | @name t _ => exact SymbolTable.located_undeclared t.lexeme t
  | @minus t ts e _ _ ih =>
    rcases Expr.violations_neg e t.position with h | ⟨v, h, hv⟩
    · rw [h]
      exact ih.skip t
    · rw [h]
      exact .at_mem hv List.mem_cons_self
  | parens _ _ _ ih => exact (ih.skipLast _).skip _
  | factor _ ih | term _ ih | arith _ ih => exact ih
  | @product t ts us op l r _ _ _ _ ihl ihr | @sum t ts us op l r _ _ _ _ ihl ihr
  | @comparison t ts us op l r _ _ _ _ ihl ihr =>
    rcases Expr.violations_binary op l r t.position with h | ⟨v, h, hv⟩
    · rw [h]
      exact ihl.append (ihr.skip t)
    · rw [h]
      exact .at_mem hv (List.mem_append_right ts List.mem_cons_self)

theorem DerivesName.located {ts : List Token} {target : Identifier} (h : DerivesName ts target) :
    Located false ts (symbols.undeclared target.name target.position) := by
  cases h with
  | @name t _ => exact SymbolTable.located_undeclared t.lexeme t

theorem DerivesList.located {α : Type} {Item : List Token → α → Prop}
    {violations : α → List SemanticError}
    (hitem : ∀ ts a, Item ts a → Located false ts (violations a))
    {ts : List Token} {items : List α} (h : DerivesList Item ts items) :
    Located false ts (items.flatMap violations) := by
  induction h with
  | one ha => simpa using hitem _ _ ha
  | more _ _ ha ih =>
    rw [List.flatMap_append, List.flatMap_singleton]
    exact ih.append ((hitem _ _ ha).skip _)

/-- The violations of the condition of a statement, with the one at its keyword. -/
theorem DerivesExpr.located_condition {level : Level} {ts : List Token} {e : Expr}
    (h : DerivesExpr level ts e) (t : Token) :
    Located false (t :: ts) (e.conditionViolations symbols t.position) := by
  rcases e.conditionViolations_cases t.position with heq | ⟨v, heq, hv⟩
  · rw [heq]
    exact (h.located symbols).skip t
  · rw [heq]
    exact .at_mem hv List.mem_cons_self

theorem DerivesExpr.located_assignment {level : Level} {ts : List Token} {e : Expr}
    (h : DerivesExpr level ts e) (t a : Token) :
    Located false (t :: a :: ts)
      (Identifier.assignmentViolations symbols ⟨t.lexeme, t.position⟩ e t.position) := by
  rcases Identifier.assignmentViolations_cases ⟨t.lexeme, t.position⟩ e t.position
    with heq | ⟨v, heq, hv⟩
  · rw [heq]
    exact (SymbolTable.located_undeclared t.lexeme t).append ((h.located symbols).skip a)
  · rw [heq]
    exact .at_mem hv List.mem_cons_self

mutual

theorem DerivesStmt.located {beforeElse : Bool} {ts : List Token} {s : Statement} :
    DerivesStmt beforeElse ts s → Located false ts (s.violations symbols)
  | .assign _ _ he => by
    rw [Statement.violations]
    exact he.located_assignment symbols _ _
  | .read _ _ htargets _ => by
    rw [Statement.violations]
    have hlocated := htargets.located fun _ _ htarget => htarget.located symbols
    exact ((hlocated.skipLast _).skip _).skip _
  | .write _ _ hvalues _ => by
    rw [Statement.violations]
    have hlocated := hvalues.located fun _ _ hvalue => hvalue.located symbols
    exact ((hlocated.skipLast _).skip _).skip _
  | .block _ hbody _ _ => by
    rw [Statement.violations]
    exact (hbody.located.skipLast _).skip _
  | .ifThen _ he _ hs => by
    rw [Statement.violations]
    exact (he.located_condition symbols _).append (hs.located.skip _)
  | .ifElse _ he _ hs _ hr => by
    rw [Statement.violations, List.append_assoc]
    exact (he.located_condition symbols _).append
      ((hs.located.append (hr.located.skip _)).skip _)
  | .whileDo _ he _ hs => by
    rw [Statement.violations]
    exact (he.located_condition symbols _).append (hs.located.skip _)

theorem DerivesStmts.located {beforeElse : Bool} {ts : List Token} {body : List Statement} :
    DerivesStmts beforeElse ts body → Located false ts (Statement.violationsOfAll symbols body)
  | .one hs => by
    rw [Statement.violationsOfAll_eq_flatMap, List.flatMap_singleton]
    exact hs.located
  | .more hbody _ hs => by
    rw [Statement.violationsOfAll_eq_flatMap, List.flatMap_append, List.flatMap_singleton,
      ← Statement.violationsOfAll_eq_flatMap]
    exact hbody.located.append (hs.located.skip _)

end

end Grammar

/-- Declarations are charged one after the other, each at its name and at most once. -/
theorem SymbolTable.declareAll_errors (symbols : SymbolTable) (entries : List (Identifier × Ty)) :
    (∀ e ∈ (symbols.declareAll entries).2, e.violation.isRepetition = true) ∧
      ((symbols.declareAll entries).2.map SemanticError.position).Sublist
        (entries.map fun entry => entry.1.position) := by
  induction entries generalizing symbols with
  | nil => simp [declareAll]
  | cons entry entries ih =>
    obtain ⟨target, type⟩ := entry
    cases hmem : symbols.contains target.name with
    | true =>
      rw [declareAll_cons_of_bound hmem]
      obtain ⟨hrepetitions, hpositions⟩ := ih symbols
      refine ⟨?_, hpositions.cons_cons _⟩
      rintro e (_ | ⟨_, he⟩)
      · rfl
      · exact hrepetitions e he
    | false =>
      rw [declareAll_cons_of_new hmem]
      obtain ⟨hrepetitions, hpositions⟩ := ih (symbols.insert target.name ⟨type, target.position⟩)
      exact ⟨hrepetitions, hpositions.cons _⟩

namespace Grammar

theorem DerivesList.positions_names {ts : List Token} {names : List Identifier}
    (h : DerivesList DerivesName ts names) :
    (names.map Identifier.position).Sublist (ts.map Token.position) := by
  induction h with
  | one ha =>
    cases ha with
    | name ht => exact List.Sublist.refl _
  | more _ _ ha ih =>
    cases ha with
    | name ht =>
      simp only [List.map_append, List.map_cons, List.map_nil]
      exact ih.append (List.sublist_cons_self _ _)

/-- The places of the names in a group are those of tokens of its text. -/
theorem DerivesDecl.positions_entries {ts : List Token} {d : Declaration} (h : DerivesDecl ts d) :
    (d.entries.map fun entry => entry.1.position).Sublist (ts.map Token.position) := by
  cases h with
  | @decl t c i s ts names hnames _ _ _ =>
    have hentries : ((Declaration.mk names .integer t.position).entries.map fun entry =>
        entry.1.position) = names.map Identifier.position := by
      simp [Declaration.entries, Function.comp_def]
    rw [hentries]
    exact hnames.positions_names.trans ((List.sublist_append_left (t :: ts) [c, i, s]).map _)

theorem DerivesDecls.positions_entries {ts : List Token} {ds : List Declaration}
    (h : DerivesDecls ts ds) :
    ((ds.flatMap Declaration.entries).map fun entry => entry.1.position).Sublist
      (ts.map Token.position) := by
  induction h with
  | one hd => simpa using hd.positions_entries
  | more _ hd ih =>
    rw [List.flatMap_append, List.flatMap_singleton, List.map_append, List.map_append]
    exact ih.append hd.positions_entries

theorem DerivesDeclarations.positions_entries {ts : List Token} {ds : List Declaration}
    (h : DerivesDeclarations ts ds) :
    ((ds.flatMap Declaration.entries).map fun entry => entry.1.position).Sublist
      (ts.map Token.position) := by
  cases h with
  | absent => exact List.Sublist.refl _
  | present _ hds => exact hds.positions_entries.cons _

/-- The tokens of a program fall into two parts, with the repeated declarations in the first and all
other violations in the second. -/
theorem DerivesProgram.located {ts : List Token} {program : Program}
    (h : DerivesProgram ts program) :
    ∃ us vs repeated others, ts = us ++ vs ∧ (analyze program).errors = repeated ++ others ∧
      Located true us repeated ∧ Located false vs others := by
  cases h with
  | @program t n s b e d ds ts last declarations body _ _ _ hds _ hbody _ _ _ =>
    have hrepeated := SymbolTable.declareAll_errors ∅ (declarations.flatMap Declaration.entries)
    have hlocated : Located true ds _ := ⟨hrepeated.1, hrepeated.2.trans hds.positions_entries⟩
    exact ⟨t :: n :: s :: ds, b :: (ts ++ (last ++ [e, d])), _, _, rfl, rfl,
      ((hlocated.skip s).skip n).skip t, ((hbody.located _).skipLast _).skip b⟩

end Grammar

/-- The violations of a program that is read from a source text come in the order of the text, no
two of them at the same place. Repeated declarations come first and the violations of statements
after them. -/
theorem errors_increase_of_source {source : String} {tokens : List Token} {program : Program}
    (htokens : tokenize source = .ok tokens) (hprogram : parse tokens = .ok program) :
    ((analyze program).errors.map SemanticError.position).Pairwise (· < ·) ∧
    ((analyze program).errors.map SemanticError.position).Nodup ∧
    ∃ repeated others, (analyze program).errors = repeated ++ others ∧
      (∀ e ∈ repeated, e.violation.isRepetition = true) ∧
      ∀ e ∈ others, e.violation.isRepetition = false := by
  obtain ⟨rest, hrule⟩ := parse_eq_ok.1 hprogram
  obtain ⟨consumed, rfl, hderives, -⟩ := Rule.program_yields hrule
  obtain ⟨us, vs, repeated, others, rfl, herrors, hrepeated, hothers⟩ := hderives.located
  have hsublist : ((analyze program).errors.map SemanticError.position).Sublist
      ((us ++ vs ++ rest).map Token.position) := by
    rw [herrors, List.map_append, List.map_append, List.map_append]
    exact (hrepeated.positions.append hothers.positions).trans (List.sublist_append_left _ _)
  have hincrease : ((analyze program).errors.map SemanticError.position).Pairwise (· < ·) :=
    (List.pairwise_map.2 (pairwise_lt_of_tokenize htokens)).sublist hsublist
  exact ⟨hincrease, hincrease.imp fun hlt => hlt.ne,
    repeated, others, herrors, hrepeated.isRepetition, hothers.isRepetition⟩

/-- A program with a violation of every kind, in conditions, assignments and operands. -/
def flawed : String :=
  "program p; var x, x : integer; begin if \"a\" then x := \"b\" + y else x := \"b\" + 1;
  while \"c\" do x := \"d\"; write(-\"e\", z < 1, \"f\" < 2) end."

theorem errors_increase_of_source_flawed :
    ∃ tokens program, tokenize flawed = .ok tokens ∧ parse tokens = .ok program ∧
      (analyze program).errors.length = 9 ∧
      ((analyze program).errors.map SemanticError.position).Pairwise (· < ·) := by
  have hreads : (match tokenize flawed with
      | .ok tokens => (parse tokens).toOption.any fun program =>
        (analyze program).errors.length == 9
      | .error _ => false) = true := by decide +kernel
  cases htokens : tokenize flawed with
  | error e => simp [htokens] at hreads
  | ok tokens =>
    cases hprogram : parse tokens with
    | error e => simp [htokens, hprogram, Except.toOption] at hreads
    | ok program =>
      simp only [htokens, hprogram, Except.toOption, Option.any_some, beq_iff_eq] at hreads
      exact ⟨tokens, program, rfl, hprogram, hreads,
        (errors_increase_of_source htokens hprogram).1⟩

end TinyPascal
