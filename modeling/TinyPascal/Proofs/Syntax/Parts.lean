import Mathlib.Data.List.Infix
import TinyPascal.Proofs.Syntax.Anchor

/-!
# Parts of programs

The parts of a statement are the statement itself and the parts of the statements in it. In a
program that is read, every part has been read from tokens that stand side by side, and it is
anchored to the first of them. Every name in a declaration, an assignment or a read statement has a
token of its own.
-/
namespace TinyPascal

open Grammar

namespace Statement

mutual

/-- A statement and all statements in it. -/
def parts : Statement → List Statement
  | assign target value p => [assign target value p]
  | read targets p => [read targets p]
  | write values p => [write values p]
  | block body p => block body p :: partsOfAll body
  | ifThen condition consequent p => ifThen condition consequent p :: consequent.parts
  | ifElse condition consequent alternative p =>
    ifElse condition consequent alternative p :: (consequent.parts ++ alternative.parts)
  | whileDo condition body p => whileDo condition body p :: body.parts

def partsOfAll : List Statement → List Statement
  | [] => []
  | s :: rest => s.parts ++ partsOfAll rest

end

theorem self_mem_parts (s : Statement) : s ∈ s.parts := by
  cases s <;> simp [parts]

theorem partsOfAll_eq_flatMap (body : List Statement) : partsOfAll body = body.flatMap parts := by
  induction body with
  | nil => rw [partsOfAll, List.flatMap_nil]
  | cons s rest ih => rw [partsOfAll, ih, List.flatMap_cons]

mutual

theorem nodes_subset : ∀ (s : Statement) {part : Statement}, part ∈ s.parts → part.nodes ⊆ s.nodes
  | assign _ _ _, _, h | read _ _, _, h | write _ _, _, h => by
    rw [parts, List.mem_singleton] at h
    rw [h]
    exact List.Subset.refl _
  | block body p, part, h => by
    rw [parts, List.mem_cons] at h
    obtain rfl | h := h
    · exact List.Subset.refl _
    · rw [nodes]
      exact nodesOfAll_subset body h
  | ifThen condition consequent p, part, h => by
    rw [parts, List.mem_cons] at h
    obtain rfl | h := h
    · exact List.Subset.refl _
    · rw [nodes]
      exact List.subset_append_of_subset_right _ (nodes_subset consequent h)
  | ifElse condition consequent alternative p, part, h => by
    rw [parts, List.mem_cons, List.mem_append] at h
    obtain rfl | h | h := h
    · exact List.Subset.refl _
    · rw [nodes]
      exact List.subset_append_of_subset_right _
        (List.subset_append_of_subset_left _ (nodes_subset consequent h))
    · rw [nodes]
      exact List.subset_append_of_subset_right _
        (List.subset_append_of_subset_right _ (nodes_subset alternative h))
  | whileDo condition body p, part, h => by
    rw [parts, List.mem_cons] at h
    obtain rfl | h := h
    · exact List.Subset.refl _
    · rw [nodes]
      exact List.subset_append_of_subset_right _ (nodes_subset body h)

theorem nodesOfAll_subset : ∀ (body : List Statement) {part : Statement},
    part ∈ partsOfAll body → part.nodes ⊆ nodesOfAll body
  | [], part, h => by
    rw [partsOfAll] at h
    cases h
  | s :: rest, part, h => by
    rw [partsOfAll, List.mem_append] at h
    rw [nodesOfAll]
    obtain h | h := h
    · exact List.subset_append_of_subset_left _ (nodes_subset s h)
    · exact List.subset_append_of_subset_right _ (nodesOfAll_subset rest h)

end

/-- The kind of the token that a statement starts with. -/
def firstKind : Statement → TokenKind
  | assign _ _ _ => .identifier
  | read _ _ => .keyword .read
  | write _ _ => .keyword .write
  | block _ _ => .keyword .begin
  | ifThen _ _ _ | ifElse _ _ _ _ => .keyword .«if»
  | whileDo _ _ _ => .keyword .«while»

/-- The names that a statement gives values to, apart from the statements in it. -/
def ownTargets : Statement → List Identifier
  | assign target _ _ => [target]
  | read targets _ => targets
  | _ => []

/-- `s.IsReadFrom ts`: the statement has been read from tokens that stand side by side in `ts`. -/
def IsReadFrom (s : Statement) (ts : List Token) : Prop :=
  ∃ beforeElse us, us <:+: ts ∧ DerivesStmt beforeElse us s

theorem IsReadFrom.mono {s : Statement} {ts us : List Token} (h : s.IsReadFrom ts)
    (hwithin : ts <:+: us) : s.IsReadFrom us := by
  obtain ⟨beforeElse, vs, hvs, hs⟩ := h
  exact ⟨beforeElse, vs, hvs.trans hwithin, hs⟩

end Statement

def Program.parts (program : Program) : List Statement :=
  Statement.partsOfAll program.statements

/-- `t.Names i`: the token is the name `i`, at the same place. -/
structure Token.Names (t : Token) (i : Identifier) : Prop where
  kind : t.kind = .identifier
  lexeme : t.lexeme = i.name
  position : t.position = i.position

namespace Grammar

open Statement

/-- A statement is anchored to its first token, whose kind it determines. -/
theorem DerivesStmt.exists_first {beforeElse : Bool} {ts : List Token} {s : Statement}
    (h : DerivesStmt beforeElse ts s) :
    ∃ t us, ts = t :: us ∧ t.kind = s.firstKind ∧ t.position = s.position := by
  cases h <;> exact ⟨_, _, rfl, ‹_›, rfl⟩

theorem DerivesStmt.isReadFrom_self {beforeElse : Bool} {ts : List Token} {s : Statement}
    (h : DerivesStmt beforeElse ts s) : s.IsReadFrom ts :=
  ⟨beforeElse, ts, List.infix_rfl, h⟩

mutual

/-- The parts of a statement have been read from its tokens. -/
theorem DerivesStmt.isReadFrom {beforeElse : Bool} {ts : List Token} {s part : Statement} :
    DerivesStmt beforeElse ts s → part ∈ s.parts → part.IsReadFrom ts
  | hself@(.assign _ _ _), h | hself@(.read _ _ _ _), h | hself@(.write _ _ _ _), h => by
    rw [parts, List.mem_singleton] at h
    subst h
    exact hself.isReadFrom_self
  | hself@(.block _ hbody _ _), h => by
    rw [parts, List.mem_cons] at h
    obtain rfl | h := h
    · exact hself.isReadFrom_self
    · exact (hbody.isReadFrom h).mono
        (List.infix_cons (List.infix_append_of_infix_left List.infix_rfl))
  | hself@(.ifThen _ _ _ hs), h => by
    rw [parts, List.mem_cons] at h
    obtain rfl | h := h
    · exact hself.isReadFrom_self
    · exact (hs.isReadFrom h).mono
        (List.infix_cons (List.infix_append_of_infix_right (List.infix_cons List.infix_rfl)))
  | hself@(.ifElse _ _ _ hs _ hr), h => by
    rw [parts, List.mem_cons, List.mem_append] at h
    obtain rfl | h | h := h
    · exact hself.isReadFrom_self
    · exact (hs.isReadFrom h).mono (List.infix_cons (List.infix_append_of_infix_right
        (List.infix_cons (List.infix_append_of_infix_left List.infix_rfl))))
    · exact (hr.isReadFrom h).mono (List.infix_cons (List.infix_append_of_infix_right
        (List.infix_cons (List.infix_append_of_infix_right (List.infix_cons List.infix_rfl)))))
  | hself@(.whileDo _ _ _ hs), h => by
    rw [parts, List.mem_cons] at h
    obtain rfl | h := h
    · exact hself.isReadFrom_self
    · exact (hs.isReadFrom h).mono
        (List.infix_cons (List.infix_append_of_infix_right (List.infix_cons List.infix_rfl)))

theorem DerivesStmts.isReadFrom {beforeElse : Bool} {ts : List Token} {body : List Statement}
    {part : Statement} :
    DerivesStmts beforeElse ts body → part ∈ partsOfAll body → part.IsReadFrom ts
  | .one hs, h => by
    rw [partsOfAll_eq_flatMap, List.flatMap_singleton] at h
    exact hs.isReadFrom h
  | .more hbody _ hs, h => by
    rw [partsOfAll_eq_flatMap, List.flatMap_append, List.flatMap_singleton,
      ← partsOfAll_eq_flatMap, List.mem_append] at h
    obtain h | h := h
    · exact (hbody.isReadFrom h).mono (List.infix_append_of_infix_left List.infix_rfl)
    · exact (hs.isReadFrom h).mono
        (List.infix_append_of_infix_right (List.infix_cons List.infix_rfl))

end

theorem DerivesList.exists_token {ts : List Token} {names : List Identifier} {i : Identifier}
    (h : DerivesList DerivesName ts names) (hi : i ∈ names) : ∃ t ∈ ts, t.Names i := by
  induction h with
  | one ha =>
    cases ha with
    | @name t ht =>
      rw [List.mem_singleton] at hi
      exact ⟨t, List.mem_singleton_self t, hi ▸ ⟨ht, rfl, rfl⟩⟩
  | @more t ts us items a _ _ ha ih =>
    rw [List.mem_append, List.mem_singleton] at hi
    obtain hi | rfl := hi
    · obtain ⟨u, hu, hnames⟩ := ih hi
      exact ⟨u, List.mem_append_left _ hu, hnames⟩
    · cases ha with
      | @name u hu => exact ⟨u, by simp, hu, rfl, rfl⟩

theorem DerivesStmt.exists_token {beforeElse : Bool} {ts : List Token} {s : Statement}
    {i : Identifier} (h : DerivesStmt beforeElse ts s) (hi : i ∈ s.ownTargets) :
    ∃ t ∈ ts, t.Names i := by
  cases h with
  | @assign _ t a ts e ht ha he =>
    rw [ownTargets, List.mem_singleton] at hi
    exact ⟨t, List.mem_cons_self, hi ▸ ⟨ht, rfl, rfl⟩⟩
  | read ht hl htargets hr =>
    obtain ⟨t, ht, hnames⟩ := htargets.exists_token hi
    exact ⟨t, by simp [ht], hnames⟩
  | write | block | ifThen | ifElse | whileDo => cases hi

theorem DerivesDecl.exists_token {ts : List Token} {d : Declaration} {i : Identifier}
    (h : DerivesDecl ts d) (hi : i ∈ d.names) : ∃ t ∈ ts, t.Names i := by
  cases h with
  | decl hnames _ _ _ =>
    obtain ⟨t, ht, hnames⟩ := hnames.exists_token hi
    exact ⟨t, List.mem_append_left _ ht, hnames⟩

theorem DerivesDeclarations.exists_token {ts : List Token} {ds : List Declaration}
    {d : Declaration} {i : Identifier} (h : DerivesDeclarations ts ds) (hd : d ∈ ds)
    (hi : i ∈ d.names) : ∃ t ∈ ts, t.Names i := by
  cases h with
  | absent => cases hd
  | @present t ts _ _ hds =>
    suffices ∃ u ∈ ts, u.Names i by
      obtain ⟨u, hu, hnames⟩ := this
      exact ⟨u, List.mem_cons_of_mem t hu, hnames⟩
    induction hds with
    | one hone =>
      rw [List.mem_singleton] at hd
      exact (hd ▸ hone).exists_token hi
    | more _ hone ih =>
      rw [List.mem_append, List.mem_singleton] at hd
      obtain hd | rfl := hd
      · obtain ⟨u, hu, hnames⟩ := ih hd
        exact ⟨u, List.mem_append_left _ hu, hnames⟩
      · obtain ⟨u, hu, hnames⟩ := hone.exists_token hi
        exact ⟨u, List.mem_append_right _ hu, hnames⟩

theorem DerivesProgram.isReadFrom {ts : List Token} {program : Program} {part : Statement}
    (h : DerivesProgram ts program) (hpart : part ∈ program.parts) : part.IsReadFrom ts := by
  cases h with
  | @program t n s b e d ds ts last _ _ _ _ _ _ _ hbody _ _ _ =>
    refine (hbody.isReadFrom hpart).mono ?_
    exact ⟨t :: n :: s :: (ds ++ [b]), last ++ [e, d], by simp⟩

theorem DerivesProgram.exists_token {ts : List Token} {program : Program} {d : Declaration}
    {i : Identifier} (h : DerivesProgram ts program) (hd : d ∈ program.declarations)
    (hi : i ∈ d.names) : ∃ t ∈ ts, t.Names i := by
  cases h with
  | program _ _ _ hds _ _ _ _ _ =>
    obtain ⟨t, ht, hnames⟩ := hds.exists_token hd hi
    exact ⟨t, by simp [ht], hnames⟩

end Grammar

end TinyPascal
