import Mathlib.Tactic
import TinyPascal.Proofs.Syntax.Grammar
import TinyPascal.Proofs.Text.Numeral
import TinyPascal.Token.Lexer

/-!
# Well-formed trees

A tree is well-formed if it can be written down: its lists are not empty, its names are words that
are no keywords, its literals are not negative, its variables are integers, and no `else` would be
taken by another `if` than its own. Every tree that is derived from the tokens of a source text is
well-formed. Trees are compared by what is left of them without positions.
-/
namespace TinyPascal

namespace Identifier

def erase (i : Identifier) : Identifier := ⟨i.name, .start⟩

end Identifier

/-- An expression with all positions forgotten. -/
def Expr.erase : Expr → Expr
  | .int value _ => .int value .start
  | .str value _ => .str value .start
  | .var name _ => .var name .start
  | .neg operand _ => .neg operand.erase .start
  | .binary op left right _ => .binary op left.erase right.erase .start

namespace Statement

mutual

def erase : Statement → Statement
  | .assign target value _ => .assign target.erase value.erase .start
  | .read targets _ => .read (targets.map Identifier.erase) .start
  | .write values _ => .write (values.map Expr.erase) .start
  | .block body _ => .block (eraseAll body) .start
  | .ifThen condition consequent _ => .ifThen condition.erase consequent.erase .start
  | .ifElse condition consequent alternative _ =>
    .ifElse condition.erase consequent.erase alternative.erase .start
  | .whileDo condition body _ => .whileDo condition.erase body.erase .start

def eraseAll : List Statement → List Statement
  | [] => []
  | s :: rest => s.erase :: eraseAll rest

end

end Statement

def Declaration.erase (d : Declaration) : Declaration :=
  ⟨d.names.map Identifier.erase, d.type, .start⟩

def Program.erase (p : Program) : Program :=
  ⟨p.name.erase, p.declarations.map Declaration.erase, Statement.eraseAll p.statements, .start⟩

/-- A text that is a word and no keyword, whatever the case of its ASCII letters. -/
structure IsName (name : String) : Prop where
  isWord : ∃ c cs, name.toList = c :: cs ∧ Lexer.isWordStart c = true ∧
    ∀ d ∈ cs, Lexer.isWordPart d = true
  notKeyword : Keyword.ofWord? name = none

/-- The names of an expression can be written, and its literals are not negative. -/
def Expr.WellFormed : Expr → Prop
  | .int value _ => 0 ≤ value.toInt
  | .str _ _ => True
  | .var name _ => IsName name
  | .neg operand _ => operand.WellFormed
  | .binary _ left right _ => left.WellFormed ∧ right.WellFormed

namespace Statement

/-- Whether a statement ends in a conditional without an alternative, which would take an `else`
that follows the statement. -/
def endsOpen : Statement → Bool
  | .ifThen _ _ _ => true
  | .ifElse _ _ alternative _ => alternative.endsOpen
  | .whileDo _ body _ => body.endsOpen
  | _ => false

mutual

/-- The parts of a statement are well-formed, its lists are not empty, and a consequent does not
take the `else` of its conditional. -/
def WellFormed : Statement → Prop
  | .assign target value _ => IsName target.name ∧ value.WellFormed
  | .read targets _ => targets ≠ [] ∧ ∀ i ∈ targets, IsName i.name
  | .write values _ => values ≠ [] ∧ ∀ e ∈ values, e.WellFormed
  | .block body _ => body ≠ [] ∧ WellFormedAll body
  | .ifThen condition consequent _ => condition.WellFormed ∧ consequent.WellFormed
  | .ifElse condition consequent alternative _ =>
    condition.WellFormed ∧ consequent.WellFormed ∧ consequent.endsOpen = false ∧
      alternative.WellFormed
  | .whileDo condition body _ => condition.WellFormed ∧ body.WellFormed

def WellFormedAll : List Statement → Prop
  | [] => True
  | s :: rest => s.WellFormed ∧ WellFormedAll rest

end

theorem wellFormedAll_append {left right : List Statement} :
    WellFormedAll (left ++ right) ↔ WellFormedAll left ∧ WellFormedAll right := by
  induction left with
  | nil => simp [WellFormedAll]
  | cons s rest ih => simp [WellFormedAll, ih, and_assoc]

end Statement

/-- A group declares at least one integer. -/
structure Declaration.WellFormed (d : Declaration) : Prop where
  ne_nil : d.names ≠ []
  isName : ∀ i ∈ d.names, IsName i.name
  isInteger : d.type = .integer

structure Program.WellFormed (p : Program) : Prop where
  isName : IsName p.name.name
  declarations : ∀ d ∈ p.declarations, d.WellFormed
  ne_nil : p.statements ≠ []
  statements : Statement.WellFormedAll p.statements

/-- What the lexer makes sure of: an identifier is a name, an integer literal a run of digits. -/
structure Token.IsWritten (t : Token) : Prop where
  isName : t.kind = .identifier → IsName t.lexeme
  isDigits : t.kind = .integerLiteral → ∀ c ∈ t.lexeme.toList, c.isDigit = true

namespace Grammar

variable {ts : List Token}

theorem DerivesExpr.wellFormed {level : Level} {e : Expr} (h : DerivesExpr level ts e)
    (hts : ∀ t ∈ ts, t.IsWritten) : e.WellFormed := by
  induction h with
  | int ht hvalue => exact Integer.nonneg_of_ofText? ((hts _ (by simp)).isDigits ht) hvalue
  | name ht => exact (hts _ (by simp)).isName ht
  | string ht => exact trivial
  | minus ht he ih => exact ih fun t h => hts t (by simp [h])
  | parens hl he hr ih => exact ih fun t h => hts t (by simp [h])
  | factor he ih | term he ih | arith he ih => exact ih hts
  | product hl hop ht hr ihl ihr | sum hl hop ht hr ihl ihr | comparison hl hop ht hr ihl ihr =>
    exact ⟨ihl fun t h => hts t (by simp [h]), ihr fun t h => hts t (by simp [h])⟩

/-- What holds of every item that is derived holds of all items of a list. -/
theorem DerivesList.forall_mem {α : Type} {Item : List Token → α → Prop} {P : α → Prop}
    {items : List α} (h : DerivesList Item ts items)
    (hitem : ∀ us a, Item us a → (∀ t ∈ us, t.IsWritten) → P a) (hts : ∀ t ∈ ts, t.IsWritten) :
    items ≠ [] ∧ ∀ a ∈ items, P a := by
  induction h with
  | one ha => simpa using hitem _ _ ha hts
  | more hitems ht ha ih =>
    have hfirst := (ih fun t h => hts t (by simp [h])).2
    have hlast := hitem _ _ ha fun t h => hts t (by simp [h])
    refine ⟨by simp, fun a h => ?_⟩
    rw [List.mem_append, List.mem_singleton] at h
    rcases h with h | rfl
    · exact hfirst a h
    · exact hlast

theorem DerivesName.isName {us : List Token} {i : Identifier} (h : DerivesName us i)
    (hus : ∀ t ∈ us, t.IsWritten) : IsName i.name := by
  cases h with
  | name ht => exact (hus _ (by simp)).isName ht

mutual

/-- A statement is well-formed, and before an `else` it does not end in a conditional without an
alternative. -/
theorem DerivesStmt.wellFormed {beforeElse : Bool} {ts : List Token} {s : Statement} :
    DerivesStmt beforeElse ts s → (∀ t ∈ ts, t.IsWritten) →
      s.WellFormed ∧ (beforeElse = true → s.endsOpen = false)
  | .assign ht ha he, hts => by
    have htarget := (hts _ (by simp)).isName ht
    have hvalue := he.wellFormed fun t h => hts t (by simp [h])
    exact ⟨⟨htarget, hvalue⟩, fun _ => rfl⟩
  | .read ht hl htargets hr, hts => by
    have hlist := htargets.forall_mem (fun us i hi => hi.isName) fun t h => hts t (by simp [h])
    exact ⟨hlist, fun _ => rfl⟩
  | .write ht hl hvalues hr, hts => by
    have hlist := hvalues.forall_mem (fun us e he => he.wellFormed) fun t h => hts t (by simp [h])
    exact ⟨hlist, fun _ => rfl⟩
  | .block ht hbody hlast hu, hts => by
    have hlist := hbody.wellFormed fun t h => hts t (by simp [h])
    exact ⟨hlist, fun _ => rfl⟩
  | .ifThen ht he hu hs, hts => by
    have hcondition := he.wellFormed fun t h => hts t (by simp [h])
    have hconsequent := hs.wellFormed fun t h => hts t (by simp [h])
    exact ⟨⟨hcondition, hconsequent.1⟩, fun h => Bool.noConfusion h⟩
  | .ifElse ht he hu hs hv hr, hts => by
    have hcondition := he.wellFormed fun t h => hts t (by simp [h])
    have hconsequent := hs.wellFormed fun t h => hts t (by simp [h])
    have halternative := hr.wellFormed fun t h => hts t (by simp [h])
    exact ⟨⟨hcondition, hconsequent.1, hconsequent.2 rfl, halternative.1⟩, halternative.2⟩
  | .whileDo ht he hu hs, hts => by
    have hcondition := he.wellFormed fun t h => hts t (by simp [h])
    have hbody := hs.wellFormed fun t h => hts t (by simp [h])
    exact ⟨⟨hcondition, hbody.1⟩, hbody.2⟩

theorem DerivesStmts.wellFormed {beforeElse : Bool} {ts : List Token} {body : List Statement} :
    DerivesStmts beforeElse ts body → (∀ t ∈ ts, t.IsWritten) →
      body ≠ [] ∧ Statement.WellFormedAll body
  | .one hs, hts => ⟨by simp, (hs.wellFormed hts).1, trivial⟩
  | .more hbody ht hs, hts => by
    have hlist := hbody.wellFormed fun t h => hts t (by simp [h])
    have hlast := hs.wellFormed fun t h => hts t (by simp [h])
    exact ⟨by simp, Statement.wellFormedAll_append.2 ⟨hlist.2, hlast.1, trivial⟩⟩

end

theorem DerivesDecl.wellFormed {d : Declaration} (h : DerivesDecl ts d)
    (hts : ∀ t ∈ ts, t.IsWritten) : d.WellFormed := by
  cases h with
  | decl hnames hc hi hs =>
    have hlist := hnames.forall_mem (fun us i hi => hi.isName) fun t h => hts t (by
      rw [List.mem_cons] at h
      rcases h with rfl | h <;> simp_all)
    exact ⟨hlist.1, hlist.2, rfl⟩

theorem DerivesDecls.wellFormed {ds : List Declaration} (h : DerivesDecls ts ds)
    (hts : ∀ t ∈ ts, t.IsWritten) : ∀ d ∈ ds, d.WellFormed := by
  induction h with
  | one hd => simpa using hd.wellFormed hts
  | more hds hd ih =>
    have hfirst := ih fun t h => hts t (by simp [h])
    have hlast := hd.wellFormed fun t h => hts t (by simp [h])
    intro d h
    rw [List.mem_append, List.mem_singleton] at h
    rcases h with h | rfl
    · exact hfirst d h
    · exact hlast

theorem DerivesProgram.wellFormed {p : Program} (h : DerivesProgram ts p)
    (hts : ∀ t ∈ ts, t.IsWritten) : p.WellFormed := by
  cases h with
  | program ht hn hs hds hb hbody hlast he hd =>
    have hlist := hbody.wellFormed fun t h => hts t (by simp [h])
    refine ⟨(hts _ (by simp)).isName hn, ?_, hlist.1, hlist.2⟩
    cases hds with
    | absent => simp
    | present hv hds => exact hds.wellFormed fun t h => hts t (by simp [h])

end Grammar

end TinyPascal
