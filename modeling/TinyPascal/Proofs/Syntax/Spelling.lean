import TinyPascal.Proofs.Token.Lexing

/-!
# Spelling

How a tree is written: its tokens in order, with a blank between each two of them. An operand stands
in parentheses if its operator is looser than the level that the place of the operand allows, and
nowhere else. The tokens of a well-formed tree are tokens that a source text can hold.
-/
namespace TinyPascal

open Grammar

def Grammar.Level.tightness : Level → ℕ
  | .expr => 0
  | .arith => 1
  | .term => 2
  | .factor => 3

namespace BinaryOp

/-- The level of an operation: comparisons are looser than sums, and sums than products. -/
def level : BinaryOp → Level
  | relational _ => .expr
  | arithmetic op => if op.isAdditive then .arith else .term

/-- The level of a left operand: operators of one level group to the left, and comparisons do not
chain. -/
def leftLevel : BinaryOp → Level
  | relational _ => .arith
  | arithmetic op => if op.isAdditive then .arith else .term

def rightLevel : BinaryOp → Level
  | relational _ => .arith
  | arithmetic op => if op.isAdditive then .term else .factor

end BinaryOp

/-- The tightest level that an expression is of without parentheses. -/
def Expr.level : Expr → Level
  | .binary op _ _ _ => op.level
  | _ => .factor

namespace Lexeme

def keyword (k : Keyword) : Lexeme := (.keyword k, k.spelling)

def mark (m : Mark) : Lexeme := (.mark m, m.spelling)

def ofName (i : Identifier) : List Lexeme := [(.identifier, i.name)]

/-- The tokens of an expression where a given level is required: in parentheses if the expression
is looser. -/
def atLevel (required actual : Level) (ls : List Lexeme) : List Lexeme :=
  if required.tightness ≤ actual.tightness then ls
  else mark .leftParen :: (ls ++ [mark .rightParen])

/-- The tokens of several items with a mark between each two items. -/
def separatedBy (m : Mark) : List (List Lexeme) → List Lexeme
  | [] => []
  | [ls] => ls
  | ls :: ms :: rest => ls ++ mark m :: separatedBy m (ms :: rest)

end Lexeme

def Expr.lexemes : Expr → List Lexeme
  | .int value _ => [(.integerLiteral, value.text)]
  | .str value _ => [(.stringLiteral, value)]
  | .var name _ => [(.identifier, name)]
  | .neg operand _ => .mark .minus :: Lexeme.atLevel .factor operand.level operand.lexemes
  | .binary op left right _ =>
    Lexeme.atLevel op.leftLevel left.level left.lexemes ++
      .mark op.mark :: Lexeme.atLevel op.rightLevel right.level right.lexemes

namespace Statement

mutual

def lexemes : Statement → List Lexeme
  | .assign target value _ => Lexeme.ofName target ++ .mark .assign :: value.lexemes
  | .read targets _ =>
    .keyword .read :: .mark .leftParen ::
      (Lexeme.separatedBy .comma (targets.map Lexeme.ofName) ++ [.mark .rightParen])
  | .write values _ =>
    .keyword .write :: .mark .leftParen ::
      (Lexeme.separatedBy .comma (values.map Expr.lexemes) ++ [.mark .rightParen])
  | .block body _ =>
    .keyword .begin :: (Lexeme.separatedBy .semicolon (lexemesEach body) ++ [.keyword .«end»])
  | .ifThen condition consequent _ =>
    .keyword .«if» :: (condition.lexemes ++ .keyword .«then» :: consequent.lexemes)
  | .ifElse condition consequent alternative _ =>
    .keyword .«if» :: (condition.lexemes ++ .keyword .«then» ::
      (consequent.lexemes ++ .keyword .«else» :: alternative.lexemes))
  | .whileDo condition body _ =>
    .keyword .«while» :: (condition.lexemes ++ .keyword .«do» :: body.lexemes)

def lexemesEach : List Statement → List (List Lexeme)
  | [] => []
  | s :: rest => s.lexemes :: lexemesEach rest

end

end Statement

/-- The tokens of a group of names. The one type that can be written is that of integers. -/
def Declaration.lexemes (d : Declaration) : List Lexeme :=
  Lexeme.separatedBy .comma (d.names.map Lexeme.ofName) ++
    [.mark .colon, .keyword .integer, .mark .semicolon]

/-- The tokens of the declarations of a program, which are left out if there are none. -/
def Declaration.lexemesAll : List Declaration → List Lexeme
  | [] => []
  | d :: rest => .keyword .var :: (d :: rest).flatMap Declaration.lexemes

def Program.lexemes (p : Program) : List Lexeme :=
  .keyword .program :: (Lexeme.ofName p.name ++ .mark .semicolon ::
    (Declaration.lexemesAll p.declarations ++ .keyword .begin ::
      (Lexeme.separatedBy .semicolon (Statement.lexemesEach p.statements) ++
        [.keyword .«end», .mark .dot])))

def Program.spell (p : Program) : String :=
  .ofList (Lexeme.text p.lexemes)

namespace Lexeme

def AllWritable (ls : List Lexeme) : Prop := ∀ l ∈ ls, l.Writable

@[simp] theorem allWritable_nil : AllWritable [] := by
  simp [AllWritable]

@[simp] theorem allWritable_cons {l : Lexeme} {ls : List Lexeme} :
    AllWritable (l :: ls) ↔ l.Writable ∧ AllWritable ls :=
  List.forall_mem_cons

@[simp] theorem allWritable_append {ls ms : List Lexeme} :
    AllWritable (ls ++ ms) ↔ AllWritable ls ∧ AllWritable ms :=
  List.forall_mem_append

@[simp] theorem writable_keyword (k : Keyword) : (keyword k).Writable := .keyword k

@[simp] theorem writable_mark (m : Mark) : (mark m).Writable := .mark m

theorem allWritable_ofName {i : Identifier} (h : IsName i.name) : AllWritable (ofName i) := by
  simp [ofName, Writable.name h]

theorem allWritable_atLevel (required actual : Level) {ls : List Lexeme} (h : AllWritable ls) :
    AllWritable (atLevel required actual ls) := by
  unfold atLevel
  split
  · exact h
  · simp [h]

theorem allWritable_separatedBy (m : Mark) {items : List (List Lexeme)}
    (h : ∀ ls ∈ items, AllWritable ls) : AllWritable (separatedBy m items) := by
  induction items with
  | nil => simp [separatedBy]
  | cons ls items ih =>
    rw [List.forall_mem_cons] at h
    cases items with
    | nil => exact h.1
    | cons ms items =>
      rw [separatedBy, allWritable_append, allWritable_cons]
      exact ⟨h.1, writable_mark m, ih h.2⟩

end Lexeme

open Lexeme

theorem Expr.WellFormed.allWritable {e : Expr} (h : e.WellFormed) : AllWritable e.lexemes := by
  induction e with
  | int value p =>
    have hdigits := Integer.toList_text_of_nonneg h
    have hnumeral : Writable (.integerLiteral, value.text) := by
      apply Writable.numeral
      · rw [hdigits]
        exact Text.decimalDigits_ne_nil _
      · rw [hdigits]
        exact fun c hc => Text.isDigit_of_mem_decimalDigits hc
    simp [lexemes, hnumeral]
  | str value p => simp [lexemes, Writable.string value]
  | var name p => simp [lexemes, Writable.name h]
  | neg operand p ih => simp [lexemes, allWritable_atLevel _ _ (ih h)]
  | binary op left right p ihl ihr =>
    simp [lexemes, allWritable_atLevel _ _ (ihl h.1), allWritable_atLevel _ _ (ihr h.2)]

namespace Statement

mutual

theorem WellFormed.allWritable : ∀ {s : Statement}, s.WellFormed → AllWritable s.lexemes
  | .assign target value p, h => by
    rw [WellFormed] at h
    simp [lexemes, allWritable_ofName h.1, h.2.allWritable]
  | .read targets p, h => by
    rw [WellFormed] at h
    have hlist : AllWritable (separatedBy .comma (targets.map ofName)) := by
      apply allWritable_separatedBy
      rw [List.forall_mem_map]
      exact fun i hi => allWritable_ofName (h.2 i hi)
    simp [lexemes, hlist]
  | .write values p, h => by
    rw [WellFormed] at h
    have hlist : AllWritable (separatedBy .comma (values.map Expr.lexemes)) := by
      apply allWritable_separatedBy
      rw [List.forall_mem_map]
      exact fun e he => (h.2 e he).allWritable
    simp [lexemes, hlist]
  | .block body p, h => by
    rw [WellFormed] at h
    simp [lexemes, allWritable_separatedBy _ (WellFormedAll.allWritable h.2)]
  | .ifThen condition consequent p, h => by
    rw [WellFormed] at h
    simp [lexemes, h.1.allWritable, h.2.allWritable]
  | .ifElse condition consequent alternative p, h => by
    rw [WellFormed] at h
    simp [lexemes, h.1.allWritable, h.2.1.allWritable, h.2.2.2.allWritable]
  | .whileDo condition body p, h => by
    rw [WellFormed] at h
    simp [lexemes, h.1.allWritable, h.2.allWritable]

theorem WellFormedAll.allWritable : ∀ {body : List Statement}, WellFormedAll body →
    ∀ ls ∈ lexemesEach body, AllWritable ls
  | [], _ => by simp [lexemesEach]
  | s :: rest, h => by
    rw [WellFormedAll] at h
    rw [lexemesEach, List.forall_mem_cons]
    exact ⟨h.1.allWritable, WellFormedAll.allWritable h.2⟩

end

end Statement

theorem Declaration.WellFormed.allWritable {d : Declaration} (h : d.WellFormed) :
    AllWritable d.lexemes := by
  have hlist : AllWritable (separatedBy .comma (d.names.map ofName)) := by
    apply allWritable_separatedBy
    rw [List.forall_mem_map]
    exact fun i hi => allWritable_ofName (h.isName i hi)
  simp [Declaration.lexemes, hlist]

theorem Declaration.allWritable_lexemesAll {ds : List Declaration}
    (h : ∀ d ∈ ds, d.WellFormed) : AllWritable (Declaration.lexemesAll ds) := by
  cases ds with
  | nil => simp [lexemesAll]
  | cons d ds =>
    rw [lexemesAll, allWritable_cons]
    refine ⟨writable_keyword _, fun l hl => ?_⟩
    rw [List.mem_flatMap] at hl
    rcases hl with ⟨e, he, hl⟩
    exact (h e he).allWritable l hl

theorem Program.WellFormed.allWritable {p : Program} (h : p.WellFormed) :
    AllWritable p.lexemes := by
  simp [Program.lexemes, allWritable_ofName h.isName,
    Declaration.allWritable_lexemesAll h.declarations,
    allWritable_separatedBy _ h.statements.allWritable]

end TinyPascal
