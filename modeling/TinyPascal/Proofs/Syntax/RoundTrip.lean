import TinyPascal.Proofs.Syntax.Completeness
import TinyPascal.Proofs.Syntax.Spelling

/-!
# Reading back what was written

The tokens of a well-formed tree derive that tree, whatever their places are. Hence a well-formed
program is read back from its spelling, up to positions, and the programs that can be read are
exactly the well-formed ones.
-/
namespace TinyPascal

open Grammar Lexeme

/-- Tokens that read `ls` derive the tree `a`, up to positions. -/
def Spells {α : Type} (Derives : List Token → α → Prop) (erase : α → α) (ls : List Lexeme)
    (a : α) : Prop :=
  ∀ ts : List Token, ts.map Token.bare = ls → ∃ b, Derives ts b ∧ erase b = erase a

namespace Token

variable {t : Token}

theorem kind_of_bare_keyword {k : Keyword} (h : t.bare = .keyword k) : t.kind = .keyword k :=
  congrArg Prod.fst h

theorem kind_of_bare_mark {m : Mark} (h : t.bare = .mark m) : t.kind = .mark m :=
  congrArg Prod.fst h

theorem exists_of_map_bare_append_cons {ts : List Token} {ls ms : List Lexeme} {l : Lexeme}
    (h : ts.map bare = ls ++ l :: ms) :
    ∃ us t vs, ts = us ++ t :: vs ∧ us.map bare = ls ∧ t.bare = l ∧ vs.map bare = ms := by
  rw [List.map_eq_append_iff] at h
  obtain ⟨us, ws, rfl, hus, hws⟩ := h
  obtain ⟨t, vs, rfl, ht, hvs⟩ := List.map_eq_cons_iff.1 hws
  exact ⟨us, t, vs, rfl, hus, ht, hvs⟩

theorem exists_of_map_bare_concat {ts : List Token} {ls : List Lexeme} {l : Lexeme}
    (h : ts.map bare = ls ++ [l]) : ∃ us t, ts = us ++ [t] ∧ us.map bare = ls ∧ t.bare = l := by
  obtain ⟨us, t, vs, rfl, hus, ht, hvs⟩ := exists_of_map_bare_append_cons h
  rw [List.map_eq_nil_iff] at hvs
  exact ⟨us, t, by rw [hvs], hus, ht⟩

end Token

open Token

namespace Grammar

/-- An expression of a level is also one of any looser level. -/
theorem DerivesExpr.loosen {required actual : Level} {ts : List Token} {e : Expr}
    (h : required.tightness ≤ actual.tightness) (he : DerivesExpr actual ts e) :
    DerivesExpr required ts e := by
  cases actual with
  | expr =>
    cases required with
    | expr => exact he
    | arith | term | factor => exact absurd h (by decide)
  | arith =>
    cases required with
    | expr => exact .arith he
    | arith => exact he
    | term | factor => exact absurd h (by decide)
  | term =>
    cases required with
    | expr => exact .arith (.term he)
    | arith => exact .term he
    | term => exact he
    | factor => exact absurd h (by decide)
  | factor =>
    cases required with
    | expr => exact .arith (.term (.factor he))
    | arith => exact .term (.factor he)
    | term => exact .factor he
    | factor => exact he

/-- An operation with operands of the levels that its operator allows. -/
theorem DerivesExpr.binary {op : BinaryOp} {t : Token} {ts us : List Token} {l r : Expr}
    (hl : DerivesExpr op.leftLevel ts l) (ht : t.kind = .mark op.mark)
    (hr : DerivesExpr op.rightLevel us r) :
    DerivesExpr op.level (ts ++ t :: us) (.binary op l r t.position) := by
  cases op with
  | relational op => exact .comparison hl rfl ht hr
  | arithmetic op =>
    by_cases hop : op.isAdditive = true
    · simp only [BinaryOp.leftLevel, BinaryOp.rightLevel, BinaryOp.level, hop] at hl hr ⊢
      exact .sum hl hop ht hr
    · simp only [BinaryOp.leftLevel, BinaryOp.rightLevel, BinaryOp.level, hop] at hl hr ⊢
      exact .product hl (by simp [BinaryOp.isMultiplicative, hop]) ht hr

end Grammar

theorem spells_atLevel {required actual : Level} {ls : List Lexeme} {e : Expr}
    (h : Spells (DerivesExpr actual) Expr.erase ls e) :
    Spells (DerivesExpr required) Expr.erase (atLevel required actual ls) e := by
  intro ts hts
  by_cases hlevel : required.tightness ≤ actual.tightness
  · rw [atLevel, if_pos hlevel] at hts
    obtain ⟨f, hf, herase⟩ := h ts hts
    exact ⟨f, hf.loosen hlevel, herase⟩
  · rw [atLevel, if_neg hlevel] at hts
    obtain ⟨l, us, rfl, hl, hus⟩ := List.map_eq_cons_iff.1 hts
    obtain ⟨vs, r, rfl, hvs, hr⟩ := exists_of_map_bare_concat hus
    obtain ⟨f, hf, herase⟩ := h vs hvs
    have hexpr : DerivesExpr .expr vs f := hf.loosen (Nat.zero_le _)
    have hparens := DerivesExpr.parens (kind_of_bare_mark hl) hexpr (kind_of_bare_mark hr)
    exact ⟨f, hparens.loosen (by cases required <;> decide), herase⟩

theorem Expr.WellFormed.spells {e : Expr} (h : e.WellFormed) :
    Spells (DerivesExpr e.level) Expr.erase e.lexemes e := by
  induction e with
  | int value p =>
    intro ts hts
    obtain ⟨t, rfl, ht⟩ := List.map_eq_singleton_iff.1 hts
    obtain ⟨hkind, htext⟩ := Prod.mk.inj ht
    have hvalue : Integer.ofText? t.lexeme = some value := by
      rw [htext]
      exact Integer.ofText?_text_of_nonneg h
    exact ⟨_, .int hkind hvalue, rfl⟩
  | str value p =>
    intro ts hts
    obtain ⟨t, rfl, ht⟩ := List.map_eq_singleton_iff.1 hts
    obtain ⟨hkind, rfl⟩ := Prod.mk.inj ht
    exact ⟨_, .string hkind, rfl⟩
  | var name p =>
    intro ts hts
    obtain ⟨t, rfl, ht⟩ := List.map_eq_singleton_iff.1 hts
    obtain ⟨hkind, rfl⟩ := Prod.mk.inj ht
    exact ⟨_, .name hkind, rfl⟩
  | neg operand p ih =>
    intro ts hts
    obtain ⟨t, us, rfl, ht, hus⟩ := List.map_eq_cons_iff.1 hts
    obtain ⟨f, hf, herase⟩ := spells_atLevel (ih h) us hus
    exact ⟨_, .minus (kind_of_bare_mark ht) hf, by simp [erase, herase]⟩
  | binary op left right p ihl ihr =>
    intro ts hts
    obtain ⟨us, t, vs, rfl, hus, ht, hvs⟩ := exists_of_map_bare_append_cons hts
    obtain ⟨l, hl, hleft⟩ := spells_atLevel (ihl h.1) us hus
    obtain ⟨r, hr, hright⟩ := spells_atLevel (ihr h.2) vs hvs
    exact ⟨_, .binary hl (kind_of_bare_mark ht) hr, by simp [erase, hleft, hright]⟩

theorem Expr.WellFormed.spells_expr {e : Expr} (h : e.WellFormed) :
    Spells (DerivesExpr .expr) Expr.erase e.lexemes e := by
  intro ts hts
  obtain ⟨f, hf, herase⟩ := h.spells ts hts
  exact ⟨f, hf.loosen (Nat.zero_le _), herase⟩

namespace Grammar

theorem DerivesList.cons {α : Type} {Item : List Token → α → Prop} {t : Token}
    {ts us : List Token} {a : α} {items : List α} (ha : Item ts a) (ht : t.kind = .mark .comma)
    (hitems : DerivesList Item us items) : DerivesList Item (ts ++ t :: us) (a :: items) := by
  induction hitems with
  | one hb => exact .more (.one ha) ht hb
  | more hitems hu hb ih =>
    have hmore := DerivesList.more ih hu hb
    rwa [List.append_assoc, List.cons_append, List.cons_append] at hmore

theorem DerivesStmts.cons {beforeElse : Bool} {t : Token} {ts us : List Token} {s : Statement}
    {body : List Statement} (hs : DerivesStmt false ts s) (ht : t.kind = .mark .semicolon) :
    DerivesStmts beforeElse us body → DerivesStmts beforeElse (ts ++ t :: us) (s :: body)
  | .one hlast => .more (.one hs) ht hlast
  | .more hbody hu hlast => by
    have hmore := DerivesStmts.more (DerivesStmts.cons hs ht hbody) hu hlast
    rwa [List.append_assoc, List.cons_append, List.cons_append] at hmore

theorem DerivesDecls.cons {ts us : List Token} {d : Declaration} {ds : List Declaration}
    (hd : DerivesDecl ts d) (hds : DerivesDecls us ds) : DerivesDecls (ts ++ us) (d :: ds) := by
  induction hds with
  | one hlast => exact .more (.one hd) hlast
  | more hds hlast ih =>
    have hmore := DerivesDecls.more ih hlast
    rwa [List.append_assoc, List.cons_append] at hmore

end Grammar

theorem spells_separatedBy {α : Type} {Item : List Token → α → Prop} {erase : α → α}
    {write : α → List Lexeme} {items : List α} (hne : items ≠ [])
    (hitems : ∀ a ∈ items, Spells Item erase (write a) a) :
    Spells (DerivesList Item) (List.map erase) (separatedBy .comma (items.map write)) items := by
  induction items with
  | nil => exact absurd rfl hne
  | cons a items ih =>
    rw [List.forall_mem_cons] at hitems
    intro ts hts
    cases items with
    | nil =>
      obtain ⟨b, hb, herase⟩ := hitems.1 ts hts
      exact ⟨[b], .one hb, by simp [herase]⟩
    | cons c items =>
      obtain ⟨us, t, vs, rfl, hus, ht, hvs⟩ := exists_of_map_bare_append_cons hts
      obtain ⟨b, hb, herase⟩ := hitems.1 us hus
      obtain ⟨bs, hbs, heraseAll⟩ := ih (by simp) hitems.2 vs hvs
      exact ⟨b :: bs, .cons hb (kind_of_bare_mark ht) hbs, congrArg₂ List.cons herase heraseAll⟩

theorem spells_ofName (i : Identifier) :
    Spells DerivesName Identifier.erase (ofName i) i := by
  intro ts hts
  obtain ⟨t, rfl, ht⟩ := List.map_eq_singleton_iff.1 hts
  obtain ⟨hkind, hname⟩ := Prod.mk.inj ht
  exact ⟨_, .name hkind, by rw [Identifier.erase, Identifier.erase, hname]⟩

namespace Statement

mutual

/-- A well-formed statement is derived from its tokens. Before an `else` this holds if the statement
does not end in a conditional without an alternative. -/
theorem WellFormed.spells : ∀ {s : Statement}, s.WellFormed → ∀ (beforeElse : Bool),
    (beforeElse = true → s.endsOpen = false) →
    Spells (DerivesStmt beforeElse) Statement.erase s.lexemes s
  | .assign target value p, h, beforeElse, _ => by
    rw [WellFormed] at h
    intro ts hts
    obtain ⟨t, us, rfl, ht, hus⟩ := List.map_eq_cons_iff.1 hts
    obtain ⟨a, vs, rfl, ha, hvs⟩ := List.map_eq_cons_iff.1 hus
    obtain ⟨hkind, hname⟩ := Prod.mk.inj ht
    obtain ⟨e, he, herase⟩ := h.2.spells_expr vs hvs
    exact ⟨_, .assign hkind (kind_of_bare_mark ha) he, by
      simp [Statement.erase, Identifier.erase, hname, herase]⟩
  | .read targets p, h, beforeElse, _ => by
    rw [WellFormed] at h
    intro ts hts
    obtain ⟨t, us, rfl, ht, hus⟩ := List.map_eq_cons_iff.1 hts
    obtain ⟨l, vs, rfl, hl, hvs⟩ := List.map_eq_cons_iff.1 hus
    obtain ⟨ws, r, rfl, hws, hr⟩ := exists_of_map_bare_concat hvs
    obtain ⟨names, hnames, herase⟩ :=
      spells_separatedBy h.1 (fun i _ => spells_ofName i) ws hws
    exact ⟨_, .read (kind_of_bare_keyword ht) (kind_of_bare_mark hl) hnames (kind_of_bare_mark hr),
      by simp [Statement.erase, herase]⟩
  | .write values p, h, beforeElse, _ => by
    rw [WellFormed] at h
    intro ts hts
    obtain ⟨t, us, rfl, ht, hus⟩ := List.map_eq_cons_iff.1 hts
    obtain ⟨l, vs, rfl, hl, hvs⟩ := List.map_eq_cons_iff.1 hus
    obtain ⟨ws, r, rfl, hws, hr⟩ := exists_of_map_bare_concat hvs
    obtain ⟨es, hes, herase⟩ :=
      spells_separatedBy h.1 (fun e he => (h.2 e he).spells_expr) ws hws
    exact ⟨_, .write (kind_of_bare_keyword ht) (kind_of_bare_mark hl) hes (kind_of_bare_mark hr),
      by simp [Statement.erase, herase]⟩
  | .block body p, h, beforeElse, _ => by
    rw [WellFormed] at h
    intro ts hts
    obtain ⟨t, us, rfl, ht, hus⟩ := List.map_eq_cons_iff.1 hts
    obtain ⟨vs, u, rfl, hvs, hu⟩ := exists_of_map_bare_concat hus
    obtain ⟨stmts, hstmts, herase⟩ := WellFormedAll.spells h.2 h.1 vs hvs
    exact ⟨_, .block (kind_of_bare_keyword ht) hstmts .absent (kind_of_bare_keyword hu),
      by simp [Statement.erase, herase]⟩
  | .ifThen condition consequent p, h, beforeElse, hopen => by
    rw [WellFormed] at h
    cases beforeElse with
    | true => exact absurd (hopen rfl) (by simp [endsOpen])
    | false =>
      intro ts hts
      obtain ⟨t, us, rfl, ht, hus⟩ := List.map_eq_cons_iff.1 hts
      obtain ⟨vs, u, ws, rfl, hvs, hu, hws⟩ := exists_of_map_bare_append_cons hus
      obtain ⟨e, he, hcondition⟩ := h.1.spells_expr vs hvs
      obtain ⟨s, hs, hconsequent⟩ := h.2.spells false (by simp) ws hws
      exact ⟨_, .ifThen (kind_of_bare_keyword ht) he (kind_of_bare_keyword hu) hs,
        by simp [Statement.erase, hcondition, hconsequent]⟩
  | .ifElse condition consequent alternative p, h, beforeElse, hopen => by
    rw [WellFormed] at h
    intro ts hts
    obtain ⟨t, us, rfl, ht, hus⟩ := List.map_eq_cons_iff.1 hts
    obtain ⟨vs, u, ws, rfl, hvs, hu, hws⟩ := exists_of_map_bare_append_cons hus
    obtain ⟨xs, v, ys, rfl, hxs, hv, hys⟩ := exists_of_map_bare_append_cons hws
    obtain ⟨e, he, hcondition⟩ := h.1.spells_expr vs hvs
    obtain ⟨s, hs, hconsequent⟩ := h.2.1.spells true (fun _ => h.2.2.1) xs hxs
    obtain ⟨r, hr, halternative⟩ := h.2.2.2.spells beforeElse hopen ys hys
    exact ⟨_, .ifElse (kind_of_bare_keyword ht) he (kind_of_bare_keyword hu) hs
      (kind_of_bare_keyword hv) hr,
      by simp [Statement.erase, hcondition, hconsequent, halternative]⟩
  | .whileDo condition body p, h, beforeElse, hopen => by
    rw [WellFormed] at h
    intro ts hts
    obtain ⟨t, us, rfl, ht, hus⟩ := List.map_eq_cons_iff.1 hts
    obtain ⟨vs, u, ws, rfl, hvs, hu, hws⟩ := exists_of_map_bare_append_cons hus
    obtain ⟨e, he, hcondition⟩ := h.1.spells_expr vs hvs
    obtain ⟨s, hs, hbody⟩ := h.2.spells beforeElse hopen ws hws
    exact ⟨_, .whileDo (kind_of_bare_keyword ht) he (kind_of_bare_keyword hu) hs,
      by simp [Statement.erase, hcondition, hbody]⟩

theorem WellFormedAll.spells : ∀ {body : List Statement}, WellFormedAll body → body ≠ [] →
    Spells (DerivesStmts false) eraseAll (separatedBy .semicolon (lexemesEach body)) body
  | [], _, hne => absurd rfl hne
  | [s], h, _ => by
    rw [WellFormedAll] at h
    intro ts hts
    obtain ⟨r, hr, herase⟩ := h.1.spells false (by simp) ts hts
    exact ⟨[r], .one hr, by simp [eraseAll, herase]⟩
  | s :: s' :: rest, h, _ => by
    rw [WellFormedAll] at h
    intro ts hts
    obtain ⟨us, t, vs, rfl, hus, ht, hvs⟩ := exists_of_map_bare_append_cons hts
    obtain ⟨r, hr, herase⟩ := h.1.spells false (by simp) us hus
    obtain ⟨rs, hrs, heraseAll⟩ := WellFormedAll.spells h.2 (by simp) vs hvs
    exact ⟨r :: rs, .cons hr (kind_of_bare_mark ht) hrs, congrArg₂ List.cons herase heraseAll⟩

end

end Statement

theorem Declaration.WellFormed.spells {d : Declaration} (h : d.WellFormed) :
    Spells DerivesDecl Declaration.erase d.lexemes d := by
  intro ts hts
  obtain ⟨us, c, vs, rfl, hus, hc, hvs⟩ := exists_of_map_bare_append_cons hts
  obtain ⟨i, ws, rfl, hi, hws⟩ := List.map_eq_cons_iff.1 hvs
  obtain ⟨s, rfl, hs⟩ := List.map_eq_singleton_iff.1 hws
  obtain ⟨names, hnames, herase⟩ :=
    spells_separatedBy h.ne_nil (fun i _ => spells_ofName i) us hus
  obtain ⟨t, xs, rfl, ht⟩ := hnames.exists_name
  exact ⟨_, .decl hnames (kind_of_bare_mark hc) (kind_of_bare_keyword hi) (kind_of_bare_mark hs),
    by simp [Declaration.erase, herase, h.isInteger]⟩

theorem Declaration.spells_flatMap {ds : List Declaration} (hne : ds ≠ [])
    (h : ∀ d ∈ ds, d.WellFormed) :
    Spells DerivesDecls (List.map Declaration.erase) (ds.flatMap Declaration.lexemes) ds := by
  induction ds with
  | nil => exact absurd rfl hne
  | cons d ds ih =>
    rw [List.forall_mem_cons] at h
    intro ts hts
    rw [List.flatMap_cons, List.map_eq_append_iff] at hts
    obtain ⟨us, vs, rfl, hus, hvs⟩ := hts
    obtain ⟨c, hc, herase⟩ := h.1.spells us hus
    cases ds with
    | nil =>
      rw [List.flatMap_nil, List.map_eq_nil_iff] at hvs
      subst hvs
      exact ⟨[c], by simpa using DerivesDecls.one hc, by simp [herase]⟩
    | cons d' ds =>
      obtain ⟨cs, hcs, heraseAll⟩ := ih (by simp) h.2 vs hvs
      exact ⟨c :: cs, .cons hc hcs, congrArg₂ List.cons herase heraseAll⟩

theorem Declaration.spells_lexemesAll {ds : List Declaration} (h : ∀ d ∈ ds, d.WellFormed) :
    Spells DerivesDeclarations (List.map Declaration.erase) (Declaration.lexemesAll ds) ds := by
  intro ts hts
  cases ds with
  | nil =>
    rw [lexemesAll, List.map_eq_nil_iff] at hts
    subst hts
    exact ⟨[], .absent, rfl⟩
  | cons d ds =>
    obtain ⟨t, us, rfl, ht, hus⟩ := List.map_eq_cons_iff.1 hts
    obtain ⟨cs, hcs, herase⟩ := spells_flatMap (by simp) h us hus
    exact ⟨cs, .present (kind_of_bare_keyword ht) hcs, herase⟩

theorem Program.WellFormed.spells {p : Program} (h : p.WellFormed) :
    Spells DerivesProgram Program.erase p.lexemes p := by
  intro ts hts
  obtain ⟨t, us, rfl, ht, hus⟩ := List.map_eq_cons_iff.1 hts
  obtain ⟨n, vs, rfl, hn, hvs⟩ := List.map_eq_cons_iff.1 hus
  obtain ⟨s, ws, rfl, hs, hws⟩ := List.map_eq_cons_iff.1 hvs
  obtain ⟨ds, b, xs, rfl, hds, hb, hxs⟩ := exists_of_map_bare_append_cons hws
  obtain ⟨ys, e, zs, rfl, hys, he, hzs⟩ := exists_of_map_bare_append_cons hxs
  obtain ⟨d, rfl, hd⟩ := List.map_eq_singleton_iff.1 hzs
  obtain ⟨hkind, hname⟩ := Prod.mk.inj hn
  obtain ⟨cs, hcs, hdeclarations⟩ := Declaration.spells_lexemesAll h.declarations ds hds
  obtain ⟨body, hbody, hstatements⟩ := h.statements.spells h.ne_nil ys hys
  exact ⟨_, .program (kind_of_bare_keyword ht) hkind (kind_of_bare_mark hs) hcs
    (kind_of_bare_keyword hb) hbody .absent (kind_of_bare_keyword he) (kind_of_bare_mark hd), by
    simp [Program.erase, Identifier.erase, hname, hdeclarations, hstatements]⟩

theorem Program.WellFormed.tokenize_spell {p : Program} (h : p.WellFormed) :
    ∃ us t, tokenize p.spell = .ok (us ++ [t]) ∧ us.map Token.bare = p.lexemes ∧
      t.kind = .endOfInput := by
  obtain ⟨ts, hts, hbare⟩ := tokensFrom_text h.allWritable .start
  obtain ⟨us, t, rfl, hus, ht⟩ := exists_of_map_bare_concat hbare
  refine ⟨us, t, ?_, hus, congrArg Prod.fst ht⟩
  rw [tokenize, Program.spell, String.toList_ofList, hts]

theorem wellFormed_of_parse {source : String} {ts : List Token} {q : Program}
    (hts : tokenize source = .ok ts) (hq : parse ts = .ok q) : q.WellFormed := by
  rw [parse_eq_ok] at hq
  obtain ⟨rest, hq⟩ := hq
  obtain ⟨us, rfl, hderives, hrest⟩ := Rule.program_yields hq
  exact hderives.wellFormed fun t ht => Lexer.isWritten_of_tokensFrom hts t (by simp [ht])

/-- A well-formed program is read back from its spelling, up to positions, and every program that is
read from a source text is well-formed. -/
theorem parse_tokenize_spell :
    (∀ p : Program, p.WellFormed →
      ∃ ts q, tokenize p.spell = .ok ts ∧ parse ts = .ok q ∧ q.erase = p.erase) ∧
    ∀ (source : String) (ts : List Token) (q : Program),
      tokenize source = .ok ts → parse ts = .ok q → q.WellFormed := by
  constructor
  · intro p hp
    obtain ⟨us, t, hts, hbare, ht⟩ := hp.tokenize_spell
    obtain ⟨q, hq, herase⟩ := hp.spells us hbare
    refine ⟨us ++ [t], q, hts, ?_, herase⟩
    rw [parse_eq_ok]
    exact ⟨[t], Rule.program_of_derivesProgram hq (by simpa using ht)⟩
  · intro source ts q hts hq
    exact wellFormed_of_parse hts hq

/-- A conditional in a block before an `else`, a product of a negated sum and of differences that
group to the right, and a string with a quote and a backslash. -/
def Program.nested : Program :=
  let name (n : String) : Identifier := ⟨n, .start⟩
  let var (n : String) : Expr := .var n .start
  let binary (op : ArithmeticOp) (l r : Expr) : Expr := .binary (.arithmetic op) l r .start
  { name := name "nested"
    declarations := [⟨[name "x", name "y"], .integer, .start⟩]
    statements :=
      [.ifElse (var "x")
        (.block [.ifThen (.binary (.relational .lt) (var "x") (var "y") .start)
          (.read [name "x", name "y"] .start) .start] .start)
        (.assign (name "y")
          (binary .mul (.neg (binary .add (var "x") (.int 2 .start)) .start)
            (binary .sub (.int 3 .start) (binary .sub (.int 4 .start) (var "y")))) .start) .start,
        .whileDo (var "y") (.write [.str "a\"b\\c" .start, var "x"] .start) .start]
    position := .start }

theorem parse_tokenize_spell_nested : Program.nested.WellFormed ∧
    ∃ ts q, tokenize Program.nested.spell = .ok ts ∧ parse ts = .ok q ∧
      q.erase = Program.nested.erase ∧ q.WellFormed := by
  have hx : IsName "x" := ⟨⟨'x', [], rfl, by decide, by simp⟩, by decide +kernel⟩
  have hy : IsName "y" := ⟨⟨'y', [], rfl, by decide, by simp⟩, by decide +kernel⟩
  have hnested : IsName "nested" :=
    ⟨⟨'n', ['e', 's', 't', 'e', 'd'], rfl, by decide, List.all_eq_true.1 (by decide)⟩,
      by decide +kernel⟩
  have h : Program.nested.WellFormed := by
    refine ⟨hnested, ?_, by simp [Program.nested], ?_⟩
    · intro d hd
      rw [Program.nested, List.mem_singleton] at hd
      subst hd
      exact ⟨by simp, by simp [hx, hy], rfl⟩
    · simp [Program.nested, Statement.WellFormedAll, Statement.WellFormed, Expr.WellFormed,
        Statement.endsOpen, hx, hy]
  obtain ⟨ts, q, hts, hq, herase⟩ := parse_tokenize_spell.1 _ h
  exact ⟨h, ts, q, hts, hq, herase, parse_tokenize_spell.2 _ ts q hts hq⟩

end TinyPascal
