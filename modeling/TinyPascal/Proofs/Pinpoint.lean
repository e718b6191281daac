import TinyPascal.Console.Scripted
import TinyPascal.Proofs.Execution.Faults
import TinyPascal.Proofs.Token.Order
import TinyPascal.Proofs.Typing.Charges
import TinyPascal.Proofs.Typing.Soundness

/-!
# Diagnostics point at tokens

The violations of a source text and the failures of its runs carry a position. It is the position of
exactly one token, and that token is the one to look at: the name in question, the operator that got
the wrong operands or failed, or the keyword of the statement. What is charged or raised within the
tree is anchored to such a token, since the tree has been read from the tokens.
-/
namespace TinyPascal

open Grammar

/-- `t.Spells m`: the token is the mark `m`, as it is written. -/
structure Token.Spells (t : Token) (m : Mark) : Prop where
  kind : t.kind = .mark m
  lexeme : t.lexeme = m.spelling

/-- `v.Fits t`: the token is one that the violation can be found at. -/
def Violation.Fits (v : Violation) (t : Token) : Prop :=
  match v with
  | alreadyDeclared name | notDeclared name | incompatibleTypes name _ _ =>
    t.kind = .identifier ∧ t.lexeme = name
  | arithmeticOperands op _ _ => t.Spells op.mark
  | relationalOperands op _ _ => t.Spells op.mark
  | unaryOperand _ => t.Spells .minus
  | conditionNotInteger _ => t.kind = .keyword .«if» ∨ t.kind = .keyword .«while»

/-- `t.Opens tokens program`: the token is the first of those that a statement of the program has
been read from. -/
def Token.Opens (t : Token) (tokens : List Token) (program : Program) : Prop :=
  ∃ s ∈ program.parts, ∃ beforeElse us, t :: us <:+: tokens ∧ DerivesStmt beforeElse (t :: us) s

/-- `fault.Fits tokens program t`: the token is one that the fault can be found at. -/
def RuntimeFault.Fits (tokens : List Token) (program : Program) (fault : RuntimeFault) (t : Token) :
    Prop :=
  match fault with
  | divisionByZero => t.Spells .slash
  | overflow => t.Spells .plus ∨ t.Spells .minus ∨ t.Spells .star ∨ t.Spells .slash
  | invalidInput _ _ => t.kind = .keyword .read
  | io _ => t.kind = .keyword .read ∨ t.kind = .keyword .write ∨ t.kind = .keyword .«while»
  | loopStopped _ => t.kind = .keyword .«while»
  | aborted => t.Opens tokens program
  | unboundVariable _ | typeMismatch _ => False

/-- Exactly one of the tokens is at `p`, and it fits. -/
def Pinpoints (tokens : List Token) (p : Position) (Fits : Token → Prop) : Prop :=
  ∃ before t after, tokens = before ++ t :: after ∧ t.position = p ∧
    (∀ u ∈ before ++ after, u.position ≠ p) ∧ Fits t

theorem Lexer.Scans.denotes {p q : Position} {text rest : List Char} {tokens : List Token}
    (h : Scans p text tokens q rest) : ∀ t ∈ tokens, ∃ cs, Denotes cs t.kind t.lexeme := by
  induction h with
  | gap _ => simp
  | token _ htoken _ _ ih =>
    rw [List.forall_mem_cons]
    exact ⟨⟨_, htoken⟩, ih⟩

section

variable {source : String} {tokens : List Token} {program : Program}

theorem spells_of_tokenize (htokens : tokenize source = .ok tokens) {t : Token} (ht : t ∈ tokens)
    {m : Mark} (hkind : t.kind = .mark m) : t.Spells m := by
  obtain ⟨scanned, hscans, rfl⟩ := exists_scans_of_tokenize htokens
  rw [List.mem_append, List.mem_singleton] at ht
  obtain ht | rfl := ht
  · obtain ⟨cs, hdenotes⟩ := hscans.denotes t ht
    refine ⟨hkind, ?_⟩
    generalize t.lexeme = lexeme at hdenotes ⊢
    rw [hkind] at hdenotes
    cases hdenotes with
    | mark => rfl
  · cases hkind

theorem pinpoints_of_mem (htokens : tokenize source = .ok tokens) {t : Token} (ht : t ∈ tokens)
    {Fits : Token → Prop} (hfits : Fits t) : Pinpoints tokens t.position Fits := by
  obtain ⟨before, after, rfl⟩ := List.mem_iff_append.1 ht
  have hpairwise := pairwise_lt_of_tokenize htokens
  rw [List.pairwise_append, List.pairwise_cons] at hpairwise
  obtain ⟨-, ⟨hafter, -⟩, hbefore⟩ := hpairwise
  refine ⟨before, t, after, rfl, rfl, fun u hu => ?_, hfits⟩
  rw [List.mem_append] at hu
  obtain hu | hu := hu
  · exact (hbefore u hu t List.mem_cons_self).ne
  · exact (hafter u hu).ne'

theorem Anchored.exists_anchor {nodes : List Expr} (h : Anchored tokens nodes) {node : Expr}
    (hnode : node ∈ nodes) : ∃ t ∈ tokens, t.Anchors node := by
  obtain ⟨anchors, hsublist, hanchors⟩ := h
  suffices ∃ t ∈ anchors, t.Anchors node by
    obtain ⟨t, ht, hanchor⟩ := this
    exact ⟨t, hsublist.subset ht, hanchor⟩
  clear hsublist
  induction hanchors with
  | nil => cases hnode
  | cons hanchor _ ih =>
    obtain rfl | hnode := List.mem_cons.1 hnode
    · exact ⟨_, List.mem_cons_self, hanchor⟩
    · obtain ⟨t, ht, hanchor⟩ := ih hnode
      exact ⟨t, List.mem_cons_of_mem _ ht, hanchor⟩

/-- A statement of the program was read from tokens with its anchor at their head. -/
theorem exists_opening (hprogram : parse tokens = .ok program) {part : Statement}
    (hpart : part ∈ program.parts) :
    ∃ beforeElse t us, t :: us <:+: tokens ∧ DerivesStmt beforeElse (t :: us) part ∧
      t.kind = part.firstKind ∧ t.position = part.position := by
  obtain ⟨rest, hrule⟩ := parse_eq_ok.1 hprogram
  obtain ⟨consumed, rfl, hderives, -⟩ := Rule.program_yields hrule
  obtain ⟨beforeElse, us, hus, hpart⟩ := hderives.isReadFrom hpart
  obtain ⟨t, us, rfl, hkind, hposition⟩ := hpart.exists_first
  exact ⟨beforeElse, t, us, List.infix_append_of_infix_left hus, hpart, hkind, hposition⟩

/-- The anchor of a node that is charged fits the violation. -/
theorem Token.Anchors.fits_violation (htokens : tokenize source = .ok tokens) {t : Token}
    (ht : t ∈ tokens) {node : Expr} (hanchor : t.Anchors node) {e : SemanticError}
    (hcharged : node.IsCharged e) : t.position = e.position ∧ e.violation.Fits t := by
  cases hcharged with
  | name name p =>
    cases hanchor with
    | var hkind => exact ⟨rfl, hkind, rfl⟩
  | negation operand p found =>
    cases hanchor with
    | neg _ hkind => exact ⟨rfl, spells_of_tokenize htokens ht hkind⟩
  | arithmetic op left right p l r | relational op left right p l r =>
    cases hanchor with
    | binary _ _ hkind => exact ⟨rfl, spells_of_tokenize htokens ht hkind⟩

theorem pinpoints_violation (htokens : tokenize source = .ok tokens)
    (hprogram : parse tokens = .ok program) {e : SemanticError}
    (he : e ∈ (analyze program).errors) : Pinpoints tokens e.position e.violation.Fits := by
  suffices ∃ t ∈ tokens, t.position = e.position ∧ e.violation.Fits t by
    obtain ⟨t, ht, hposition, hfits⟩ := this
    rw [← hposition]
    exact pinpoints_of_mem htokens ht hfits
  obtain ⟨d, hd, i, hi, rfl⟩ | ⟨part, hpart, hcharged⟩ := Program.isCharged_of_mem he
  · obtain ⟨rest, hrule⟩ := parse_eq_ok.1 hprogram
    obtain ⟨consumed, rfl, hderives, -⟩ := Rule.program_yields hrule
    obtain ⟨t, ht, hnames⟩ := hderives.exists_token hd hi
    exact ⟨t, List.mem_append_left _ ht, hnames.position, hnames.kind, hnames.lexeme⟩
  · obtain ⟨beforeElse, t, us, hwithin, hderives, hkind, hposition⟩ := exists_opening hprogram hpart
    have ht : t ∈ tokens := hwithin.subset List.mem_cons_self
    cases hcharged with
    | node hnode hcharged =>
      have hmem := Statement.nodesOfAll_subset _ hpart hnode
      obtain ⟨u, hu, hanchor⟩ := (anchored_of_parse hprogram).exists_anchor hmem
      exact ⟨u, hu, hanchor.fits_violation htokens hu hcharged⟩
    | target htarget =>
      obtain ⟨u, hu, hnames⟩ := hderives.exists_token htarget
      exact ⟨u, hwithin.subset hu, hnames.position, hnames.kind, hnames.lexeme⟩
    | types target value p expected found =>
      cases hderives with
      | assign hkind _ _ => exact ⟨t, ht, rfl, hkind, rfl⟩
    | condition found hfirst =>
      rw [← hkind] at hfirst
      exact ⟨t, ht, hposition, hfirst⟩

/-- The anchor of a node that fails fits the fault. -/
theorem Token.Anchors.fits_fault (htokens : tokenize source = .ok tokens) {t : Token}
    (ht : t ∈ tokens) {node : Expr} (hanchor : t.Anchors node) {e : RuntimeError}
    (hraises : node.Raises e) : t.position = e.position ∧ e.fault.Fits tokens program t := by
  cases hraises with
  | negation operand p =>
    cases hanchor with
    | neg _ hkind => exact ⟨rfl, .inr (.inl (spells_of_tokenize htokens ht hkind))⟩
  | operation op left right p =>
    cases hanchor with
    | binary _ _ hkind =>
      have hspells := spells_of_tokenize htokens ht hkind
      cases op with
      | add => exact ⟨rfl, .inl hspells⟩
      | sub => exact ⟨rfl, .inr (.inl hspells)⟩
      | mul => exact ⟨rfl, .inr (.inr (.inl hspells))⟩
      | div => exact ⟨rfl, .inr (.inr (.inr hspells))⟩
  | division left right p =>
    cases hanchor with
    | binary _ _ hkind => exact ⟨rfl, spells_of_tokenize htokens ht hkind⟩

/-- Every failure that a statement of the program raises points at a token that fits. -/
theorem pinpoints_fault (htokens : tokenize source = .ok tokens)
    (hprogram : parse tokens = .ok program) {part : Statement} (hpart : part ∈ program.parts)
    {e : RuntimeError} (he : part.Raises e) :
    Pinpoints tokens e.position (e.fault.Fits tokens program) := by
  suffices ∃ t ∈ tokens, t.position = e.position ∧ e.fault.Fits tokens program t by
    obtain ⟨t, ht, hposition, hfits⟩ := this
    rw [← hposition]
    exact pinpoints_of_mem htokens ht hfits
  obtain ⟨beforeElse, t, us, hwithin, hderives, hkind, hposition⟩ := exists_opening hprogram hpart
  have ht : t ∈ tokens := hwithin.subset List.mem_cons_self
  cases he with
  | interrupt => exact ⟨t, ht, hposition, part, hpart, beforeElse, us, hwithin, hderives⟩
  | input | stop => exact ⟨t, ht, hposition, hkind⟩
  | reading => exact ⟨t, ht, hposition, .inl hkind⟩
  | writing => exact ⟨t, ht, hposition, .inr (.inl hkind)⟩
  | asking => exact ⟨t, ht, hposition, .inr (.inr hkind)⟩
  | node hnode hraises =>
    have hmem := Statement.nodesOfAll_subset _ hpart hnode
    obtain ⟨u, hu, hanchor⟩ := (anchored_of_parse hprogram).exists_anchor hmem
    exact ⟨u, hu, hanchor.fits_fault htokens hu hraises⟩

end

/-- Every violation of a source text and every failure of a run of it, on any surroundings, points
at exactly one token of the text, and at one that fits. -/
theorem diagnostics_pinpoint_tokens (source : String) :
    (∀ errors, compile source = .error (.semantic errors) → ∀ e ∈ errors,
      ∃ tokens, tokenize source = .ok tokens ∧ Pinpoints tokens e.position e.violation.Fits) ∧
    ∀ {σ γ : Type} (console : Console σ) (adviser : Adviser γ) (policy : Policy) (fuel : ℕ)
      (interrupted : Bool) (s : σ) (g : γ) (conducted : Conducted Unit σ γ) (e : RuntimeError),
      run console adviser policy fuel interrupted source s g = .ok conducted →
      conducted.outcome = .error (.error e) →
      ∃ tokens program, tokenize source = .ok tokens ∧ parse tokens = .ok program ∧
        Pinpoints tokens e.position (e.fault.Fits tokens program) := by
  constructor
  · intro errors hcompile e he
    unfold compile parseSource at hcompile
    cases htokens : tokenize source with
    | error e => simp [htokens] at hcompile
    | ok tokens =>
      cases hprogram : parse tokens with
      | error e => simp [htokens, hprogram] at hcompile
      | ok program =>
        simp only [htokens, hprogram, check, CheckedProgram.ofAnalysis] at hcompile
        split_ifs at hcompile
        cases hcompile
        exact ⟨tokens, rfl, pinpoints_violation htokens hprogram he⟩
  · intro σ γ console adviser policy fuel interrupted s g conducted e hrun he
    unfold run at hrun
    cases hcompile : compile source with
    | error d => simp [hcompile] at hrun
    | ok checked =>
      simp only [hcompile, Except.ok.injEq] at hrun
      subst hrun
      obtain ⟨tokens, htokens, hprogram, hcheck⟩ := compile_eq_ok hcompile
      have hwell : checked.program.WellFormed := wellFormed_of_parse htokens hprogram
      have hmisuse := (CheckedProgram.sound_conduct hwell hcheck console adviser s g).2 e he
      obtain hraised | ⟨part, hpart, hraises⟩ := CheckedProgram.isRaisedBy_of_conduct he
      · rw [hmisuse] at hraised
        cases hraised
      · exact ⟨tokens, _, htokens, hprogram, pinpoints_fault htokens hprogram hpart hraises⟩

/-- A program that assigns text to a name and negates another text. -/
def misfits : String :=
  "program p; var x : integer; begin x := \"a\"; write(-\"b\") end."

/-- A program that divides by zero in the body of a loop. -/
def quotient : String :=
  "program p; var x : integer; begin while x < 1 do begin write(x); x := 2 / x end end."

theorem diagnostics_pinpoint_tokens_misfits_quotient :
    (∃ tokens, tokenize misfits = .ok tokens ∧
      Pinpoints tokens ⟨1, 35⟩ (Violation.Fits (.incompatibleTypes "x" .integer .string))) ∧
    ∃ tokens program, tokenize quotient = .ok tokens ∧ parse tokens = .ok program ∧
      Pinpoints tokens ⟨1, 73⟩ (RuntimeFault.Fits tokens program .divisionByZero) := by
  constructor
  · have hmisfits : (match compile misfits with
        | .error (.semantic errors) =>
          (⟨.incompatibleTypes "x" .integer .string, ⟨1, 35⟩⟩ : SemanticError) ∈ errors
        | _ => false) = true := by decide +kernel
    split at hmisfits
    · next errors h =>
      exact (diagnostics_pinpoint_tokens misfits).1 errors h _ (of_decide_eq_true hmisfits)
    · cases hmisfits
  · have hquotient :
        (match run Script.console Adviser.silent {} 2 false quotient { input := [] } () with
        | .ok c => c.outcome = .error (.error ⟨.divisionByZero, ⟨1, 73⟩⟩)
        | .error _ => false) = true := by decide +kernel
    split at hquotient
    · next c h =>
      exact (diagnostics_pinpoint_tokens quotient).2 _ _ _ _ _ _ _ c _ h
        (of_decide_eq_true hquotient)
    · cases hquotient

end TinyPascal
