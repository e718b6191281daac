import TinyPascal.Proofs.Token.Scanning

/-!
# Layout

A source text is gaps and spellings in turn. What may follow a spelling without being drawn into it
depends on one character only, and no gap starts with a character that a spelling goes on with. So
gaps can be exchanged for other gaps, and keywords written in another case, and the text still falls
apart into the same tokens.
-/
namespace TinyPascal

open Lexer

/-- Whether a token of the given kind is drawn on by the character `d` after it. -/
def TokenKind.continuedBy : TokenKind → Char → Bool
  | .keyword _, d | .identifier, d => isWordPart d
  | .integerLiteral, d => d.isDigit
  | .mark .less, d => d == '=' || d == '>'
  | .mark .greater, d | .mark .colon, d => d == '='
  | .mark .slash, d => d == '*'
  | _, _ => false

namespace Lexer

variable {c d : Char} {cs rest gap : List Char} {kind : TokenKind} {lexeme : String}

theorem Denotes.candidate_append (h : Denotes cs kind lexeme) (hd : kind.continuedBy d = true) :
    Candidate (cs ++ [d]) := by
  cases h with
  | keyword hc hcs _ | name hc hcs _ =>
    refine .token (denotes_word hc fun e he => ?_)
    rcases List.mem_append.1 he with he | he
    · exact hcs e he
    · exact List.mem_singleton.1 he ▸ hd
  | numeral hc hcs =>
    refine .token (.numeral hc fun e he => ?_)
    rcases List.mem_append.1 he with he | he
    · exact hcs e he
    · exact List.mem_singleton.1 he ▸ hd
  | string _ => cases hd
  | mark m =>
    cases m with
    | less =>
      simp only [TokenKind.continuedBy, Bool.or_eq_true, beq_iff_eq] at hd
      rcases hd with rfl | rfl
      · exact .token (.mark .lessEqual)
      · exact .token (.mark .notEqual)
    | greater =>
      obtain rfl := beq_iff_eq.1 hd
      exact .token (.mark .greaterEqual)
    | colon =>
      obtain rfl := beq_iff_eq.1 hd
      exact .token (.mark .assign)
    | slash =>
      obtain rfl := beq_iff_eq.1 hd
      exact .comment
    | _ => cases hd

theorem splitMark_append {m : Mark}
    (hrest : ∀ d ∈ rest.head?, (TokenKind.mark m).continuedBy d = false) :
    splitMark (m.spelling.toList ++ rest) = some (m, rest) := by
  cases rest with
  | nil => cases m <;> rfl
  | cons d rest =>
    have hd := hrest d rfl
    cases m <;> simp_all [TokenKind.continuedBy, Mark.spelling, splitMark]

/-- A spelling is the longest unless it is drawn on by what follows it. -/
theorem Denotes.longest_iff (h : Denotes cs kind lexeme) :
    Longest cs rest ↔ ∀ d ∈ rest.head?, kind.continuedBy d = false := by
  constructor
  · intro hlongest d hd
    by_contra hcontinued
    rw [Bool.not_eq_false] at hcontinued
    rw [← List.cons_head?_tail hd] at hlongest
    have hlength := hlongest _ (h.candidate_append hcontinued) ⟨rest.tail, by simp⟩
    simp at hlength
  · intro hrest
    cases h with
    | @keyword c cs _ hc hcs _ | @name c cs hc hcs _ =>
      obtain ⟨htake, hdrop⟩ := takeWhile_append_of_head hcs hrest
      have hlongest := longest_word hc (cs ++ rest)
      rwa [htake, hdrop] at hlongest
    | @numeral c cs hc hcs =>
      obtain ⟨htake, hdrop⟩ := takeWhile_append_of_head hcs hrest
      have hlongest := longest_number hc (cs ++ rest)
      rwa [htake, hdrop] at hlongest
    | string hbody => exact longest_string hbody rest
    | mark m =>
      have hsplit := splitMark_append hrest
      obtain ⟨c, cs, hm, hc⟩ := spelling_eq_cons m
      obtain ⟨-, hword, hdigit, hquote⟩ := not_start_of_mem_markStarts c hc
      rw [hm, List.cons_append] at hsplit
      refine longest_mark hword hdigit hquote ?_ hsplit
      rintro ⟨rfl, hstar⟩
      obtain rfl := eq_nil_of_slash hm
      obtain rfl : m = .slash := by cases m <;> first | rfl | cases hm
      exact absurd (hrest '*' hstar) (by decide)

theorem mem_markStarts_of_continuedBy {m : Mark} (h : (TokenKind.mark m).continuedBy d = true) :
    d ∈ markStarts := by
  cases m with
  | less =>
    simp only [TokenKind.continuedBy, Bool.or_eq_true, beq_iff_eq] at h
    rcases h with rfl | rfl <;> decide
  | greater | colon | slash =>
    obtain rfl := beq_iff_eq.1 h
    decide
  | _ => cases h

theorem isWordPart_eq_false_of_isBlank (h : Text.isBlank c = true) : isWordPart c = false := by
  rw [isWordPart, isLetter_eq_false_of_isBlank h, isNumeric_eq_false_of_isBlank h, Bool.false_or,
    Bool.false_or, beq_eq_false_iff_ne]
  rintro rfl
  exact absurd h (by decide)

theorem continuedBy_eq_false_of_isBlank (h : Text.isBlank d = true) (kind : TokenKind) :
    kind.continuedBy d = false := by
  by_contra hcontinued
  rw [Bool.not_eq_false] at hcontinued
  cases kind with
  | keyword _ | identifier =>
    rw [TokenKind.continuedBy, isWordPart_eq_false_of_isBlank h] at hcontinued
    cases hcontinued
  | integerLiteral => simp [isBlank_eq_false_of_isDigit hcontinued] at h
  | stringLiteral | endOfInput => cases hcontinued
  | mark m =>
    have hmark := mem_markStarts_of_continuedBy hcontinued
    simp [(not_start_of_mem_markStarts d hmark).1] at h

/-- No token is drawn on by a gap. -/
theorem Gap.continuedBy_head (h : Gap gap) (kind : TokenKind) :
    ∀ d ∈ gap.head?, kind.continuedBy d = false := by
  intro d hd
  cases h with
  | nil => cases hd
  | blank hc _ =>
    cases hd
    exact continuedBy_eq_false_of_isBlank hc kind
  | comment _ _ =>
    cases hd
    cases kind with
    | keyword _ | identifier | integerLiteral | stringLiteral | endOfInput => rfl
    | mark m => cases m <;> rfl

theorem isWordPart_of_isWordStart (h : isWordStart c = true) : isWordPart c = true := by
  rw [isWordStart, Bool.or_eq_true] at h
  rw [isWordPart, Bool.or_eq_true, Bool.or_eq_true]
  exact h.imp_left .inl

/-- What starts a word draws on the words before it and nothing else. -/
theorem continuedBy_iff_of_isWordStart (h : isWordStart d = true) (kind : TokenKind) :
    kind.continuedBy d = true ↔ (∃ k, kind = .keyword k) ∨ kind = .identifier := by
  cases kind with
  | keyword _ | identifier => simp [TokenKind.continuedBy, isWordPart_of_isWordStart h]
  | integerLiteral =>
    have hdigit : d.isDigit = false := by
      by_contra hdigit
      rw [Bool.not_eq_false] at hdigit
      simp [isWordStart_eq_false_of_isDigit hdigit] at h
    simp [TokenKind.continuedBy, hdigit]
  | stringLiteral | endOfInput => simp [TokenKind.continuedBy]
  | mark m =>
    refine iff_of_false (fun hcontinued => ?_) (by simp)
    have hmark := mem_markStarts_of_continuedBy hcontinued
    simp [(not_start_of_mem_markStarts d hmark).2.1] at h

theorem isLetter_of_isLower_toLower (h : c.toLower.isLower = true) : Text.isLetter c = true := by
  rw [Text.isLetter, Text.letterRanges, Text.inRanges, Text.inRanges]
  by_cases hupper : c.val ≥ 'A'.val ∧ c.val ≤ 'Z'.val
  · have hfirst : 65 ≤ c.toNat := UInt32.le_iff_toNat_le.1 hupper.1
    have hlast : c.toNat ≤ 90 := UInt32.le_iff_toNat_le.1 hupper.2
    rw [decide_eq_true hfirst, decide_eq_true hlast, Bool.true_or, Bool.true_and]
  · have hsame : c.toLower = c := dif_neg hupper
    rw [hsame] at h
    obtain ⟨hfirst, hlast⟩ := Bool.and_eq_true_iff.1 h
    replace hfirst : 97 ≤ c.toNat := UInt32.le_iff_toNat_le.1 (of_decide_eq_true hfirst)
    replace hlast : c.toNat ≤ 122 := UInt32.le_iff_toNat_le.1 (of_decide_eq_true hlast)
    rw [decide_eq_true (by omega), decide_eq_true hfirst, decide_eq_true hlast, Bool.true_or,
      Bool.true_and, Bool.true_and, Bool.or_true]

theorem toLower_eq_newline_iff : c.toLower = '\n' ↔ c = '\n' := by
  constructor
  · intro h
    by_cases hupper : c.val ≥ 'A'.val ∧ c.val ≤ 'Z'.val
    · have hval : c.toLower.val = c.val + ('a'.val - 'A'.val) :=
        congrArg Char.val (dif_pos hupper)
      rw [h] at hval
      grind
    · have hsame : c.toLower = c := dif_neg hupper
      exact hsame ▸ h
  · rintro rfl
    rfl

/-- The case of letters does not move what follows them. -/
theorem advanceBy_eq_of_toLower {cs cs' : List Char}
    (h : cs'.map Char.toLower = cs.map Char.toLower) (p : Position) :
    p.advanceBy cs' = p.advanceBy cs := by
  induction cs generalizing cs' p with
  | nil => rw [List.map_eq_nil_iff.1 h]
  | cons c cs ih =>
    obtain ⟨c', cs', rfl, hc, hcs⟩ := List.map_eq_cons_iff.1 h
    have hnewline : c' = '\n' ↔ c = '\n' := by
      rw [← toLower_eq_newline_iff, hc, toLower_eq_newline_iff]
    rw [Position.advanceBy_cons, Position.advanceBy_cons, ih hcs, Position.advance,
      Position.advance, if_congr hnewline rfl rfl]

theorem isWordStart_of_toLower_mem {k : Keyword} (h : c.toLower ∈ k.spelling.toList) :
    isWordStart c = true := by
  have hlower : ∀ d ∈ k.spelling.toList, d.isLower = true := by
    cases k <;> exact List.all_eq_true.1 (by decide)
  rw [isWordStart, isLetter_of_isLower_toLower (hlower _ h), Bool.true_or]

/-- However the letters of a keyword are cased, they spell the keyword. -/
theorem denotes_keyword {k : Keyword} (h : cs.map Char.toLower = k.spelling.toList) :
    Denotes cs (.keyword k) (.ofList cs) := by
  have hstart : ∀ d ∈ cs, isWordStart d = true := fun d hd =>
    isWordStart_of_toLower_mem (h ▸ List.mem_map_of_mem hd)
  cases cs with
  | nil => cases k <;> cases h
  | cons c cs =>
    rw [List.forall_mem_cons] at hstart
    exact .keyword hstart.1 (fun d hd => isWordPart_of_isWordStart (hstart.2 d hd)) h

/-- `Rewrites Regap Respell text other`: the gaps and spellings of `text` are exchanged one by one
for those of `other`, gaps as `Regap` says and the spellings of tokens as `Respell` says. -/
inductive Rewrites (Regap : List Char → List Char → Prop)
    (Respell : TokenKind → List Char → List Char → Prop) : List Char → List Char → Prop where
  | last {gap gap' : List Char} (hgap : Gap gap) (hgap' : Gap gap') (hregap : Regap gap gap') :
      Rewrites Regap Respell gap gap'
  | token {gap gap' cs cs' text text' : List Char} {kind : TokenKind} {lexeme : String}
      (hgap : Gap gap) (hgap' : Gap gap') (hregap : Regap gap gap')
      (htoken : Denotes cs kind lexeme) (hlongest : Longest cs text)
      (hrespell : Respell kind cs cs') (hrest : Rewrites Regap Respell text text') :
      Rewrites Regap Respell (gap ++ (cs ++ text)) (gap' ++ (cs' ++ text'))

/-- A gap stays as it is or becomes one that is not empty. -/
def Regaps (gap gap' : List Char) : Prop :=
  gap' = gap ∨ gap' ≠ []

/-- A spelling stays as it is, or it is a keyword's and ASCII letters of it change their case. -/
def Recases (kind : TokenKind) (cs cs' : List Char) : Prop :=
  cs' = cs ∨ (∃ k : Keyword, kind = .keyword k) ∧ cs'.map Char.toLower = cs.map Char.toLower

end Lexer

/-- The text of a token of the given kind, with `spell` applied to it if the token is a keyword. -/
def TokenKind.respell (spell : String → String) : TokenKind → String → String
  | .keyword _, lexeme => spell lexeme
  | _, lexeme => lexeme

namespace Lexer

/-- Changes of gaps and spellings after which the tokens are the same if keywords are compared by
`spell`, and places by `Agree`. -/
structure Harmless (spell : String → String) (Agree : Position → Position → Prop)
    (Regap : List Char → List Char → Prop)
    (Respell : TokenKind → List Char → List Char → Prop) : Prop where
  regaps : ∀ {gap gap' : List Char}, Regap gap gap' → Regaps gap gap'
  recases : ∀ {kind : TokenKind} {cs cs' : List Char}, Respell kind cs cs' → Recases kind cs cs'
  lexeme : ∀ {kind : TokenKind} {cs cs' : List Char} {lexeme lexeme' : String},
    Respell kind cs cs' → Denotes cs kind lexeme → Denotes cs' kind lexeme' →
      kind.respell spell lexeme' = kind.respell spell lexeme
  gap : ∀ {p p' : Position} {gap gap' : List Char}, Agree p p' → Regap gap gap' →
    Agree (p.advanceBy gap) (p'.advanceBy gap')
  spelling : ∀ {p p' : Position} {kind : TokenKind} {cs cs' : List Char}, Agree p p' →
    Respell kind cs cs' → Agree (p.advanceBy cs) (p'.advanceBy cs')

/-- Two tokens of one kind, with texts that `spell` makes equal and places that agree. -/
structure Corresponds (spell : String → String) (Agree : Position → Position → Prop)
    (t t' : Token) : Prop where
  kind : t'.kind = t.kind
  lexeme : t'.kind.respell spell t'.lexeme = t.kind.respell spell t.lexeme
  position : Agree t.position t'.position

variable {spell : String → String} {Agree : Position → Position → Prop}
  {Regap : List Char → List Char → Prop} {Respell : TokenKind → List Char → List Char → Prop}
  {cs' text text' : List Char}

theorem Denotes.recase (h : Denotes cs kind lexeme) (hrecases : Recases kind cs cs') :
    ∃ lexeme', Denotes cs' kind lexeme' := by
  obtain rfl | ⟨⟨k, rfl⟩, hlower⟩ := hrecases
  · exact ⟨lexeme, h⟩
  · cases h with
    | keyword _ _ hk => exact ⟨_, denotes_keyword (hlower.trans hk)⟩

/-- A spelling and its recased form draw on the same tokens. -/
theorem Recases.continuedBy_head (h : Recases kind cs cs') (htoken : Denotes cs kind lexeme)
    {before : TokenKind} (hhead : ∀ d ∈ (cs ++ text).head?, before.continuedBy d = false) :
    ∀ d ∈ (cs' ++ text').head?, before.continuedBy d = false := by
  obtain rfl | ⟨⟨k, rfl⟩, hlower⟩ := h
  · obtain ⟨c, ds, rfl, -⟩ := htoken.exists_cons
    exact hhead
  · cases htoken with
    | @keyword c _ _ hc _ hk =>
      obtain ⟨c', ds', rfl, hc', -⟩ := List.map_eq_cons_iff.1 hlower
      have hstart : isWordStart c' = true := by
        apply isWordStart_of_toLower_mem (k := k)
        rw [hc', ← hk]
        simp
      intro d hd
      cases hd
      have hfalse := hhead c rfl
      rw [Bool.eq_false_iff, ne_eq, continuedBy_iff_of_isWordStart hc] at hfalse
      rwa [Bool.eq_false_iff, ne_eq, continuedBy_iff_of_isWordStart hstart]

/-- What does not draw on a token before it does not do so when it is rewritten. -/
theorem Rewrites.continuedBy_head (h : Rewrites Regap Respell text text')
    (hharmless : Harmless spell Agree Regap Respell) {before : TokenKind}
    (hhead : ∀ d ∈ text.head?, before.continuedBy d = false) :
    ∀ d ∈ text'.head?, before.continuedBy d = false := by
  cases h with
  | last _ hgap' _ => exact hgap'.continuedBy_head before
  | @token gap gap' _ _ _ _ _ _ _ hgap' hregap htoken _ hrespell _ =>
    cases gap' with
    | nil =>
      obtain rfl | hne := hharmless.regaps hregap
      · exact (hharmless.recases hrespell).continuedBy_head htoken hhead
      · exact absurd rfl hne
    | cons c gap' =>
      intro d hd
      exact hgap'.continuedBy_head before d hd

/-- A text and its rewritten form fall apart into tokens that correspond to each other. -/
theorem Rewrites.exists_scans (h : Rewrites Regap Respell text text')
    (hharmless : Harmless spell Agree Regap Respell) {p p' : Position} (hp : Agree p p') :
    ∃ tokens tokens', Scans p text tokens (p.advanceBy text) [] ∧
      Scans p' text' tokens' (p'.advanceBy text') [] ∧
      List.Forall₂ (Corresponds spell Agree) tokens tokens' ∧
      Agree (p.advanceBy text) (p'.advanceBy text') := by
  induction h generalizing p p' with
  | @last gap gap' hgap hgap' hregap =>
    have hscans : Scans p (gap ++ []) [] (p.advanceBy gap) [] := .gap hgap
    have hscans' : Scans p' (gap' ++ []) [] (p'.advanceBy gap') [] := .gap hgap'
    rw [List.append_nil] at hscans hscans'
    exact ⟨[], [], hscans, hscans', .nil, hharmless.gap hp hregap⟩
  | @token gap gap' cs cs' text text' kind lexeme hgap hgap' hregap htoken hlongest hrespell hrest
      ih =>
    have hgaps := hharmless.gap hp hregap
    have hspellings := hharmless.spelling hgaps hrespell
    rw [← Position.advanceBy_append, ← Position.advanceBy_append] at hspellings
    obtain ⟨tokens, tokens', hscans, hscans', htokens, hends⟩ := ih hspellings
    obtain ⟨lexeme', htoken'⟩ := htoken.recase (hharmless.recases hrespell)
    have hlongest' : Longest cs' text' :=
      htoken'.longest_iff.2 (hrest.continuedBy_head hharmless (htoken.longest_iff.1 hlongest))
    rw [← List.append_assoc gap, ← List.append_assoc gap', Position.advanceBy_append,
      Position.advanceBy_append p', List.append_assoc, List.append_assoc]
    exact ⟨_, _, .token hgap htoken hlongest hscans, .token hgap' htoken' hlongest' hscans',
      .cons ⟨rfl, hharmless.lexeme hrespell htoken htoken', hgaps⟩ htokens, hends⟩

/-- A text that falls apart into tokens can be rewritten, if only to itself. -/
theorem Scans.rewrites {p q : Position} {text : List Char} {tokens : List Token}
    (h : Scans p text tokens q []) : Rewrites Regaps (fun _ cs cs' => cs' = cs) text text := by
  generalize hend : [] = rest at h
  induction h with
  | gap hgap =>
    subst hend
    rw [List.append_nil]
    exact .last hgap hgap (.inl rfl)
  | token hgap htoken hlongest _ ih =>
    exact .token hgap hgap (.inl rfl) htoken hlongest rfl (ih hend)

end Lexer

/-- The other source has the tokens of the first, with gaps that may differ. -/
def Respaced (source other : String) : Prop :=
  Rewrites Regaps (fun _ cs cs' => cs' = cs) source.toList other.toList

/-- The other source has the gaps of the first and its tokens, with keywords that may be written in
another case. -/
def Recased (source other : String) : Prop :=
  Rewrites (fun gap gap' => gap' = gap) Recases source.toList other.toList

def foldCase (text : String) : String := text.map Char.toLower

theorem harmless_regaps : Harmless id (fun _ _ => True) Regaps fun _ cs cs' => cs' = cs where
  regaps h := h
  recases h := .inl h
  lexeme := by
    rintro kind cs _ lexeme lexeme' rfl h h'
    rw [(h'.unique h).2]
  gap _ _ := trivial
  spelling _ _ := trivial

theorem harmless_recases : Harmless foldCase Eq (fun gap gap' => gap' = gap) Recases where
  regaps h := .inl h
  recases h := h
  lexeme := by
    rintro kind cs cs' lexeme lexeme' (rfl | ⟨⟨k, rfl⟩, hlower⟩) h h'
    · rw [(h'.unique h).2]
    · cases h
      cases h'
      rw [TokenKind.respell, TokenKind.respell, foldCase, foldCase, ← String.toList_inj]
      simpa using hlower
  gap := by
    rintro p _ gap _ rfl rfl
    rfl
  spelling := by
    rintro p _ kind cs cs' rfl (rfl | ⟨-, hlower⟩)
    · rfl
    · exact (advanceBy_eq_of_toLower hlower p).symm

@[simp] theorem TokenKind.respell_id (kind : TokenKind) (lexeme : String) :
    kind.respell id lexeme = lexeme := by
  cases kind <;> rfl

def Token.respell (spell : String → String) (t : Token) : Token :=
  { t with lexeme := t.kind.respell spell t.lexeme }

theorem Lexer.Rewrites.exists_tokenize {source other : String} {spell : String → String}
    {Agree : Position → Position → Prop} {Regap : List Char → List Char → Prop}
    {Respell : TokenKind → List Char → List Char → Prop}
    (h : Rewrites Regap Respell source.toList other.toList)
    (hharmless : Harmless spell Agree Regap Respell) (hstart : Agree .start .start) :
    ∃ tokens tokens', tokenize source = .ok tokens ∧ tokenize other = .ok tokens' ∧
      List.Forall₂ (Corresponds spell Agree) tokens tokens' := by
  obtain ⟨tokens, tokens', hscans, hscans', htokens, hend⟩ := h.exists_scans hharmless hstart
  refine ⟨_, _, tokenize_of_scans hscans, tokenize_of_scans hscans', ?_⟩
  exact List.rel_append htokens (.cons ⟨rfl, rfl, hend⟩ .nil)

theorem Lexer.Corresponds.map_eq {β : Type} {spell : String → String}
    {Agree : Position → Position → Prop} {ts ts' : List Token} {f : Token → β}
    (h : List.Forall₂ (Corresponds spell Agree) ts ts')
    (hf : ∀ t t', Corresponds spell Agree t t' → f t' = f t) : ts'.map f = ts.map f := by
  induction h with
  | nil => rfl
  | cons ht _ ih => rw [List.map_cons, List.map_cons, hf _ _ ht, ih]

/-- Other gaps leave kinds and texts of the tokens. -/
theorem Respaced.exists_tokenize {source other : String} (h : Respaced source other) :
    ∃ tokens tokens', tokenize source = .ok tokens ∧ tokenize other = .ok tokens' ∧
      tokens'.map Token.bare = tokens.map Token.bare := by
  obtain ⟨tokens, tokens', hsource, hother, htokens⟩ :=
    Rewrites.exists_tokenize h harmless_regaps trivial
  refine ⟨tokens, tokens', hsource, hother, Corresponds.map_eq htokens fun t t' h => ?_⟩
  have hlexeme : t'.lexeme = t.lexeme := by simpa using h.lexeme
  rw [Token.bare, Token.bare, h.kind, hlexeme]

/-- The case of keywords changes nothing but their texts. -/
theorem Recased.exists_tokenize {source other : String} (h : Recased source other) :
    ∃ tokens tokens', tokenize source = .ok tokens ∧ tokenize other = .ok tokens' ∧
      tokens'.map (Token.respell foldCase) = tokens.map (Token.respell foldCase) := by
  obtain ⟨tokens, tokens', hsource, hother, htokens⟩ :=
    Rewrites.exists_tokenize h harmless_recases rfl
  refine ⟨tokens, tokens', hsource, hother, Corresponds.map_eq htokens fun t t' h => ?_⟩
  rw [Token.respell, Token.respell, Token.mk.injEq]
  exact ⟨h.kind, h.lexeme, h.position.symm⟩

/-- A source that can be cut into tokens is one whose layout can be changed. -/
theorem exists_tokenize_iff_respaced {source : String} :
    (∃ tokens, tokenize source = .ok tokens) ↔ Respaced source source := by
  constructor
  · rintro ⟨tokens, h⟩
    obtain ⟨scanned, hscans, -⟩ := exists_scans_of_tokenize h
    exact hscans.rewrites
  · intro h
    obtain ⟨tokens, -, htokens, -⟩ := h.exists_tokenize
    exact ⟨tokens, htokens⟩

end TinyPascal
