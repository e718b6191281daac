import Mathlib.Tactic
import TinyPascal.Proofs.Token.Lexing

/-!
# Maximal munch

What a source text is made of, said without the lexer: gaps of blanks and comments, and between them
the spellings of tokens, each the longest that fits at its place. A spelling belongs to one token
only, so a text is made of tokens in at most one way.
-/
namespace TinyPascal.Lexer

/-- A gap: blanks and comments in any order. A comment closes with the first closing mark after its
opening mark. -/
inductive Gap : List Char → Prop where
  | nil : Gap []
  | blank {c : Char} {rest : List Char} (hc : Text.isBlank c = true) (hrest : Gap rest) :
      Gap (c :: rest)
  | comment {body rest : List Char} (hbody : ¬ ['*', '/'] <:+: body ++ ['*']) (hrest : Gap rest) :
      Gap ('/' :: '*' :: (body ++ '*' :: '/' :: rest))

/-- `Decodes body value`: between quotes, `body` stands for `value`. A backslash takes the character
after it along. -/
inductive Decodes : List Char → List Char → Prop where
  | nil : Decodes [] []
  | plain {c : Char} {body value : List Char} (hquote : c ≠ '"') (hslash : c ≠ '\\')
      (h : Decodes body value) : Decodes (c :: body) (c :: value)
  | newline {body value : List Char} (h : Decodes body value) :
      Decodes ('\\' :: 'n' :: body) ('\n' :: value)
  | tab {body value : List Char} (h : Decodes body value) :
      Decodes ('\\' :: 't' :: body) ('\t' :: value)
  | escaped {c : Char} {body value : List Char} (hn : c ≠ 'n') (ht : c ≠ 't')
      (h : Decodes body value) : Decodes ('\\' :: c :: body) (c :: value)

/-- `Denotes cs kind text`: the characters `cs` spell a token of the given kind and text. -/
inductive Denotes : List Char → TokenKind → String → Prop where
  | keyword {c : Char} {cs : List Char} {k : Keyword} (hc : isWordStart c = true)
      (hcs : ∀ d ∈ cs, isWordPart d = true)
      (hk : (c :: cs).map Char.toLower = k.spelling.toList) :
      Denotes (c :: cs) (.keyword k) (.ofList (c :: cs))
  | name {c : Char} {cs : List Char} (hc : isWordStart c = true)
      (hcs : ∀ d ∈ cs, isWordPart d = true)
      (hk : ∀ k : Keyword, (c :: cs).map Char.toLower ≠ k.spelling.toList) :
      Denotes (c :: cs) .identifier (.ofList (c :: cs))
  | numeral {c : Char} {cs : List Char} (hc : c.isDigit = true) (hcs : ∀ d ∈ cs, d.isDigit = true) :
      Denotes (c :: cs) .integerLiteral (.ofList (c :: cs))
  | string {body value : List Char} (h : Decodes body value) :
      Denotes ('"' :: (body ++ ['"'])) .stringLiteral (.ofList value)
  | mark (m : Mark) : Denotes m.spelling.toList (.mark m) m.spelling

/-- What can be taken at a place where no blank stands: a token, or the opening of a comment. -/
inductive Candidate : List Char → Prop where
  | token {cs : List Char} {kind : TokenKind} {text : String} (h : Denotes cs kind text) :
      Candidate cs
  | comment : Candidate ['/', '*']

/-- Before `rest`, no longer candidate than `cs` can be taken. -/
def Longest (cs rest : List Char) : Prop :=
  ∀ ds, Candidate ds → ds <+: cs ++ rest → ds.length ≤ cs.length

/-- `Scans p text tokens q rest`: from `p` on, `text` consists of the longest spellings of `tokens`
with gaps around them, and of `rest`, which starts at `q`. Every token is at the place of its first
character. -/
inductive Scans : Position → List Char → List Token → Position → List Char → Prop where
  | gap {p : Position} {gap rest : List Char} (hgap : Gap gap) :
      Scans p (gap ++ rest) [] (p.advanceBy gap) rest
  | token {p q : Position} {gap cs text rest : List Char} {kind : TokenKind} {lexeme : String}
      {tokens : List Token} (hgap : Gap gap) (htoken : Denotes cs kind lexeme)
      (hlongest : Longest cs text)
      (hscans : Scans (p.advanceBy (gap ++ cs)) text tokens q rest) :
      Scans p (gap ++ (cs ++ text)) (⟨kind, lexeme, p.advanceBy gap⟩ :: tokens) q rest

/-- `Stuck last q rest e`: at `q`, before `rest`, no scan can go on, and `e` says why. What is never
closed is missed at `last`, the end of the input. -/
inductive Stuck (last : Position) : Position → List Char → LexicalError → Prop where
  | character {q : Position} {c : Char} {rest : List Char} (hblank : Text.isBlank c = false)
      (htoken : ∀ cs kind text, Denotes cs kind text → cs.head? ≠ some c) :
      Stuck last q (c :: rest) ⟨.invalidCharacter c, q⟩
  | string {q : Position} {rest : List Char}
      (hopen : ∀ body value, Decodes body value → ¬ body ++ ['"'] <+: rest) :
      Stuck last q ('"' :: rest) ⟨.unterminatedString, last⟩
  | comment {q : Position} {rest : List Char} (hopen : ¬ ['*', '/'] <:+: rest) :
      Stuck last q ('/' :: '*' :: rest) ⟨.unterminatedComment, last⟩

theorem Gap.append {left right : List Char} (hleft : Gap left) (hright : Gap right) :
    Gap (left ++ right) := by
  induction hleft with
  | nil => exact hright
  | blank hc _ ih => exact .blank hc ih
  | @comment body rest hbody _ ih =>
    simpa using Gap.comment hbody ih

theorem Scans.skip {p q : Position} {gap text rest : List Char} {tokens : List Token}
    (hgap : Gap gap) (h : Scans (p.advanceBy gap) text tokens q rest) :
    Scans p (gap ++ text) tokens q rest := by
  cases h with
  | @gap _ more _ hmore =>
    rw [← List.append_assoc, ← Position.advanceBy_append]
    exact .gap (hgap.append hmore)
  | @token _ _ more cs text _ _ _ _ hmore htoken hlongest hscans =>
    rw [← Position.advanceBy_append, ← List.append_assoc] at hscans
    rw [← List.append_assoc, ← Position.advanceBy_append]
    exact .token (hgap.append hmore) htoken hlongest hscans

/-- A scan loses no character: what it leaves ends where the text ends. -/
theorem Scans.advanceBy_rest {p q : Position} {text rest : List Char} {tokens : List Token}
    (h : Scans p text tokens q rest) : q.advanceBy rest = p.advanceBy text := by
  induction h with
  | gap hgap => exact (Position.advanceBy_append ..).symm
  | token _ _ _ _ ih => rw [ih, ← Position.advanceBy_append, List.append_assoc]

end TinyPascal.Lexer

namespace TinyPascal

namespace Keyword

theorem ofWord?_eq_some_iff {word : List Char} {k : Keyword} :
    ofWord? (.ofList word) = some k ↔ word.map Char.toLower = k.spelling.toList := by
  rw [ofWord?_eq_find?, String.toList_ofList]
  constructor
  · intro h
    have hk := List.find?_some h
    exact (beq_iff_eq.1 hk).symm
  · intro h
    rw [h]
    cases k <;> decide

theorem ofWord?_eq_none_iff {word : List Char} :
    ofWord? (.ofList word) = none ↔
      ∀ k : Keyword, word.map Char.toLower ≠ k.spelling.toList := by
  rw [Option.eq_none_iff_forall_ne_some]
  exact forall_congr' fun k => not_congr ofWord?_eq_some_iff

end Keyword

namespace Lexer

variable {c : Char} {cs : List Char} {kind : TokenKind} {text : String}

def markStarts : List Char := ['+', '-', '*', '/', '=', '<', '>', ';', '.', ',', ':', '(', ')']

theorem spelling_eq_cons (m : Mark) : ∃ c cs, m.spelling.toList = c :: cs ∧ c ∈ markStarts := by
  cases m <;> exact ⟨_, _, rfl, by decide⟩

/-- No mark starts like a blank, a word, a number or a string. -/
theorem not_start_of_mem_markStarts : ∀ c ∈ markStarts, Text.isBlank c = false ∧
    isWordStart c = false ∧ c.isDigit = false ∧ c ≠ '"' := by
  have hall : markStarts.all (fun c =>
      !Text.isBlank c && !isWordStart c && !c.isDigit && c != '"') = true := by decide
  intro c hc
  simpa [and_assoc] using List.all_eq_true.1 hall c hc

theorem splitMark_spelling (m : Mark) : splitMark m.spelling.toList = some (m, []) := by
  cases m <;> rfl

theorem not_isWordStart_quote : isWordStart '"' = false := by decide

theorem denotes_word (hc : isWordStart c = true) (hcs : ∀ d ∈ cs, isWordPart d = true) :
    Denotes (c :: cs) (.ofWord (.ofList (c :: cs))) (.ofList (c :: cs)) := by
  rw [TokenKind.ofWord]
  cases hk : Keyword.ofWord? (.ofList (c :: cs)) with
  | some k => exact .keyword hc hcs (Keyword.ofWord?_eq_some_iff.1 hk)
  | none => exact .name hc hcs (Keyword.ofWord?_eq_none_iff.1 hk)

namespace Denotes

/-- A spelling starts with a character that is no blank. -/
theorem exists_cons (h : Denotes cs kind text) : ∃ c ds, cs = c :: ds ∧ Text.isBlank c = false := by
  cases h with
  | keyword hc _ _ | name hc _ _ => exact ⟨_, _, rfl, isBlank_eq_false_of_isWordStart hc⟩
  | numeral hc _ => exact ⟨_, _, rfl, isBlank_eq_false_of_isDigit hc⟩
  | string _ => exact ⟨_, _, rfl, by decide⟩
  | mark m =>
    obtain ⟨c, ds, hm, hc⟩ := spelling_eq_cons m
    exact ⟨c, ds, hm, (not_start_of_mem_markStarts c hc).1⟩

theorem word (h : Denotes (c :: cs) kind text) (hc : isWordStart c = true) :
    (∀ d ∈ cs, isWordPart d = true) ∧ kind = .ofWord (.ofList (c :: cs)) ∧
      text = .ofList (c :: cs) := by
  generalize hword : c :: cs = word at h
  cases h with
  | keyword _ hcs hk =>
    obtain ⟨rfl, rfl⟩ := List.cons.inj hword
    exact ⟨hcs, by rw [TokenKind.ofWord, Keyword.ofWord?_eq_some_iff.2 hk], rfl⟩
  | name _ hcs hk =>
    obtain ⟨rfl, rfl⟩ := List.cons.inj hword
    exact ⟨hcs, by rw [TokenKind.ofWord, Keyword.ofWord?_eq_none_iff.2 hk], rfl⟩
  | numeral hdigit _ =>
    obtain ⟨rfl, -⟩ := List.cons.inj hword
    simp [isWordStart_eq_false_of_isDigit hdigit] at hc
  | string _ =>
    obtain ⟨rfl, -⟩ := List.cons.inj hword
    simp [not_isWordStart_quote] at hc
  | mark m =>
    obtain ⟨d, ds, hm, hd⟩ := spelling_eq_cons m
    obtain ⟨rfl, -⟩ := List.cons.inj (hword.trans hm)
    simp [(not_start_of_mem_markStarts c hd).2.1] at hc

theorem number (h : Denotes (c :: cs) kind text) (hc : c.isDigit = true) :
    (∀ d ∈ cs, d.isDigit = true) ∧ kind = .integerLiteral ∧ text = .ofList (c :: cs) := by
  generalize hword : c :: cs = word at h
  cases h with
  | keyword hstart _ _ | name hstart _ _ =>
    obtain ⟨rfl, -⟩ := List.cons.inj hword
    simp [isWordStart_eq_false_of_isDigit hc] at hstart
  | numeral _ hcs =>
    obtain ⟨rfl, rfl⟩ := List.cons.inj hword
    exact ⟨hcs, rfl, rfl⟩
  | string _ =>
    obtain ⟨rfl, -⟩ := List.cons.inj hword
    cases hc
  | mark m =>
    obtain ⟨d, ds, hm, hd⟩ := spelling_eq_cons m
    obtain ⟨rfl, -⟩ := List.cons.inj (hword.trans hm)
    simp [(not_start_of_mem_markStarts c hd).2.2.1] at hc

theorem quoted (h : Denotes ('"' :: cs) kind text) :
    ∃ body value, cs = body ++ ['"'] ∧ Decodes body value ∧ kind = .stringLiteral ∧
      text = .ofList value := by
  generalize hword : '"' :: cs = word at h
  cases h with
  | keyword hc _ _ | name hc _ _ =>
    obtain ⟨rfl, -⟩ := List.cons.inj hword
    simp [not_isWordStart_quote] at hc
  | numeral hc _ =>
    obtain ⟨rfl, -⟩ := List.cons.inj hword
    cases hc
  | @string body value hbody => exact ⟨body, value, (List.cons.inj hword).2, hbody, rfl, rfl⟩
  | mark m =>
    obtain ⟨d, ds, hm, hd⟩ := spelling_eq_cons m
    exact absurd (List.cons.inj (hword.trans hm)).1.symm (not_start_of_mem_markStarts d hd).2.2.2

theorem symbol (h : Denotes (c :: cs) kind text) (hword : isWordStart c = false)
    (hdigit : c.isDigit = false) (hquote : c ≠ '"') :
    ∃ m : Mark, m.spelling.toList = c :: cs ∧ kind = .mark m ∧ text = m.spelling := by
  generalize heq : c :: cs = ds at h
  cases h with
  | keyword hc _ _ | name hc _ _ =>
    obtain ⟨rfl, -⟩ := List.cons.inj heq
    simp [hword] at hc
  | numeral hc _ =>
    obtain ⟨rfl, -⟩ := List.cons.inj heq
    simp [hdigit] at hc
  | string _ => exact absurd (List.cons.inj heq).1 hquote
  | mark m => exact ⟨m, rfl, rfl, rfl⟩

end Denotes

theorem Decodes.unescape {body value : List Char} (h : Decodes body value) :
    unescape body = value := by
  induction h with
  | nil => rfl
  | plain _ hslash _ ih => rw [unescape_cons _ hslash, ih]
  | newline _ ih | tab _ ih =>
    rw [Lexer.unescape, ih]
    rfl
  | escaped hn ht _ ih => rw [Lexer.unescape, ih, unescapeChar, if_neg hn, if_neg ht]

/-- The kind and the text of a token are determined by its spelling. -/
theorem Denotes.unique {other : TokenKind} {otherText : String} (h : Denotes cs kind text)
    (h' : Denotes cs other otherText) : kind = other ∧ text = otherText := by
  obtain ⟨c, ds, rfl, -⟩ := h.exists_cons
  by_cases hword : isWordStart c = true
  · obtain ⟨-, rfl, rfl⟩ := h.word hword
    obtain ⟨-, rfl, rfl⟩ := h'.word hword
    exact ⟨rfl, rfl⟩
  by_cases hdigit : c.isDigit = true
  · obtain ⟨-, rfl, rfl⟩ := h.number hdigit
    obtain ⟨-, rfl, rfl⟩ := h'.number hdigit
    exact ⟨rfl, rfl⟩
  by_cases hquote : c = '"'
  · subst hquote
    obtain ⟨body, value, rfl, hbody, rfl, rfl⟩ := h.quoted
    obtain ⟨body', value', heq, hbody', rfl, rfl⟩ := h'.quoted
    rw [List.append_cancel_right heq] at hbody
    exact ⟨rfl, by rw [← hbody.unescape, hbody'.unescape]⟩
  · simp only [Bool.not_eq_true] at hword hdigit
    obtain ⟨m, hm, rfl, rfl⟩ := h.symbol hword hdigit hquote
    obtain ⟨m', hm', rfl, rfl⟩ := h'.symbol hword hdigit hquote
    have hsplit := splitMark_spelling m
    rw [hm, ← hm', splitMark_spelling m'] at hsplit
    cases hsplit
    exact ⟨rfl, rfl⟩

end Lexer

end TinyPascal
