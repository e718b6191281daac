import Mathlib.Data.List.TakeWhile
import Mathlib.Tactic
import TinyPascal.Proofs.Syntax.WellFormed

/-!
# Written tokens

The tokens of a source text are written as the lexer says: an identifier is a word and no keyword,
and an integer literal is a run of digits. Conversely, tokens that are written with blanks between
them are found again, with kind and text.
-/
namespace TinyPascal

abbrev Lexeme := TokenKind × String

def Token.bare (t : Token) : Lexeme := (t.kind, t.lexeme)

namespace Lexer

def blankPoints : List Nat :=
  [0x9, 0xa, 0xb, 0xc, 0xd, 0x20, 0x85, 0xa0, 0x1680, 0x2000, 0x2001, 0x2002, 0x2003, 0x2004,
    0x2005, 0x2006, 0x2007, 0x2008, 0x2009, 0x200a, 0x2028, 0x2029, 0x202f, 0x205f, 0x3000]

theorem mem_blankPoints {c : Char} (h : Text.isBlank c = true) : c.toNat ∈ blankPoints := by
  simp only [Text.isBlank, Text.inRanges, Text.blankRanges, Bool.and_eq_true, Bool.or_eq_true,
    decide_eq_true_eq, Bool.false_eq_true, or_false] at h
  simp only [blankPoints, List.mem_cons, List.not_mem_nil, or_false]
  omega

theorem isLetter_eq_false_of_isBlank {c : Char} (h : Text.isBlank c = true) :
    Text.isLetter c = false :=
  (by decide +kernel : ∀ n ∈ blankPoints, Text.inRanges Text.letterRanges n = false) _
    (mem_blankPoints h)

theorem isNumeric_eq_false_of_isBlank {c : Char} (h : Text.isBlank c = true) :
    Text.isNumeric c = false :=
  (by decide +kernel : ∀ n ∈ blankPoints, Text.inRanges Text.numericRanges n = false) _
    (mem_blankPoints h)

theorem isBlank_eq_false_of_isWordStart {c : Char} (h : isWordStart c = true) :
    Text.isBlank c = false := by
  by_contra hblank
  rw [Bool.not_eq_false] at hblank
  rw [isWordStart, isLetter_eq_false_of_isBlank hblank, Bool.false_or, beq_iff_eq] at h
  subst h
  exact absurd hblank (by decide)

theorem isBlank_eq_false_of_isDigit {c : Char} (h : c.isDigit = true) : Text.isBlank c = false := by
  have hrange : 48 ≤ c.toNat ∧ c.toNat ≤ 57 := Char.isDigit_iff_toNat.1 h
  simp [Text.isBlank, Text.inRanges, Text.blankRanges]
  omega

theorem isWordStart_eq_false_of_isDigit {c : Char} (h : c.isDigit = true) :
    isWordStart c = false := by
  have hrange : 48 ≤ c.toNat ∧ c.toNat ≤ 57 := Char.isDigit_iff_toNat.1 h
  have hletter : Text.isLetter c = false := by
    rw [Text.isLetter, Text.letterRanges, Text.inRanges, decide_eq_false (by omega), Bool.false_and]
  rw [isWordStart, hletter, Bool.false_or, beq_eq_false_iff_ne]
  rintro rfl
  simp at h

theorem isWritten_of_ne {t : Token} (hname : t.kind ≠ .identifier)
    (hnumeral : t.kind ≠ .integerLiteral) : t.IsWritten :=
  ⟨fun h => absurd h hname, fun h => absurd h hnumeral⟩

theorem isWritten_of_ofWord {word : List Char} {c : Char} {cs : List Char} (p : Position)
    (hword : word = c :: cs) (hc : isWordStart c = true) (hcs : ∀ d ∈ cs, isWordPart d = true) :
    (Token.mk (.ofWord (.ofList word)) (.ofList word) p).IsWritten := by
  constructor
  · intro hkind
    refine ⟨⟨c, cs, by simp [hword], hc, hcs⟩, ?_⟩
    cases hk : Keyword.ofWord? (.ofList word) with
    | none => rfl
    | some k => simp [TokenKind.ofWord, hk] at hkind
  · intro hkind
    simp only [TokenKind.ofWord] at hkind
    cases hk : Keyword.ofWord? (.ofList word) <;> simp [hk] at hkind

theorem isWritten_of_splitPiece {c : Char} {rest after : List Char} {piece : Piece}
    {kind : TokenKind} {lexeme : String} (p : Position)
    (h : splitPiece c rest = .ok (piece, after)) (htoken : piece.token? = some (kind, lexeme)) :
    (Token.mk kind lexeme p).IsWritten := by
  unfold splitPiece at h
  split at h
  · cases h
    cases htoken
  split at h
  · next hc =>
    cases h
    cases htoken
    exact isWritten_of_ofWord p rfl hc fun d hd => List.mem_takeWhile_imp hd
  split at h
  · next hc =>
    cases h
    cases htoken
    refine ⟨fun hkind => TokenKind.noConfusion hkind, fun _ d hd => ?_⟩
    rw [String.toList_ofList, List.mem_cons] at hd
    rcases hd with rfl | hd
    · exact hc
    · exact List.mem_takeWhile_imp hd
  split at h
  · split at h
    · cases h
      cases htoken
      exact isWritten_of_ne (by simp) (by simp)
    · cases h
  split at h
  · split at h
    · cases h
      cases htoken
    · cases h
  split at h
  · cases h
    cases htoken
    exact isWritten_of_ne (by simp) (by simp)
  · cases h

theorem isWritten_of_tokensFrom {p : Position} {text : List Char} {ts : List Token}
    (h : tokensFrom p text = .ok ts) : ∀ t ∈ ts, t.IsWritten := by
  fun_induction tokensFrom p text generalizing ts with
  | case1 p =>
    cases h
    intro t ht
    rw [List.mem_singleton] at ht
    subst ht
    exact isWritten_of_ne (by simp) (by simp)
  | case2 => cases h
  | case3 => cases h
  | case4 p c rest piece after hpiece tokens htokens kind lexeme htoken ih =>
    cases h
    intro t ht
    rw [List.mem_cons] at ht
    rcases ht with rfl | ht
    · exact isWritten_of_splitPiece p hpiece htoken
    · exact ih htokens t ht
  | case5 p c rest piece after hpiece tokens htokens htoken ih =>
    cases h
    exact ih htokens

/-- The body of a string literal: a backslash stands before each quote and each backslash. -/
def quoted : List Char → List Char
  | [] => []
  | c :: rest => if c = '"' ∨ c = '\\' then '\\' :: c :: quoted rest else c :: quoted rest

theorem splitString_cons {c : Char} (rest : List Char) (hquote : c ≠ '"') (hslash : c ≠ '\\') :
    splitString (c :: rest) = (splitString rest).map fun (body, after) => (c :: body, after) := by
  rw [splitString]
  · exact hquote
  · intro d tail hc
    exact absurd hc hslash

theorem unescape_cons {c : Char} (rest : List Char) (hslash : c ≠ '\\') :
    unescape (c :: rest) = c :: unescape rest := by
  rw [unescape]
  intro d tail hc
  exact absurd hc hslash

theorem splitString_quoted (value rest : List Char) :
    splitString (quoted value ++ '"' :: rest) = some (quoted value, rest) := by
  induction value with
  | nil => rfl
  | cons c value ih =>
    by_cases hc : c = '"' ∨ c = '\\'
    · rw [quoted, if_pos hc, List.cons_append, List.cons_append, splitString, ih]
      rfl
    · rw [quoted, if_neg hc, List.cons_append,
        splitString_cons _ (fun h => hc (.inl h)) (fun h => hc (.inr h)), ih]
      rfl

theorem unescape_quoted (value : List Char) : unescape (quoted value) = value := by
  induction value with
  | nil => rfl
  | cons c value ih =>
    by_cases hc : c = '"' ∨ c = '\\'
    · rw [quoted, if_pos hc, unescape, ih]
      rcases hc with rfl | rfl <;> rfl
    · rw [quoted, if_neg hc, unescape_cons _ (fun h => hc (.inr h)), ih]

/-- A text that is empty or starts with a blank, which ends every piece before it. -/
def Breaks (rest : List Char) : Prop := ∀ c ∈ rest.head?, c = ' '

/-- A run of characters of one class goes up to the first character of another. -/
theorem takeWhile_append_of_head {p : Char → Bool} {cs rest : List Char}
    (hcs : ∀ d ∈ cs, p d = true) (hrest : ∀ d ∈ rest.head?, p d = false) :
    (cs ++ rest).takeWhile p = cs ∧ (cs ++ rest).dropWhile p = rest := by
  rw [List.takeWhile_append_of_pos hcs, List.dropWhile_append_of_pos hcs]
  cases rest with
  | nil => simp
  | cons c rest => simp [hrest c rfl]

theorem takeWhile_append_of_breaks {p : Char → Bool} {cs rest : List Char}
    (hcs : ∀ d ∈ cs, p d = true) (hblank : p ' ' = false) (hrest : Breaks rest) :
    (cs ++ rest).takeWhile p = cs ∧ (cs ++ rest).dropWhile p = rest :=
  takeWhile_append_of_head hcs fun d hd => hrest d hd ▸ hblank

theorem splitPiece_word {c : Char} {cs rest : List Char} (hc : isWordStart c = true)
    (hcs : ∀ d ∈ cs, isWordPart d = true) (hrest : Breaks rest) :
    splitPiece c (cs ++ rest) =
      .ok (.verbatim (.ofWord (.ofList (c :: cs))) (c :: cs), rest) := by
  obtain ⟨htake, hdrop⟩ := takeWhile_append_of_breaks hcs (by decide) hrest
  rw [splitPiece, if_neg (by simp [isBlank_eq_false_of_isWordStart hc]), if_pos hc, htake, hdrop]

theorem splitPiece_digits {c : Char} {cs rest : List Char} (hc : c.isDigit = true)
    (hcs : ∀ d ∈ cs, d.isDigit = true) (hrest : Breaks rest) :
    splitPiece c (cs ++ rest) = .ok (.verbatim .integerLiteral (c :: cs), rest) := by
  obtain ⟨htake, hdrop⟩ := takeWhile_append_of_breaks hcs (by decide) hrest
  rw [splitPiece, if_neg (by simp [isBlank_eq_false_of_isDigit hc]),
    if_neg (by simp [isWordStart_eq_false_of_isDigit hc]), if_pos hc, htake, hdrop]

theorem splitPiece_string (value rest : List Char) :
    splitPiece '"' (quoted value ++ '"' :: rest) =
      .ok (⟨'"' :: quoted value ++ ['"'], some (.stringLiteral, .ofList value)⟩, rest) := by
  rw [splitPiece, if_neg (by decide), if_neg (by decide), if_neg (by decide), if_pos rfl,
    splitString_quoted]
  simp only [unescape_quoted]

theorem splitPiece_mark (m : Mark) {rest : List Char} (hrest : Breaks rest) :
    ∃ c cs, m.spelling.toList = c :: cs ∧
      splitPiece c (cs ++ rest) = .ok (.verbatim (.mark m) m.spelling.toList, rest) := by
  cases rest with
  | nil => cases m <;> exact ⟨_, _, rfl, rfl⟩
  | cons c rest =>
    cases hrest c rfl
    cases m <;> exact ⟨_, _, rfl, rfl⟩

end Lexer

namespace Keyword

theorem ofWord?_eq_find? (word : String) :
    ofWord? word = all.find? fun k => k.spelling.toList == word.toList.map Char.toLower := by
  unfold ofWord?
  congr 1
  funext k
  rw [Bool.eq_iff_iff, beq_iff_eq, beq_iff_eq, ← String.toList_inj, String.toList_map]

theorem ofWord?_spelling (k : Keyword) : ofWord? k.spelling = some k := by
  rw [ofWord?_eq_find?]
  cases k <;> decide

theorem isWord_spelling (k : Keyword) : ∃ c cs, k.spelling.toList = c :: cs ∧
    Lexer.isWordStart c = true ∧ ∀ d ∈ cs, Lexer.isWordPart d = true := by
  cases k <;> exact ⟨_, _, rfl, by decide, List.all_eq_true.1 (by decide)⟩

end Keyword

namespace Lexeme

/-- How a token is written: a string between quotes, and any other token as it reads. -/
def spelling : Lexeme → List Char
  | (.stringLiteral, value) => '"' :: (Lexer.quoted value.toList ++ ['"'])
  | (_, text) => text.toList

/-- The tokens a source text can hold. -/
inductive Writable : Lexeme → Prop where
  | keyword (k : Keyword) : Writable (.keyword k, k.spelling)
  | mark (m : Mark) : Writable (.mark m, m.spelling)
  | name {n : String} (hn : IsName n) : Writable (.identifier, n)
  | numeral {n : String} (hne : n.toList ≠ []) (hn : ∀ c ∈ n.toList, c.isDigit = true) :
      Writable (.integerLiteral, n)
  | string (value : String) : Writable (.stringLiteral, value)

def text : List Lexeme → List Char
  | [] => []
  | [l] => l.spelling
  | l :: m :: rest => l.spelling ++ ' ' :: text (m :: rest)

open Lexer

/-- A written token is the first piece of a text, up to the blank after it. -/
theorem Writable.splitPiece {l : Lexeme} (h : l.Writable) {rest : List Char}
    (hrest : Breaks rest) :
    ∃ c cs piece, l.spelling = c :: cs ∧ splitPiece c (cs ++ rest) = .ok (piece, rest) ∧
      piece.token? = some l := by
  cases h with
  | keyword k =>
    obtain ⟨c, cs, hk, hc, hcs⟩ := k.isWord_spelling
    have hword : String.ofList (c :: cs) = k.spelling := by rw [← hk, String.ofList_toList]
    refine ⟨c, cs, _, hk, splitPiece_word hc hcs hrest, ?_⟩
    rw [Piece.verbatim, hword, TokenKind.ofWord, k.ofWord?_spelling]
  | mark m =>
    obtain ⟨c, cs, hm, hpiece⟩ := splitPiece_mark m hrest
    refine ⟨c, cs, _, hm, hpiece, ?_⟩
    rw [Piece.verbatim, String.ofList_toList]
  | @name n hn =>
    obtain ⟨c, cs, hword, hc, hcs⟩ := hn.isWord
    have hn' : String.ofList (c :: cs) = n := by rw [← hword, String.ofList_toList]
    refine ⟨c, cs, _, hword, splitPiece_word hc hcs hrest, ?_⟩
    rw [Piece.verbatim, hn', TokenKind.ofWord, hn.notKeyword]
  | @numeral n hne hn =>
    obtain ⟨c, cs, hdigits⟩ := List.exists_cons_of_ne_nil hne
    have hn' : String.ofList (c :: cs) = n := by rw [← hdigits, String.ofList_toList]
    rw [hdigits, List.forall_mem_cons] at hn
    refine ⟨c, cs, _, hdigits, splitPiece_digits hn.1 hn.2 hrest, ?_⟩
    rw [Piece.verbatim, hn']
  | string value =>
    have hpiece := splitPiece_string value.toList rest
    rw [String.ofList_toList] at hpiece
    exact ⟨'"', quoted value.toList ++ ['"'], _, rfl, by simpa using hpiece, rfl⟩

theorem tokensFrom_blank (p : Position) (rest : List Char) :
    tokensFrom p (' ' :: rest) = tokensFrom (p.advanceBy [' ']) rest := by
  have hpiece : Lexer.splitPiece ' ' rest = .ok (.gap [' '], rest) := rfl
  rw [tokensFrom, hpiece]
  simp only [Piece.gap]
  cases tokensFrom (p.advanceBy [' ']) rest <;> rfl

/-- What follows a written token is lexed on its own. -/
theorem Writable.tokensFrom {l : Lexeme} (h : l.Writable) {rest : List Char} {ls : List Lexeme}
    (hrest : Breaks rest)
    (htokens : ∀ p, ∃ ts, tokensFrom p rest = .ok ts ∧ ts.map Token.bare = ls) (p : Position) :
    ∃ ts, tokensFrom p (l.spelling ++ rest) = .ok ts ∧ ts.map Token.bare = l :: ls := by
  obtain ⟨c, cs, piece, hl, hpiece, htoken⟩ := h.splitPiece hrest
  obtain ⟨ts, hts, hbare⟩ := htokens (p.advanceBy piece.spelling)
  refine ⟨⟨l.1, l.2, p⟩ :: ts, ?_, by simp [Token.bare, hbare]⟩
  rw [hl, List.cons_append, Lexer.tokensFrom, hpiece]
  simp only [hts, htoken]

/-- Tokens that are written with blanks between them are found again. -/
theorem tokensFrom_text {ls : List Lexeme} (h : ∀ l ∈ ls, l.Writable) (p : Position) :
    ∃ ts, Lexer.tokensFrom p (text ls) = .ok ts ∧
      ts.map Token.bare = ls ++ [(.endOfInput, "")] := by
  induction ls generalizing p with
  | nil => exact ⟨[⟨.endOfInput, "", p⟩], by rw [text, Lexer.tokensFrom], rfl⟩
  | cons l ls ih =>
    rw [List.forall_mem_cons] at h
    cases ls with
    | nil =>
      have hlast := h.1.tokensFrom (by simp [Breaks, text]) (ih h.2) p
      rwa [text, List.append_nil] at hlast
    | cons m ls =>
      refine h.1.tokensFrom (by simp [Breaks]) (fun p => ?_) p
      rw [tokensFrom_blank]
      exact ih h.2 _

end Lexeme

end TinyPascal
