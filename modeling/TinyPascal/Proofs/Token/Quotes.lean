import TinyPascal.Proofs.Token.Scanning

/-!
# Where a string literal ends

A backslash takes the next character with it, also when that is a backslash. So a quote closes a
literal if an even number of backslashes stands right before it, and the literal ends at the first
such quote. If there is none, the literal is never closed. What is between the quotes is decoded
from left to right, and every text has a spelling that is decoded to it.
-/
namespace TinyPascal.Lexer

variable {c : Char} {text body after value : List Char}

def backslashes (text : List Char) : ℕ :=
  (text.reverse.takeWhile (· == '\\')).length

/-- `CutsAtQuote text before after`: a quote stands between `before` and `after`, with an even
number of backslashes right before it. -/
structure CutsAtQuote (text before after : List Char) : Prop where
  eq_append : text = before ++ '"' :: after
  even : Even (backslashes before)

/-- The first such quote of a text stands between `before` and `after`. -/
structure CutsAtFirstQuote (text before after : List Char) : Prop extends
    CutsAtQuote text before after where
  first : ∀ other rest, CutsAtQuote text other rest → before.length ≤ other.length

theorem backslashes_cons (c : Char) (text : List Char) :
    backslashes (c :: text) =
      if backslashes text = text.length ∧ c = '\\' then text.length + 1 else backslashes text := by
  rw [backslashes, backslashes, List.reverse_cons, List.takeWhile_append, List.length_reverse]
  by_cases hall : (text.reverse.takeWhile (· == '\\')).length = text.length
  · by_cases hc : c = '\\' <;> simp [hall, hc]
  · simp [hall]

theorem backslashes_cons_of_ne (hc : c ≠ '\\') (text : List Char) :
    backslashes (c :: text) = backslashes text := by
  rw [backslashes_cons, if_neg fun h => hc h.2]

/-- A backslash and what it takes with it do not change whether the number is even. -/
theorem even_backslashes_escape (c : Char) (text : List Char) :
    Even (backslashes ('\\' :: c :: text)) ↔ Even (backslashes text) := by
  have hle : backslashes text ≤ text.length := by
    have hsublist := (List.takeWhile_sublist (· == '\\') (l := text.reverse)).length_le
    rwa [List.length_reverse] at hsublist
  rw [backslashes_cons, backslashes_cons, List.length_cons]
  by_cases hall : backslashes text = text.length ∧ c = '\\'
  · rw [if_pos hall, if_pos ⟨rfl, rfl⟩, hall.1]
    simp only [Nat.even_add_one, not_not]
  · rw [if_neg hall, if_neg (by omega)]

/-- What a literal can hold ends with backslashes in pairs. -/
theorem Decodes.even_backslashes (h : Decodes body value) : Even (backslashes body) := by
  induction h with
  | nil => exact .zero
  | plain _ hslash _ ih => rwa [backslashes_cons_of_ne hslash]
  | newline _ ih | tab _ ih | escaped _ _ _ ih => rwa [even_backslashes_escape]

theorem cutsAtQuote_of_splitString (h : splitString text = some (body, after)) :
    CutsAtQuote text body after := by
  obtain ⟨htext, hdecodes⟩ := decodes_of_splitString h
  exact ⟨htext, hdecodes.even_backslashes⟩

/-- The split never passes a quote with an even number of backslashes before it. -/
theorem CutsAtQuote.exists_splitString (h : CutsAtQuote text body after) :
    ∃ before rest, splitString text = some (before, rest) ∧ before.length ≤ body.length := by
  obtain ⟨htext, heven⟩ := h
  fun_induction splitString text generalizing body with
  | case1 => simp at htext
  | case2 rest => exact ⟨[], rest, rfl, Nat.zero_le _⟩
  | case3 c text ih =>
    cases body with
    | nil => simp at htext
    | cons d body =>
      cases body with
      | nil =>
        obtain ⟨rfl, -⟩ := List.cons.inj htext
        exact absurd heven (by decide)
      | cons e body =>
        simp only [List.cons_append, List.cons.injEq] at htext
        obtain ⟨rfl, rfl, htext⟩ := htext
        obtain ⟨before, rest, hsplit, hlength⟩ := ih htext ((even_backslashes_escape _ _).1 heven)
        refine ⟨_, rest, by rw [hsplit]; rfl, ?_⟩
        simpa using hlength
  | case4 c text hquote hslash ih =>
    cases body with
    | nil => exact absurd (List.cons.inj htext).1 hquote
    | cons d body =>
      rw [List.cons_append, List.cons.injEq] at htext
      obtain ⟨rfl, htext⟩ := htext
      have hc : c ≠ '\\' := by
        rintro rfl
        cases text with
        | nil => simp at htext
        | cons e text => exact hslash e text rfl rfl
      rw [backslashes_cons_of_ne hc] at heven
      obtain ⟨before, rest, hsplit, hlength⟩ := ih htext heven
      refine ⟨_, rest, by rw [hsplit]; rfl, ?_⟩
      simpa using hlength

theorem splitString_eq_none_iff :
    splitString text = none ↔ ∀ before after, ¬ CutsAtQuote text before after := by
  constructor
  · intro hnone before after hcuts
    obtain ⟨_, _, hsplit, -⟩ := hcuts.exists_splitString
    cases hnone.symm.trans hsplit
  · intro hopen
    rw [Option.eq_none_iff_forall_ne_some]
    exact fun cut hcut => hopen cut.1 cut.2 (cutsAtQuote_of_splitString hcut)

/-- A text is split at the first quote with an even number of backslashes before it. -/
theorem splitString_eq_some_iff :
    splitString text = some (body, after) ↔ CutsAtFirstQuote text body after := by
  constructor
  · intro hsplit
    refine ⟨cutsAtQuote_of_splitString hsplit, fun other rest hother => ?_⟩
    obtain ⟨before, _, hsplit', hlength⟩ := hother.exists_splitString
    obtain ⟨rfl, -⟩ := Prod.mk.inj (Option.some.inj (hsplit.symm.trans hsplit'))
    exact hlength
  · intro h
    obtain ⟨before, rest, hsplit, hlength⟩ := h.toCutsAtQuote.exists_splitString
    have hcuts := cutsAtQuote_of_splitString hsplit
    have hsame : before ++ '"' :: rest = body ++ '"' :: after :=
      hcuts.eq_append.symm.trans h.eq_append
    obtain ⟨rfl, htail⟩ := List.append_inj hsame (hlength.antisymm (h.first _ _ hcuts))
    rw [hsplit, (List.cons.inj htail).2]

theorem splitPiece_of_splitString (h : splitString text = some (body, after)) :
    splitPiece '"' text =
      .ok (⟨'"' :: body ++ ['"'], some (.stringLiteral, .ofList (unescape body))⟩, after) := by
  rw [splitPiece, if_neg (by decide), if_neg (by decide), if_neg (by decide), if_pos rfl, h]

theorem splitPiece_eq_unterminatedString_iff :
    splitPiece '"' text = .error .unterminatedString ↔ splitString text = none := by
  rw [splitPiece, if_neg (by decide), if_neg (by decide), if_neg (by decide), if_pos rfl]
  cases splitString text <;> simp

/-- A text with backslashes before its quotes and backslashes is the spelling of a literal, and is
read back exactly. A literal is never closed if and only if no quote follows an even number of
backslashes. Otherwise it ends at the first such quote, and its value is what stands before it,
decoded from left to right. -/
theorem string_ends_at_first_free_quote :
    (∀ value rest : List Char, splitPiece '"' (quoted value ++ '"' :: rest) =
      .ok (⟨'"' :: quoted value ++ ['"'], some (.stringLiteral, .ofList value)⟩, rest)) ∧
    ∀ text : List Char,
      (splitPiece '"' text = .error .unterminatedString ↔
        ∀ before after, ¬ CutsAtQuote text before after) ∧
      ∀ before after, CutsAtFirstQuote text before after →
        ∃ value, Decodes before value ∧ splitPiece '"' text =
          .ok (⟨'"' :: before ++ ['"'], some (.stringLiteral, .ofList value)⟩, after) := by
  refine ⟨fun value rest => ?_, fun text => ⟨?_, fun before after h => ?_⟩⟩
  · rw [splitPiece_of_splitString (splitString_quoted value rest), unescape_quoted]
  · rw [splitPiece_eq_unterminatedString_iff, splitString_eq_none_iff]
  · have hsplit := splitString_eq_some_iff.2 h
    obtain ⟨-, hdecodes⟩ := decodes_of_splitString hsplit
    exact ⟨unescape before, hdecodes, splitPiece_of_splitString hsplit⟩

/-- The first quote follows three backslashes and does not close the literal. The second follows two
and closes it. Without the second, the literal is never closed. -/
theorem string_ends_at_first_free_quote_threeBackslashes :
    let body := ['a', '\\', '\\', '\\', '"', 'n', '\\', 'n', '\\', '\\']
    let value := ['a', '\\', '"', 'n', '\n', '\\']
    CutsAtFirstQuote (body ++ ['"', ';', '"']) body [';', '"'] ∧
    splitPiece '"' (body ++ ['"', ';', '"']) =
      .ok (⟨'"' :: body ++ ['"'], some (.stringLiteral, .ofList value)⟩, [';', '"']) ∧
    splitPiece '"' body = .error .unterminatedString := by
  intro body value
  have hfirst : CutsAtFirstQuote (body ++ ['"', ';', '"']) body [';', '"'] :=
    splitString_eq_some_iff.1 (by decide)
  refine ⟨hfirst, ?_, ?_⟩
  · obtain ⟨decoded, hdecodes, hpiece⟩ :=
      (string_ends_at_first_free_quote.2 (body ++ ['"', ';', '"'])).2 body _ hfirst
    have hvalue : decoded = value := hdecodes.unescape.symm.trans (by decide)
    rw [hpiece, hvalue]
  · exact (string_ends_at_first_free_quote.2 body).1.2 (splitString_eq_none_iff.1 (by decide))

end TinyPascal.Lexer
