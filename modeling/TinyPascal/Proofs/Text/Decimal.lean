import Mathlib.Data.Nat.Digits.Defs
import TinyPascal.Proofs.Integer
import TinyPascal.Proofs.Token.Lexing

/-!
# Numerals with signs and blanks

A numeral is an optional sign and a run of decimal digits, and any number of zeros may stand in
front. A text is read as the integer that its numeral stands for, if that fits into 64 bits, and
blanks around the numeral do not count. The text of every integer is such a numeral, the least
integer included.
-/
namespace TinyPascal

namespace Text

/-- The value of a run of decimal digits, each digit taken by its place. -/
def placeValue (digits : List Char) : ℕ :=
  Nat.ofDigits 10 (digits.reverse.map fun c => c.toNat - '0'.toNat)

structure IsDigits (text : List Char) : Prop where
  ne_nil : text ≠ []
  isDigit : ∀ c ∈ text, c.isDigit = true

/-- `IsNumeral text value`: an optional sign and digits that stand for `value`, which may be of any
size. -/
inductive IsNumeral : List Char → ℤ → Prop where
  | unsigned {digits : List Char} (h : IsDigits digits) : IsNumeral digits (placeValue digits)
  | plus {digits : List Char} (h : IsDigits digits) : IsNumeral ('+' :: digits) (placeValue digits)
  | minus {digits : List Char} (h : IsDigits digits) :
      IsNumeral ('-' :: digits) (-(placeValue digits : ℤ))

/-- A line holds a numeral and nothing else but blanks. -/
def HoldsNumeral (line : String) (value : ℤ) : Prop :=
  ∃ before numeral after : List Char, line.toList = before ++ numeral ++ after ∧
    (∀ c ∈ before, isBlank c = true) ∧ (∀ c ∈ after, isBlank c = true) ∧ IsNumeral numeral value

/-- Reading digits from left to right gives each its place. -/
theorem decimalValue_eq_placeValue (digits : List Char) :
    decimalValue digits = placeValue digits := by
  induction digits using List.reverseRecOn with
  | nil => rfl
  | append_singleton digits c ih =>
    have hlast : decimalValue (digits ++ [c]) =
        10 * decimalValue digits + (c.toNat - '0'.toNat) := List.foldl_concat ..
    rw [hlast, ih, placeValue, placeValue, List.reverse_append, List.reverse_singleton,
      List.singleton_append, List.map_cons, Nat.ofDigits_cons]
    omega

theorem decimalValue?_eq_some_iff {text : List Char} {n : ℕ} :
    decimalValue? text = some n ↔ IsDigits text ∧ placeValue text = n := by
  rw [decimalValue?, decimalValue_eq_placeValue, Option.ite_none_right_eq_some, Option.some_inj,
    List.all_eq_true]
  exact and_congr_left fun _ => ⟨fun h => ⟨h.1, h.2⟩, fun h => ⟨h.ne_nil, h.isDigit⟩⟩

theorem isNumeral_minus_iff {digits : List Char} {value : ℤ} :
    IsNumeral ('-' :: digits) value ↔ IsDigits digits ∧ value = -(placeValue digits : ℤ) := by
  constructor
  · intro h
    cases h with
    | unsigned h => exact absurd (h.isDigit '-' List.mem_cons_self) (by decide)
    | minus h => exact ⟨h, rfl⟩
  · rintro ⟨h, rfl⟩
    exact .minus h

theorem isNumeral_plus_iff {digits : List Char} {value : ℤ} :
    IsNumeral ('+' :: digits) value ↔ IsDigits digits ∧ value = placeValue digits := by
  constructor
  · intro h
    cases h with
    | unsigned h => exact absurd (h.isDigit '+' List.mem_cons_self) (by decide)
    | plus h => exact ⟨h, rfl⟩
  · rintro ⟨h, rfl⟩
    exact .plus h

theorem isNumeral_iff_of_unsigned {text : List Char} {value : ℤ}
    (hminus : ∀ digits, text ≠ '-' :: digits) (hplus : ∀ digits, text ≠ '+' :: digits) :
    IsNumeral text value ↔ IsDigits text ∧ value = placeValue text := by
  constructor
  · intro h
    cases h with
    | unsigned h => exact ⟨h, rfl⟩
    | plus _ => exact absurd rfl (hplus _)
    | minus _ => exact absurd rfl (hminus _)
  · rintro ⟨h, rfl⟩
    exact .unsigned h

theorem isDigits_decimalDigits (n : ℕ) : IsDigits (decimalDigits n) :=
  ⟨decimalDigits_ne_nil n, fun _ hc => isDigit_of_mem_decimalDigits hc⟩

theorem placeValue_decimalDigits (n : ℕ) : placeValue (decimalDigits n) = n := by
  rw [← decimalValue_eq_placeValue, decimalValue_decimalDigits]

end Text

namespace Integer

open Text

theorem decimalValue?_bind_ofInt?_eq_some_iff {digits : List Char} {value : ℕ → ℤ} {n : Integer} :
    ((decimalValue? digits).bind fun m => ofInt? (value m)) = some n ↔
      IsDigits digits ∧ n.toInt = value (placeValue digits) := by
  simp only [Option.bind_eq_some_iff, decimalValue?_eq_some_iff, ofInt?_eq_some, and_assoc,
    exists_and_left, exists_eq_left']

/-- A text is read as the integer that its numeral stands for. There is none if the text is no
numeral, or if the value of the numeral does not fit. -/
theorem ofText?_eq_some_iff {text : String} {n : Integer} :
    ofText? text = some n ↔ IsNumeral text.toList n.toInt := by
  unfold ofText?
  split
  · next digits hdigits =>
    rw [hdigits, isNumeral_minus_iff, decimalValue?_bind_ofInt?_eq_some_iff]
  · next digits hdigits =>
    rw [hdigits, isNumeral_plus_iff, decimalValue?_bind_ofInt?_eq_some_iff]
  · next hminus hplus =>
    rw [isNumeral_iff_of_unsigned hminus hplus, decimalValue?_bind_ofInt?_eq_some_iff]

theorem isNumeral_text (n : Integer) : IsNumeral n.text.toList n.toInt := by
  rcases le_or_gt 0 n.toInt with hn | hn
  · have hvalue : n.toInt = placeValue (decimalDigits n.toInt.toNat) := by
      rw [placeValue_decimalDigits]
      omega
    rw [toList_text_of_nonneg hn]
    nth_rewrite 2 [hvalue]
    exact .unsigned (isDigits_decimalDigits _)
  · obtain ⟨m, hm⟩ := Int.eq_negSucc_of_lt_zero hn
    have htext : n.text.toList = '-' :: decimalDigits (m + 1) := by
      rw [text, hm]
      simp [decimal]
    rw [htext, isNumeral_minus_iff, placeValue_decimalDigits, hm]
    exact ⟨isDigits_decimalDigits _, rfl⟩

end Integer

namespace Text

theorem IsDigits.not_isBlank {digits : List Char} (h : IsDigits digits) :
    ∀ c ∈ digits, isBlank c = false :=
  fun c hc => Lexer.isBlank_eq_false_of_isDigit (h.isDigit c hc)

theorem IsNumeral.ne_nil {text : List Char} {value : ℤ} (h : IsNumeral text value) : text ≠ [] := by
  cases h with
  | unsigned h => exact h.ne_nil
  | plus _ | minus _ => exact List.cons_ne_nil _ _

theorem IsNumeral.not_isBlank {text : List Char} {value : ℤ} (h : IsNumeral text value) :
    ∀ c ∈ text, isBlank c = false := by
  cases h with
  | unsigned h => exact h.not_isBlank
  | plus h | minus h => exact List.forall_mem_cons.2 ⟨by decide, h.not_isBlank⟩

theorem dropWhile_isBlank_append {before middle : List Char} (rest : List Char)
    (hbefore : ∀ c ∈ before, isBlank c = true) (hne : middle ≠ [])
    (hmiddle : ∀ c ∈ middle, isBlank c = false) :
    (before ++ (middle ++ rest)).dropWhile isBlank = middle ++ rest := by
  rw [List.dropWhile_append_of_pos hbefore]
  cases middle with
  | nil => exact absurd rfl hne
  | cons c middle =>
    rw [List.cons_append, List.dropWhile_cons_of_neg (by simp [hmiddle c List.mem_cons_self])]

/-- A part without blanks is what is left of a text with blanks around it. -/
theorem toList_trim {line : String} {before middle after : List Char}
    (hline : line.toList = before ++ middle ++ after) (hbefore : ∀ c ∈ before, isBlank c = true)
    (hafter : ∀ c ∈ after, isBlank c = true) (hne : middle ≠ [])
    (hmiddle : ∀ c ∈ middle, isBlank c = false) : (trim line).toList = middle := by
  have hback : (after.reverse ++ (middle.reverse ++ [])).dropWhile isBlank = middle.reverse ++ [] :=
    dropWhile_isBlank_append [] (by simpa using hafter) (List.reverse_ne_nil_iff.2 hne)
      (by simpa using hmiddle)
  rw [List.append_nil] at hback
  rw [trim, String.toList_ofList, hline, List.append_assoc,
    dropWhile_isBlank_append after hbefore hne hmiddle, List.reverse_append, hback,
    List.reverse_reverse]

/-- What is left of a text without the blanks at its ends stands between blanks. -/
theorem exists_toList_eq_trim (line : String) : ∃ before after : List Char,
    line.toList = before ++ (trim line).toList ++ after ∧
      (∀ c ∈ before, isBlank c = true) ∧ ∀ c ∈ after, isBlank c = true := by
  refine ⟨line.toList.takeWhile isBlank,
    ((line.toList.dropWhile isBlank).reverse.takeWhile isBlank).reverse, ?_,
    fun c hc => List.mem_takeWhile_imp hc, fun c hc => ?_⟩
  · rw [trim, String.toList_ofList, List.append_assoc, ← List.reverse_append,
      List.takeWhile_append_dropWhile, List.reverse_reverse, List.takeWhile_append_dropWhile]
  · exact List.mem_takeWhile_imp (List.mem_reverse.1 hc)

/-- A line holds a numeral if the numeral is left without the blanks around it. -/
theorem holdsNumeral_iff {line : String} {value : ℤ} :
    HoldsNumeral line value ↔ IsNumeral (trim line).toList value := by
  constructor
  · rintro ⟨before, numeral, after, hline, hbefore, hafter, h⟩
    rwa [toList_trim hline hbefore hafter h.ne_nil h.not_isBlank]
  · intro h
    obtain ⟨before, after, hline, hbefore, hafter⟩ := exists_toList_eq_trim line
    exact ⟨before, _, after, hline, hbefore, hafter, h⟩

end Text

end TinyPascal
