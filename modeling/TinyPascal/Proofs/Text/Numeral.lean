import Mathlib.Tactic
import TinyPascal.Integer

/-!
# Numerals and the integers they stand for

An integer has a value if and only if the value fits, and the decimal numeral of an integer is read
back as that integer.
-/
namespace TinyPascal

namespace Integer

theorem ofInt?_eq_some {n : ℤ} {a : Integer} : ofInt? n = some a ↔ a.toInt = n := by
  unfold ofInt?
  constructor
  · intro h
    split_ifs at h with hn
    rw [Int64.toInt_minValue, Int64.toInt_maxValue] at hn
    rw [← Option.some.inj h]
    exact Int64.toInt_ofInt_of_le hn.1 (by omega)
  · rintro rfl
    rw [if_pos ⟨a.minValue_le_toInt, a.toInt_le⟩, Int64.ofInt_toInt]

end Integer

namespace Text

theorem decimalValue_decimalDigits (n : ℕ) : decimalValue (decimalDigits n) = n :=
  Nat.ofDigitChars_ten_toDigits

theorem isDigit_of_mem_decimalDigits {n : ℕ} {c : Char} (h : c ∈ decimalDigits n) :
    c.isDigit = true :=
  Nat.isDigit_of_mem_toDigits (by decide) (by decide) h

theorem decimalDigits_ne_nil (n : ℕ) : decimalDigits n ≠ [] :=
  Nat.toDigits_ne_nil

theorem decimalValue?_decimalDigits (n : ℕ) : decimalValue? (decimalDigits n) = some n := by
  have hall : (decimalDigits n).all Char.isDigit = true := by
    rw [List.all_eq_true]
    exact fun c hc => isDigit_of_mem_decimalDigits hc
  rw [decimalValue?, if_pos ⟨decimalDigits_ne_nil n, hall⟩, decimalValue_decimalDigits]

end Text

namespace Integer

/-- A text of digits is read without regard to signs. -/
theorem ofText?_of_isDigit {text : String} (h : ∀ c ∈ text.toList, c.isDigit = true) :
    ofText? text = (Text.decimalValue? text.toList).bind fun n => ofInt? n := by
  unfold ofText?
  split
  · next digits hd =>
    have := h '-' (by simp [hd])
    simp at this
  · next digits hd =>
    have := h '+' (by simp [hd])
    simp at this
  · rfl

theorem nonneg_of_ofText? {text : String} {a : Integer}
    (hdigits : ∀ c ∈ text.toList, c.isDigit = true) (h : ofText? text = some a) :
    0 ≤ a.toInt := by
  rw [ofText?_of_isDigit hdigits] at h
  obtain ⟨n, -, ha⟩ := Option.bind_eq_some_iff.1 h
  rw [ofInt?_eq_some.1 ha]
  omega

/-- The numeral of an integer that is not negative is a run of digits. -/
theorem toList_text_of_nonneg {a : Integer} (h : 0 ≤ a.toInt) :
    a.text.toList = Text.decimalDigits a.toInt.toNat := by
  unfold text
  obtain ⟨n, hn⟩ := Int.eq_ofNat_of_zero_le h
  rw [hn]
  exact String.toList_ofList

theorem ofText?_text_of_nonneg {a : Integer} (h : 0 ≤ a.toInt) : ofText? a.text = some a := by
  have hlist := toList_text_of_nonneg h
  rw [ofText?_of_isDigit, hlist, Text.decimalValue?_decimalDigits, Option.bind_some,
    ofInt?_eq_some]
  · omega
  · intro c hc
    rw [hlist] at hc
    exact Text.isDigit_of_mem_decimalDigits hc

end Integer

end TinyPascal
