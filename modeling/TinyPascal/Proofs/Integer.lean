import Mathlib.Data.String.Basic
import Mathlib.Tactic
import TinyPascal.Execution.Evaluation
import TinyPascal.Proofs.Text.Numeral

/-!
# Arithmetic on 64 bits

Checked arithmetic gives the exact result if that fits, and nothing otherwise. For sums,
differences, products and opposites this is how they are defined. A quotient is computed by the
division of the machine, which rounds toward zero, and is then corrected; here it is shown to be the
exact quotient rounded toward negative infinity. Comparisons of integers and of texts are those of
their values and of their code points.
-/
namespace TinyPascal

namespace Integer

/-- The value is that of a 64-bit integer. -/
def Fits (n : ℤ) : Prop :=
  -2 ^ 63 ≤ n ∧ n < 2 ^ 63

instance (n : ℤ) : Decidable (Fits n) :=
  inferInstanceAs (Decidable (_ ∧ _))

theorem fits_toInt (a : Integer) : Fits a.toInt :=
  ⟨a.le_toInt, a.toInt_lt⟩

theorem ofInt?_eq_none {n : ℤ} : ofInt? n = none ↔ ¬ Fits n := by
  rw [ofInt?, ite_eq_right_iff, Int64.toInt_minValue, Int64.toInt_maxValue, Fits]
  simp only [reduceCtorEq, imp_false]
  omega

theorem exists_ofInt? {n : ℤ} (h : Fits n) : ∃ a, ofInt? n = some a ∧ a.toInt = n := by
  cases ha : ofInt? n with
  | none => exact absurd h (ofInt?_eq_none.1 ha)
  | some a => exact ⟨a, rfl, ofInt?_eq_some.1 ha⟩

variable {a b : Integer}

theorem toInt_ne_zero : b.toInt ≠ 0 ↔ b ≠ 0 := by
  rw [Ne, ← Int64.toInt_zero, Int64.toInt_inj]

theorem mod_eq_zero_iff : a % b = 0 ↔ b.toInt ∣ a.toInt := by
  rw [← Int64.toInt_inj, Int64.toInt_mod, Int64.toInt_zero, Int.dvd_iff_tmod_eq_zero]

/-- The quotient of the machine is exact up to rounding, except for the one that overflows. -/
theorem toInt_div (h : ¬ (a = Int64.minValue ∧ b = -1)) :
    (a / b).toInt = a.toInt.tdiv b.toInt := by
  by_cases ha : a = Int64.minValue
  · apply Int64.toInt_div_of_ne_right
    tauto
  · exact Int64.toInt_div_of_ne_left a b ha

/-- A quotient with a remainder is far from the limits, since the divisor is at least two. -/
theorem natAbs_tdiv_le (hb : b ≠ 0) (h : ¬ b.toInt ∣ a.toInt) :
    (a.toInt.tdiv b.toInt).natAbs ≤ 2 ^ 62 := by
  have hzero : b.toInt.natAbs ≠ 0 := Int.natAbs_ne_zero.2 (toInt_ne_zero.2 hb)
  have hone : b.toInt.natAbs ≠ 1 := by
    intro hone
    apply h
    rw [← Int.natAbs_dvd_natAbs, hone]
    exact one_dvd _
  have hfits := fits_toInt a
  rw [Fits] at hfits
  have hdividend : a.toInt.natAbs ≤ 2 ^ 63 := by omega
  have hdivisor : 2 ≤ b.toInt.natAbs := by omega
  calc (a.toInt.tdiv b.toInt).natAbs = a.toInt.natAbs / b.toInt.natAbs := Int.natAbs_tdiv _ _
    _ ≤ 2 ^ 63 / 2 := Nat.div_le_div hdividend hdivisor (by decide)
    _ = 2 ^ 62 := by norm_num

theorem toInt_sub_of_fits (h : Fits (a.toInt - b.toInt)) : (a - b).toInt = a.toInt - b.toInt := by
  rw [Fits] at h
  rw [Int64.toInt_sub]
  apply Int.bmod_eq_of_le <;> omega

/-- A quotient with a remainder can be lowered by one. -/
theorem fits_div_sub_one (hb : b ≠ 0) (hlimit : ¬ (a = Int64.minValue ∧ b = -1))
    (h : ¬ b.toInt ∣ a.toInt) : Fits ((a / b).toInt - Int64.toInt 1) := by
  have hfar := natAbs_tdiv_le hb h
  rw [Fits, toInt_div hlimit, Int64.toInt_one]
  omega

/-- A quotient that is rounded toward zero is one too large for that rounded toward negative
infinity if the division leaves a remainder and the operands differ in sign. -/
theorem fdiv_eq_tdiv_sub {m n : ℤ} (hn : n ≠ 0) :
    m.fdiv n = m.tdiv n - if ¬ n ∣ m ∧ ¬ (m < 0 ↔ n < 0) then 1 else 0 := by
  rw [Int.fdiv_eq_tdiv]
  rcases hn.lt_or_gt with hneg | hpos
  · rw [Int.sign_eq_neg_one_of_neg hneg]
    split_ifs <;> omega
  · rw [Int.sign_eq_one_of_pos hpos]
    split_ifs <;> omega

/-- The quotient is the exact one, rounded toward negative infinity, if that fits. -/
theorem floorDiv?_eq (hb : b ≠ 0) : a.floorDiv? b = ofInt? (a.toInt.fdiv b.toInt) := by
  by_cases hlimit : a = Int64.minValue ∧ b = -1
  · obtain ⟨rfl, rfl⟩ := hlimit
    decide
  · have hsign : decide (a < 0) ≠ decide (b < 0) ↔ ¬ (a.toInt < 0 ↔ b.toInt < 0) := by
      rw [Ne, decide_eq_decide, Int64.lt_iff_toInt_lt, Int64.lt_iff_toInt_lt, Int64.toInt_zero]
    rw [floorDiv?, if_neg (by tauto), fdiv_eq_tdiv_sub (toInt_ne_zero.2 hb), eq_comm]
    simp only [hsign, ne_eq, mod_eq_zero_iff]
    split_ifs with hcorrect
    · have hfits := fits_div_sub_one hb hlimit hcorrect.1
      rw [ofInt?_eq_some, toInt_sub_of_fits hfits, toInt_div hlimit, Int64.toInt_one]
    · rw [ofInt?_eq_some, sub_zero, toInt_div hlimit]

end Integer

namespace RelationalOp

/-- Whether the relation that an operator stands for holds in a linear order. -/
def relates {α : Type} [LinearOrder α] : RelationalOp → α → α → Bool
  | eq, a, b => a = b
  | ne, a, b => a ≠ b
  | lt, a, b => a < b
  | le, a, b => a ≤ b
  | gt, a, b => b < a
  | ge, a, b => b ≤ a

/-- Values that are compared as their images in a linear order are related as these. -/
theorem holds_compareOfLessAndEq {α β : Type} [LT α] [DecidableLT α] [DecidableEq α]
    [LinearOrder β] {f : α → β} {a b : α} (hlt : a < b ↔ f a < f b) (heq : a = b ↔ f a = f b)
    (op : RelationalOp) : op.holds (compareOfLessAndEq a b) = op.relates (f a) (f b) := by
  change op.holds (if a < b then .lt else if a = b then .eq else .gt) = _
  simp only [hlt, heq]
  rcases lt_trichotomy (f a) (f b) with h | h | h
  · cases op <;> simp [holds, relates, h, h.le, h.ne, h.not_ge, h.not_gt]
  · cases op <;> simp [holds, relates, h]
  · cases op <;> simp [holds, relates, h, h.le, h.ne', h.not_ge, h.not_gt]

theorem holds_compare_integer (op : RelationalOp) (a b : Integer) :
    op.holds (compare a b) = op.relates a.toInt b.toInt :=
  op.holds_compareOfLessAndEq Int64.lt_iff_toInt_lt Int64.toInt_inj.symm

end RelationalOp

namespace Text

def codePoints (text : String) : List ℕ :=
  text.toList.map Char.toNat

theorem map_toNat_lt {a b : List Char} : a < b ↔ a.map Char.toNat < b.map Char.toNat := by
  induction a generalizing b with
  | nil => cases b <;> simp
  | cons c a ih =>
    cases b with
    | nil => simp
    | cons d b =>
      simp only [List.map_cons, List.cons_lt_cons_iff, ih]
      rw [Char.toNat_inj]
      rfl

theorem lt_iff_codePoints_lt {a b : String} : a < b ↔ codePoints a < codePoints b := by
  rw [String.lt_iff_toList_lt, codePoints, codePoints, map_toNat_lt]

theorem eq_iff_codePoints_eq {a b : String} : a = b ↔ codePoints a = codePoints b := by
  rw [codePoints, codePoints, List.map_inj_right (by simp [Char.toNat_inj]), String.toList_inj]

end Text

theorem RelationalOp.holds_compare_string (op : RelationalOp) (a b : String) :
    op.holds (compare a b) = op.relates (Text.codePoints a) (Text.codePoints b) :=
  op.holds_compareOfLessAndEq Text.lt_iff_codePoints_lt Text.eq_iff_codePoints_eq

end TinyPascal
