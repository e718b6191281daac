import Mathlib.Algebra.Order.Floor.Ring
import Mathlib.Data.Rat.Floor
import TinyPascal.Proofs.Integer

/-!
# Division at the limits

A quotient that is rounded toward negative infinity leaves a remainder with the sign of the divisor.
Division gives this quotient whenever an integer has its value, and there is none only for a divisor
of zero and for the least integer divided by minus one. The machine divides toward zero, and its
remainder and the correction of its quotient are not checked. They need no check: division comes
out the same on every machine that computes what fits, whatever it does where a result overflows.
-/
namespace TinyPascal

/-- `RoundsDown l r q m`: the divisor `r` goes `q` times into `l` and leaves `m`, which is zero or
has the sign of the divisor, and is smaller than it in absolute value. -/
structure RoundsDown (l r q m : ℤ) : Prop where
  eq_mul_add : l = q * r + m
  sign_eq : m = 0 ∨ m.sign = r.sign
  abs_lt : |m| < |r|

section RoundsDown

variable {l r q m : ℤ}

theorem RoundsDown.ne_zero (h : RoundsDown l r q m) : r ≠ 0 :=
  abs_pos.1 ((abs_nonneg m).trans_lt h.abs_lt)

/-- With a positive divisor the remainder counts up from zero. -/
theorem roundsDown_iff_of_pos (hr : 0 < r) :
    RoundsDown l r q m ↔ l = q * r + m ∧ 0 ≤ m ∧ m < r := by
  have hsign : m = 0 ∨ m.sign = r.sign ↔ 0 ≤ m := by
    rw [Int.sign_eq_one_of_pos hr, Int.sign_eq_one_iff_pos]
    omega
  have habs (hm : 0 ≤ m) : |m| < |r| ↔ m < r := by rw [abs_of_nonneg hm, abs_of_pos hr]
  constructor
  · intro h
    have hm := hsign.1 h.sign_eq
    exact ⟨h.eq_mul_add, hm, (habs hm).1 h.abs_lt⟩
  · rintro ⟨heq, hm, hlt⟩
    exact ⟨heq, hsign.2 hm, (habs hm).2 hlt⟩

/-- If both operands change their sign, the remainder changes it too and the quotient stays. -/
theorem RoundsDown.neg (h : RoundsDown l r q m) : RoundsDown (-l) (-r) q (-m) where
  eq_mul_add := by rw [h.eq_mul_add, neg_add, mul_neg]
  sign_eq := by
    rw [neg_eq_zero, Int.sign_neg, Int.sign_neg, neg_inj]
    exact h.sign_eq
  abs_lt := by
    rw [abs_neg, abs_neg]
    exact h.abs_lt

/-- The quotient is the floor of the exact one. Both stay if both operands change their sign, so the
divisor may be taken as positive. -/
theorem RoundsDown.eq_floor (h : RoundsDown l r q m) : q = ⌊(l : ℚ) / r⌋ := by
  wlog hr : 0 < r generalizing l r m
  · have hne := h.ne_zero
    have hneg := this h.neg (by omega)
    rwa [Int.cast_neg, Int.cast_neg, neg_div_neg_eq] at hneg
  · obtain ⟨rfl, hm, hlt⟩ := (roundsDown_iff_of_pos hr).1 h
    have hr' : (0 : ℚ) < r := Int.cast_pos.2 hr
    rw [eq_comm, Int.floor_eq_iff, le_div_iff₀ hr', div_lt_iff₀ hr']
    constructor
    · exact_mod_cast (by omega : q * r ≤ q * r + m)
    · exact_mod_cast (by rw [add_one_mul]; omega : q * r + m < (q + 1) * r)

theorem roundsDown_fdiv (l : ℤ) (hr : r ≠ 0) : RoundsDown l r (l.fdiv r) (l.fmod r) := by
  wlog hpos : 0 < r generalizing l r
  · have hneg := (this (-l) (neg_ne_zero.2 hr) (by omega)).neg
    rwa [Int.neg_fdiv_neg, Int.neg_fmod_neg, neg_neg, neg_neg, neg_neg] at hneg
  · rw [roundsDown_iff_of_pos hpos]
    exact ⟨(Int.fdiv_mul_add_fmod l r).symm, Int.fmod_nonneg_of_pos l hpos,
      Int.fmod_lt_of_pos l hpos⟩

end RoundsDown

namespace Integer

variable {a b q : Integer}

/-- Division gives the integer that is the quotient rounded toward negative infinity, and gives none
only if there is no such integer. -/
theorem floorDiv?_eq_some_iff :
    a.floorDiv? b = some q ↔ ∃ m, RoundsDown a.toInt b.toInt q.toInt m := by
  by_cases hb : b = 0
  · subst hb
    refine ⟨nofun, ?_⟩
    rintro ⟨m, h⟩
    exact absurd Int64.toInt_zero h.ne_zero
  · have hdown := roundsDown_fdiv a.toInt (toInt_ne_zero.2 hb)
    rw [floorDiv?_eq hb, ofInt?_eq_some]
    constructor
    · intro h
      exact ⟨_, h ▸ hdown⟩
    · rintro ⟨m, h⟩
      exact h.eq_floor.trans hdown.eq_floor.symm

theorem floorDiv?_eq_none_iff :
    a.floorDiv? b = none ↔ b = 0 ∨ (a = Int64.minValue ∧ b = -1) := by
  constructor
  · intro h
    by_contra hguard
    rw [floorDiv?, if_neg hguard] at h
    split_ifs at h
  · exact fun hguard => if_pos hguard

inductive Instruction where
  | div
  | rem
  | sub
deriving DecidableEq, Repr

namespace Instruction

/-- The result in a word. What does not fit wraps around. -/
def word : Instruction → Integer → Integer → Integer
  | div, a, b => a / b
  | rem, a, b => a % b
  | sub, a, b => a - b

/-- The result without bounds. Quotients are rounded toward zero. -/
def exact : Instruction → ℤ → ℤ → ℤ
  | div, a, b => a.tdiv b
  | rem, a, b => a.tmod b
  | sub, a, b => a - b

/-- The operands on which an instruction fails. A remainder is computed along with its quotient and
overflows if that does, although it would fit itself. -/
def Overflows : Instruction → Integer → Integer → Prop
  | div, a, b | rem, a, b => b = 0 ∨ ¬ Fits (div.exact a.toInt b.toInt)
  | sub, a, b => ¬ Fits (sub.exact a.toInt b.toInt)

instance (i : Instruction) (a b : Integer) : Decidable (i.Overflows a b) :=
  match i with
  | div | rem => inferInstanceAs (Decidable (_ ∨ _))
  | sub => inferInstanceAs (Decidable (¬ _))

/-- What overflows is what division is guarded against. -/
theorem overflows_div_iff : div.Overflows a b ↔ b = 0 ∨ (a = Int64.minValue ∧ b = -1) := by
  refine or_congr_right ⟨?_, ?_⟩
  · intro h
    by_contra hlimit
    apply h
    rw [exact, ← toInt_div hlimit]
    exact fits_toInt (a / b)
  · rintro ⟨rfl, rfl⟩
    decide

theorem overflows_rem_iff : rem.Overflows a b ↔ b = 0 ∨ (a = Int64.minValue ∧ b = -1) :=
  overflows_div_iff

example : rem.Overflows Int64.minValue (-1) ∧ Fits (rem.exact (-2 ^ 63) (-1)) := by decide

/-- The correction of a quotient does not overflow. -/
theorem not_overflows_sub_one (hguard : ¬ (b = 0 ∨ (a = Int64.minValue ∧ b = -1)))
    (hrem : a % b ≠ 0) : ¬ sub.Overflows (a / b) 1 := by
  rw [not_or] at hguard
  exact not_not.2 (fits_div_sub_one hguard.1 hguard.2 (mt mod_eq_zero_iff.2 hrem))

/-- A word holds the exact result if nothing overflows. -/
theorem toInt_word {i : Instruction} (h : ¬ i.Overflows a b) :
    (i.word a b).toInt = i.exact a.toInt b.toInt := by
  cases i with
  | div => exact toInt_div fun hlimit => h (overflows_div_iff.2 (.inr hlimit))
  | rem => exact Int64.toInt_mod a b
  | sub => exact toInt_sub_of_fits (not_not.1 h)

end Instruction

/-- A way to execute instructions, with the effects of `m`. -/
abbrev Machine (m : Type → Type) :=
  Instruction → Integer → Integer → m Integer

namespace Machine

def wrapping : Machine Id :=
  fun i a b => i.word a b

/-- The machine that stops with the instruction that overflows. -/
def trapping : Machine (Except Instruction) :=
  fun i a b => if i.Overflows a b then .error i else .ok (i.word a b)

variable {m : Type → Type} [Monad m]

/-- The machine gives the exact result of every instruction that does not overflow. -/
def IsSound (machine : Machine m) : Prop :=
  ∀ (i : Instruction) (a b c : Integer), ¬ i.Overflows a b → c.toInt = i.exact a.toInt b.toInt →
    machine i a b = pure c

theorem isSound_of_word {machine : Machine m}
    (h : ∀ (i : Instruction) (a b : Integer), ¬ i.Overflows a b →
      machine i a b = pure (i.word a b)) : machine.IsSound := by
  intro i a b c hover hc
  obtain rfl : i.word a b = c := Int64.toInt_inj.1 ((Instruction.toInt_word hover).trans hc.symm)
  exact h i a b hover

theorem isSound_wrapping : wrapping.IsSound :=
  isSound_of_word fun _ _ _ _ => rfl

theorem isSound_trapping : trapping.IsSound :=
  isSound_of_word fun _ _ _ hover => if_neg hover

/-- Division as the machine executes it. The quotient is guarded, and the remainder and the
correction are not. -/
def floorDiv? (machine : Machine m) (a b : Integer) : m (Option Integer) :=
  if b = 0 ∨ (a = Int64.minValue ∧ b = -1) then pure none
  else do
    let quotient ← machine .div a b
    let remainder ← machine .rem a b
    if remainder ≠ 0 ∧ decide (a < 0) ≠ decide (b < 0) then
      some <$> machine .sub quotient 1
    else
      pure (some quotient)

/-- Division is the same on all sound machines, so no instruction that it executes overflows. -/
theorem IsSound.floorDiv?_eq [LawfulMonad m] {machine : Machine m} (h : machine.IsSound)
    (a b : Integer) : machine.floorDiv? a b = pure (a.floorDiv? b) := by
  have hword {i : Instruction} {a b : Integer} (hover : ¬ i.Overflows a b) :
      machine i a b = pure (i.word a b) := h i a b _ hover (Instruction.toInt_word hover)
  rw [floorDiv?, Integer.floorDiv?]
  by_cases hguard : b = 0 ∨ (a = Int64.minValue ∧ b = -1)
  · rw [if_pos hguard, if_pos hguard]
  · -- The guard is what the first two instructions need, and the correction needs the remainder.
    have hdiv : machine .div a b = pure (a / b) := hword (mt Instruction.overflows_div_iff.1 hguard)
    have hrem : machine .rem a b = pure (a % b) := hword (mt Instruction.overflows_rem_iff.1 hguard)
    rw [if_neg hguard, if_neg hguard, hdiv, pure_bind, hrem, pure_bind]
    by_cases hcorrect : a % b ≠ 0 ∧ decide (a < 0) ≠ decide (b < 0)
    · have hsub : machine .sub (a / b) 1 = pure (a / b - 1) :=
        hword (Instruction.not_overflows_sub_one hguard hcorrect.1)
      rw [if_pos hcorrect, if_pos hcorrect, hsub, map_pure]
    · rw [if_neg hcorrect, if_neg hcorrect]

end Machine

/-- Division up to its limits. There is no quotient exactly if the divisor is zero or the least
integer is divided by minus one. Otherwise it is the floor of the exact quotient, with a remainder
that is zero or has the sign of the divisor. A machine that stops at the first overflow divides like
one that wraps around, so neither the remainder nor the correction ever overflows. -/
theorem division_is_exact_up_to_limits (l r : Integer) :
    (l.floorDiv? r = none ↔ r.toInt = 0 ∨ (l.toInt = -2 ^ 63 ∧ r.toInt = -1)) ∧
    (¬ (r.toInt = 0 ∨ (l.toInt = -2 ^ 63 ∧ r.toInt = -1)) → ∃ (q : Integer) (m : ℤ),
      l.floorDiv? r = some q ∧ q.toInt = ⌊(l.toInt : ℚ) / r.toInt⌋ ∧
        RoundsDown l.toInt r.toInt q.toInt m) ∧
    Machine.wrapping.floorDiv? l r = pure (l.floorDiv? r) ∧
    Machine.trapping.floorDiv? l r = .ok (l.floorDiv? r) := by
  have hnone : l.floorDiv? r = none ↔ r.toInt = 0 ∨ (l.toInt = -2 ^ 63 ∧ r.toInt = -1) := by
    rw [floorDiv?_eq_none_iff, ← Int64.toInt_inj, ← Int64.toInt_inj, ← Int64.toInt_inj,
      Int64.toInt_zero, Int64.toInt_minValue]
    rfl
  refine ⟨hnone, ?_, Machine.isSound_wrapping.floorDiv?_eq l r,
    Machine.isSound_trapping.floorDiv?_eq l r⟩
  intro hlimit
  obtain ⟨q, hq⟩ := Option.ne_none_iff_exists'.1 (mt hnone.1 hlimit)
  obtain ⟨m, hm⟩ := floorDiv?_eq_some_iff.1 hq
  exact ⟨q, m, hq, hm.eq_floor, hm⟩

/-- Half of the least integer but one. No quotient that has to be corrected is lower. -/
theorem division_is_exact_up_to_limits_half :
    (∃ (q : Integer) (m : ℤ), floorDiv? (-9223372036854775807) 2 = some q ∧
      q.toInt = ⌊(Int64.toInt (-9223372036854775807) : ℚ) / Int64.toInt 2⌋ ∧
        RoundsDown (Int64.toInt (-9223372036854775807)) (Int64.toInt 2) q.toInt m) ∧
    Machine.trapping.floorDiv? (-9223372036854775807) 2 = .ok (some (-4611686018427387904)) := by
  obtain ⟨-, hfloor, -, htrapping⟩ := division_is_exact_up_to_limits (-9223372036854775807) 2
  refine ⟨hfloor (by decide), htrapping.trans ?_⟩
  decide

end Integer

end TinyPascal
