import Mathlib.Tactic
import TinyPascal.Text.Escaped

/-!
# Escaped text can be read back

The escaped forms of characters are a prefix code: at the head of a text, such a form determines the
character and where the form ends, whether or not a character stands before it. No form starts with
a quote, so a text in quotes determines what is quoted and where the quotation ends. No form holds a
line feed.
-/
namespace TinyPascal.Text

/-- What stands before the first stop is determined, and so is the rest. -/
theorem append_inj_of_stops {α : Type} {Stops : α → Prop} {xs ys us vs : List α}
    (hxs : ∀ a ∈ xs, ¬ Stops a) (hys : ∀ a ∈ ys, ¬ Stops a) (hus : ∀ a ∈ us.head?, Stops a)
    (hvs : ∀ a ∈ vs.head?, Stops a) (h : xs ++ us = ys ++ vs) : xs = ys ∧ us = vs := by
  induction xs generalizing ys with
  | nil =>
    cases ys with
    | nil => exact ⟨rfl, h⟩
    | cons b ys =>
      obtain rfl : us = b :: (ys ++ vs) := h
      exact absurd (hus b rfl) (hys b List.mem_cons_self)
  | cons a xs ih =>
    cases ys with
    | nil =>
      obtain rfl : a :: (xs ++ us) = vs := h
      exact absurd (hvs a rfl) (hxs a List.mem_cons_self)
    | cons b ys =>
      obtain ⟨rfl, hrest⟩ := List.cons.inj h
      obtain ⟨rfl, rfl⟩ := ih (fun c hc => hxs c (List.mem_cons_of_mem _ hc))
        (fun c hc => hys c (List.mem_cons_of_mem _ hc)) hrest
      exact ⟨rfl, rfl⟩

theorem digitChar_inj {m n : ℕ} (hm : m < 16) (hn : n < 16)
    (h : Nat.digitChar m = Nat.digitChar n) : m = n :=
  (by decide : ∀ m < 16, ∀ n < 16, Nat.digitChar m = Nat.digitChar n → m = n) m hm n hn h

theorem toDigits_sixteen_inj {m n : ℕ} (h : Nat.toDigits 16 m = Nat.toDigits 16 n) : m = n := by
  induction m using Nat.strong_induction_on generalizing n with
  | _ m ih =>
    rw [Nat.toDigits_eq_if (by decide), Nat.toDigits_eq_if (n := n) (by decide)] at h
    split_ifs at h with hm hn hn
    · exact digitChar_inj hm hn (List.singleton_inj.1 h)
    · have hlength := congrArg List.length h
      simp at hlength
    · have hlength := congrArg List.length h
      simp at hlength
    · obtain ⟨hinit, hlast⟩ := List.append_inj' h rfl
      have hquotient := ih (m / 16) (by omega) hinit
      have hremainder := digitChar_inj (Nat.mod_lt m (by decide)) (Nat.mod_lt n (by decide))
        (List.singleton_inj.1 hlast)
      omega

theorem notMem_toDigits_sixteen {c : Char} (hc : ∀ n, Nat.digitChar n ≠ c) (n : ℕ) :
    c ∉ Nat.toDigits 16 n := by
  induction n using Nat.strong_induction_on with
  | _ n ih =>
    rw [Nat.toDigits_eq_if (by decide)]
    split_ifs with hn
    · simpa using (hc n).symm
    · rw [List.mem_append, List.mem_singleton, not_or]
      exact ⟨ih (n / 16) (by omega), (hc _).symm⟩

/-- The sign that stands for a character after a backslash. -/
def mnemonic? : Char → Option Char
  | '\x00' => some '0'
  | '\t' => some 't'
  | '\r' => some 'r'
  | '\n' => some 'n'
  | '\\' => some '\\'
  | '\'' => some '\''
  | '"' => some '"'
  | _ => none

/-- The forms that a character can have in an escaped text. -/
inductive Escaped : Char → List Char → Prop where
  | plain {c : Char} (h : mnemonic? c = none) : Escaped c [c]
  | mnemonic {c d : Char} (h : mnemonic? c = some d) : Escaped c ['\\', d]
  | codePoint (c : Char) : Escaped c (codePointEscape c)

theorem escaped_escapeChar (alone : Bool) (c : Char) : Escaped c (escapeChar alone c) := by
  unfold escapeChar
  split
  all_goals try exact .mnemonic rfl
  split_ifs
  · exact .codePoint c
  · refine .plain ?_
    unfold mnemonic?
    split <;> first | rfl | contradiction

def ofMnemonic : Char → Char
  | '0' => '\x00'
  | 't' => '\t'
  | 'r' => '\r'
  | 'n' => '\n'
  | d => d

/-- A sign is read back, and is not the one that starts a code point. -/
theorem ofMnemonic_of_mnemonic? {c d : Char} (h : mnemonic? c = some d) :
    ofMnemonic d = c ∧ d ≠ 'u' := by
  unfold mnemonic? at h
  split at h <;> cases h <;> exact ⟨rfl, by decide⟩

theorem codePointEscape_eq (c : Char) :
    codePointEscape c = '\\' :: 'u' :: '\x7b' :: (Nat.toDigits 16 c.toNat ++ ['\x7d']) := rfl

namespace Escaped

variable {c d : Char} {xs ys u v : List Char}

/-- The form of a character at the head of a text determines the character and what follows. -/
theorem append_inj (hc : Escaped c xs) (hd : Escaped d ys) (h : xs ++ u = ys ++ v) :
    c = d ∧ u = v := by
  have hbackslash {e : Char} (he : mnemonic? e = none) : e ≠ '\\' := by
    rintro rfl
    cases he
  cases hc with
  | plain hc =>
    cases hd with
    | plain hd => exact List.cons.inj h
    | mnemonic hd => exact absurd (List.cons.inj h).1 (hbackslash hc)
    | codePoint => exact absurd (List.cons.inj h).1 (hbackslash hc)
  | mnemonic hc =>
    cases hd with
    | plain hd => exact absurd (List.cons.inj h).1.symm (hbackslash hd)
    | mnemonic hd =>
      obtain ⟨rfl, rest⟩ := List.cons.inj (List.cons.inj h).2
      exact ⟨(ofMnemonic_of_mnemonic? hc).1.symm.trans (ofMnemonic_of_mnemonic? hd).1, rest⟩
    | codePoint =>
      exact absurd (List.cons.inj (List.cons.inj h).2).1 (ofMnemonic_of_mnemonic? hc).2
  | codePoint =>
    cases hd with
    | plain hd => exact absurd (List.cons.inj h).1.symm (hbackslash hd)
    | mnemonic hd =>
      exact absurd (List.cons.inj (List.cons.inj h).2).1.symm (ofMnemonic_of_mnemonic? hd).2
    | codePoint =>
      have hopen (n : ℕ) : ∀ a ∈ Nat.toDigits 16 n, a ≠ '\x7d' := by
        rintro a ha rfl
        exact notMem_toDigits_sixteen (fun _ => Nat.digitChar_ne _ (by decide)) n ha
      simp only [codePointEscape_eq, List.cons_append, List.append_assoc, List.nil_append,
        List.cons.injEq, true_and] at h
      obtain ⟨hdigits, hrest⟩ :=
        append_inj_of_stops (hopen _) (hopen _) (by simp) (by simp) h
      exact ⟨Char.toNat_inj.1 (toDigits_sixteen_inj hdigits), (List.cons.inj hrest).2⟩

/-- No form of a character starts with a quote. -/
theorem append_ne_quote (hc : Escaped c xs) : xs ++ u ≠ '"' :: v := by
  cases hc with
  | plain hc =>
    intro h
    rw [(List.cons.inj h).1] at hc
    cases hc
  | mnemonic | codePoint => simp [codePointEscape_eq]

theorem lineFeed_notMem (hc : Escaped c xs) : '\n' ∉ xs := by
  cases hc with
  | plain hc =>
    rw [List.mem_singleton]
    rintro rfl
    cases hc
  | mnemonic hc =>
    unfold mnemonic? at hc
    split at hc <;> cases hc <;> decide
  | codePoint =>
    have hdigits := notMem_toDigits_sixteen (c := '\n') (fun _ => Nat.digitChar_ne _ (by decide))
      c.toNat
    simpa [codePointEscape_eq] using hdigits

end Escaped

/-- The forms that a text can have once it is escaped. -/
inductive EscapedAll : List Char → List Char → Prop where
  | nil : EscapedAll [] []
  | cons {c : Char} {cs xs ys : List Char} (hc : Escaped c xs) (hcs : EscapedAll cs ys) :
      EscapedAll (c :: cs) (xs ++ ys)

theorem escapedAll_escape (text : List Char) : EscapedAll text (escape text) := by
  have hrest (cs : List Char) : EscapedAll cs (cs.flatMap (escapeChar false)) := by
    induction cs with
    | nil => exact .nil
    | cons c cs ih => exact .cons (escaped_escapeChar false c) ih
  cases text with
  | nil => exact .nil
  | cons c cs => exact .cons (escaped_escapeChar true c) (hrest cs)

namespace EscapedAll

variable {cs ds xs ys u v : List Char}

/-- An escaped text before a quote determines the text and what follows the quote. -/
theorem append_quote_inj (hcs : EscapedAll cs xs) (hds : EscapedAll ds ys)
    (h : xs ++ '"' :: u = ys ++ '"' :: v) : cs = ds ∧ u = v := by
  induction hcs generalizing ds ys with
  | nil =>
    cases hds with
    | nil => exact ⟨rfl, (List.cons.inj h).2⟩
    | cons hd _ =>
      rw [List.append_assoc] at h
      exact absurd h.symm hd.append_ne_quote
  | cons hc _ ih =>
    cases hds with
    | nil =>
      rw [List.append_assoc] at h
      exact absurd h hc.append_ne_quote
    | cons hd hds =>
      rw [List.append_assoc, List.append_assoc] at h
      obtain ⟨rfl, hrest⟩ := hc.append_inj hd h
      obtain ⟨rfl, rfl⟩ := ih hds hrest
      exact ⟨rfl, rfl⟩

theorem lineFeed_notMem (hcs : EscapedAll cs xs) : '\n' ∉ xs := by
  induction hcs with
  | nil => simp
  | cons hc _ ih =>
    rw [List.mem_append, not_or]
    exact ⟨hc.lineFeed_notMem, ih⟩

end EscapedAll

end TinyPascal.Text
