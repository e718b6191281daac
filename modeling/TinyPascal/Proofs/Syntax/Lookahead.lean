import TinyPascal.Proofs.Syntax.Recursion

/-!
# One token of lookahead

Rules look one token ahead and never go back. So the tokens that a rule has seen decide what it
does: where it succeeds, those it has consumed and the kind of the next one, and where it fails,
those up to the token it objects to. A rule that fails without objecting to a token has seen the
whole list. This is kept by sequences of rules and by loops.
-/
namespace TinyPascal.Rule

variable {α β : Type} {t : Token} {ts us rest : List Token} {kind : TokenKind} {what : String}

/-- Both lists are empty, or they begin with tokens of the same kind. -/
def SameHead (ts us : List Token) : Prop :=
  ts.head?.map Token.kind = us.head?.map Token.kind

namespace SameHead

theorem append_left (h : SameHead ts us) (vs : List Token) : SameHead (vs ++ ts) (vs ++ us) := by
  cases vs with
  | nil => exact h
  | cons t vs => rfl

theorem exists_cons (h : SameHead (t :: ts) us) : ∃ u vs, us = u :: vs ∧ u.kind = t.kind := by
  cases us with
  | nil => cases h
  | cons u vs => exact ⟨u, vs, rfl, (Option.some.inj h).symm⟩

theorem startsWith_eq (h : SameHead ts us) : startsWith kind us = startsWith kind ts := by
  have hhead (ts : List Token) :
      startsWith kind ts = (ts.head?.map Token.kind).any (· == kind) := by
    cases ts <;> rfl
  rw [hhead, hhead, ← h]

theorem headOp?_eq (h : SameHead ts us) : headOp? us = headOp? ts := by
  have hhead (ts : List Token) :
      headOp? ts = (ts.head?.map Token.kind).bind BinaryOp.ofKind? := by
    cases ts <;> rfl
  rw [hhead, hhead, ← h]

end SameHead

/-- The tokens that the rule `x` has seen decide what it does on `ts`. It succeeds, and does so
before any rest that begins alike; or it objects to a token, and does so whatever comes after it; or
it runs out of tokens. In a failure, `Viable` holds of all tokens before the one that is objected
to. -/
inductive Decides (x : Rule α) (Viable : List Token → Prop) (ts : List Token) : Prop where
  | ok (us rest : List Token) (a : α) (hts : ts = us ++ rest)
      (h : ∀ more, SameHead rest more → x (us ++ more) = .ok a more)
  | objects (us vs : List Token) (t : Token) (e : SyntaxError) (hts : ts = us ++ t :: vs)
      (he : e.token? = some t) (hviable : Viable us)
      (h : ∀ more, ∃ left, left <:+ t :: more ∧ x (us ++ t :: more) = .error e left)
  | exhausted (hviable : Viable ts) (h : x ts = .error .endOfInput [])

namespace Decides

variable {x y : Rule α} {f : α → Rule β} {V W : List Token → Prop}

theorem mono (h : Decides x V ts) (hVW : ∀ us, V us → W us) : Decides x W ts := by
  cases h with
  | ok us rest a hts h => exact .ok us rest a hts h
  | objects us vs t e hts he hviable h => exact .objects us vs t e hts he (hVW us hviable) h
  | exhausted hviable h => exact .exhausted (hVW ts hviable) h

theorem pure (a : α) (V : List Token → Prop) (ts : List Token) : Decides (pure a) V ts :=
  .ok [] ts a rfl fun _ _ => rfl

/-- A rule that does the same as a decided one wherever the next token has the same kind. -/
theorem of_sameHead (h : Decides y V ts) (hxy : ∀ us, SameHead ts us → x us = y us) :
    Decides x V ts := by
  cases h with
  | ok us rest a hts h =>
    subst hts
    exact .ok us rest a rfl fun more hmore =>
      (hxy _ (hmore.append_left us)).trans (h more hmore)
  | objects us vs t e hts he hviable h =>
    subst hts
    refine .objects us vs t e rfl he hviable fun more => ?_
    obtain ⟨left, hleft, hmore⟩ := h more
    have hsame : SameHead (t :: vs) (t :: more) := rfl
    exact ⟨left, hleft, (hxy _ (hsame.append_left us)).trans hmore⟩
  | exhausted hviable h => exact .exhausted hviable ((hxy ts rfl).trans h)

theorem cons (h : Decides y (fun vs => V (t :: vs)) ts) (hxy : ∀ us, x (t :: us) = y us) :
    Decides x V (t :: ts) := by
  cases h with
  | ok us rest a hts h =>
    exact .ok (t :: us) rest a (by rw [hts]; rfl) fun more hmore =>
      (hxy _).trans (h more hmore)
  | objects us vs u e hts he hviable h =>
    refine .objects (t :: us) vs u e (by rw [hts]; rfl) he hviable fun more => ?_
    obtain ⟨left, hleft, hmore⟩ := h more
    exact ⟨left, hleft, (hxy _).trans hmore⟩
  | exhausted hviable h => exact .exhausted hviable ((hxy ts).trans h)

/-- A sequence of rules is decided if the first is, and the second on what the first leaves. -/
theorem bind_of_ok (hx : Decides x V ts)
    (hf : ∀ us a rest, ts = us ++ rest → x ts = .ok a rest →
      Decides (f a) (fun vs => V (us ++ vs)) rest) : Decides (x >>= f) V ts := by
  cases hx with
  | ok us rest a hts h =>
    subst hts
    cases hf us a rest rfl (h rest rfl) with
    | ok vs left b hrest hb =>
      subst hrest
      refine .ok (us ++ vs) left b (by simp) fun more hmore => ?_
      rw [List.append_assoc, Rule.bind_of_ok (h _ (hmore.append_left vs))]
      exact hb more hmore
    | objects vs ws t e hrest he hviable hb =>
      subst hrest
      refine .objects (us ++ vs) ws t e (by simp) he hviable fun more => ?_
      obtain ⟨left, hleft, hmore⟩ := hb more
      have hsame : SameHead (t :: ws) (t :: more) := rfl
      refine ⟨left, hleft, ?_⟩
      rw [List.append_assoc, Rule.bind_of_ok (h _ (hsame.append_left vs))]
      exact hmore
    | exhausted hviable hb =>
      exact .exhausted hviable ((Rule.bind_of_ok (h rest rfl) f).trans hb)
  | objects us vs t e hts he hviable h =>
    refine .objects us vs t e hts he hviable fun more => ?_
    obtain ⟨left, hleft, hmore⟩ := h more
    exact ⟨left, hleft, bind_of_error hmore f⟩
  | exhausted hviable h => exact .exhausted hviable (bind_of_error h f)

/-- A part of a sequence, of which it is known what it can only return and that what begins the part
begins the whole. -/
theorem bind {P : List Token → List Token → α → Prop} (hx : Decides x W ts) (hyields : Yields x P)
    (hviable : ∀ us, W us → V us)
    (hf : ∀ us a rest, ts = us ++ rest → P us rest a →
      Decides (f a) (fun vs => V (us ++ vs)) rest) : Decides (x >>= f) V ts := by
  refine (hx.mono hviable).bind_of_ok fun us a rest hts ha => ?_
  obtain ⟨vs, hvs, hP⟩ := hyields ha
  obtain rfl := List.append_cancel_right (hts.symm.trans hvs)
  exact hf us a rest hts hP

theorem expect_bind {f : Token → Rule β} (hnil : V [])
    (hf : ∀ t rest, ts = t :: rest → t.kind = kind → Decides (f t) (fun vs => V (t :: vs)) rest) :
    Decides (expect kind what >>= f) V ts := by
  cases ts with
  | nil => exact .exhausted hnil rfl
  | cons t ts =>
    by_cases ht : t.kind = kind
    · exact (hf t ts rfl ht).cons fun us => Rule.bind_of_ok (expect_cons ht) f
    · exact .objects [] ts t (.expected what t) rfl rfl hnil fun more =>
        ⟨t :: more, List.suffix_rfl, bind_of_error (expect_of_ne ht) f⟩

theorem identifier_bind {f : Identifier → Rule β} (hnil : V [])
    (hf : ∀ t rest, ts = t :: rest → t.kind = .identifier →
      Decides (f ⟨t.lexeme, t.position⟩) (fun vs => V (t :: vs)) rest) :
    Decides (identifier what >>= f) V ts := by
  rw [identifier, bind_assoc]
  simp only [pure_bind]
  exact expect_bind hnil hf

theorem accept_bind {f : Bool → Rule β}
    (htrue : ∀ t rest, ts = t :: rest → t.kind = kind →
      Decides (f true) (fun vs => V (t :: vs)) rest)
    (hfalse : startsWith kind ts = false → Decides (f false) V ts) :
    Decides (accept kind >>= f) V ts := by
  cases hs : startsWith kind ts with
  | false =>
    refine (hfalse hs).of_sameHead fun us hus => ?_
    exact Rule.bind_of_ok (accept_of_not_startsWith (hus.startsWith_eq.trans hs)) f
  | true =>
    cases ts with
    | nil => cases hs
    | cons t ts =>
      have ht : t.kind = kind := by simpa using hs
      exact (htrue t ts rfl ht).cons fun us => Rule.bind_of_ok (accept_cons ht) f

theorem nextIs_bind {f : Bool → Rule β} (hf : Decides (f (startsWith kind ts)) V ts) :
    Decides (nextIs kind >>= f) V ts := by
  refine hf.of_sameHead fun us hus => ?_
  rw [Rule.bind_of_ok nextIs_apply, hus.startsWith_eq]

theorem operator_bind {accepts : BinaryOp → Bool} {f : Option (BinaryOp × Position) → Rule β}
    (hsome : ∀ t rest op, ts = t :: rest → accepts op = true → t.kind = .mark op.mark →
      Decides (f (some (op, t.position))) (fun vs => V (t :: vs)) rest)
    (hnone : Decides (f none) V ts) : Decides (operator accepts >>= f) V ts := by
  by_cases hstops : ∀ op, headOp? ts = some op → accepts op = false
  · refine hnone.of_sameHead fun us hus => ?_
    rw [← hus.headOp?_eq] at hstops
    exact Rule.bind_of_ok (operator_of_stops hstops) f
  · push Not at hstops
    obtain ⟨op, hop, haccepts⟩ := hstops
    cases ts with
    | nil => cases hop
    | cons t ts =>
      have ht := ofKind?_eq_some.1 hop
      have haccepts : accepts op = true := by simpa using haccepts
      exact (hsome t ts op rfl haccepts ht).cons fun us =>
        Rule.bind_of_ok (operator_of_accepts ht haccepts) f

/-- A loop on a list of fewer than `n` tokens is decided if its rounds are. `P` is an invariant of
the tokens consumed, the tokens left and the node. -/
theorem extend {step : α → Rule (Option α)} {P : List Token → List Token → α → Prop} {n : ℕ}
    (hprogresses : Progresses step)
    (hkeeps : ∀ c ts a b us, P c ts a → step a ts = .ok (some b) us →
      ∃ vs, ts = vs ++ us ∧ P (c ++ vs) us b)
    (hstep : ∀ c ts a, ts.length < n → P c ts a → Decides (step a) (fun vs => V (c ++ vs)) ts)
    {c ts : List Token} {a : α} (hn : ts.length < n) (ha : P c ts a) :
    Decides (extend a step) (fun vs => V (c ++ vs)) ts := by
  induction hlength : ts.length using Nat.strong_induction_on generalizing c ts a with
  | _ m ih =>
    rw [hprogresses.extend_eq]
    refine (hstep c ts a hn ha).bind_of_ok fun us next rest hts hnext => ?_
    cases next with
    | none => exact pure a _ _
    | some b =>
      obtain ⟨vs, hvs, hb⟩ := hkeeps c ts a b rest ha hnext
      obtain rfl := List.append_cancel_right (hts.symm.trans hvs)
      have hlt := hprogresses.lt_of_some a ts b rest hnext
      have hrest := ih rest.length (by omega) (by omega) hb rfl
      simpa only [List.append_assoc] using hrest

end Decides

end TinyPascal.Rule
