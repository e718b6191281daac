import Mathlib.Data.List.TakeWhile
import Mathlib.Tactic
import TinyPascal.Syntax.Expression

/-!
# What grammar rules read

Inversion and evaluation laws for the primitive rules. A loop of a rule is followed in both
directions: `Yields` says what a rule can only return, and is kept by every round of a loop, and
`Reaches` says what a loop comes to, and goes on as long as rounds consume tokens.
-/
namespace TinyPascal.Rule

variable {α β : Type} {ts us rest : List Token} {t : Token} {kind : TokenKind} {what : String}

def startsWith (kind : TokenKind) (ts : List Token) : Bool :=
  ts.head?.any fun token => token.kind == kind

@[simp] theorem startsWith_nil : startsWith kind [] = false := rfl

@[simp] theorem startsWith_cons : startsWith kind (t :: ts) = (t.kind == kind) := rfl

def headOp? (ts : List Token) : Option BinaryOp :=
  ts.head?.bind fun token => BinaryOp.ofKind? token.kind

@[simp] theorem headOp?_nil : headOp? [] = none := rfl

@[simp] theorem headOp?_cons : headOp? (t :: ts) = BinaryOp.ofKind? t.kind := rfl

theorem ofKind?_eq_some {op : BinaryOp} :
    BinaryOp.ofKind? kind = some op ↔ kind = .mark op.mark := by
  constructor
  · intro h
    cases kind with
    | mark m => rw [BinaryOp.mark_of_ofMark? h]
    | _ => simp [BinaryOp.ofKind?] at h
  · rintro rfl
    exact BinaryOp.ofMark?_mark op

theorem bind_of_ok {x : Rule α} {a : α} (h : x ts = .ok a us) (f : α → Rule β) :
    (x >>= f) ts = f a us := by
  change EStateM.bind x f ts = _
  rw [EStateM.bind, h]

theorem bind_of_error {x : Rule α} {e : SyntaxError} (h : x ts = .error e us) (f : α → Rule β) :
    (x >>= f) ts = .error e us := by
  change EStateM.bind x f ts = _
  rw [EStateM.bind, h]

theorem bind_eq_ok {x : Rule α} {f : α → Rule β} {b : β} :
    (x >>= f) ts = .ok b rest ↔ ∃ a us, x ts = .ok a us ∧ f a us = .ok b rest := by
  constructor
  · intro h
    cases hx : x ts with
    | ok a us => exact ⟨a, us, rfl, (bind_of_ok hx f).symm.trans h⟩
    | error e us =>
      change EStateM.bind x f ts = _ at h
      rw [EStateM.bind, hx] at h
      cases h
  · rintro ⟨a, us, hx, hf⟩
    exact (bind_of_ok hx f).trans hf

@[simp] theorem pure_eq_ok {a b : α} :
    (pure a : Rule α) ts = .ok b rest ↔ a = b ∧ ts = rest := by
  change EStateM.Result.ok a ts = .ok b rest ↔ _
  simp

@[simp] theorem throw_ne_ok {e : SyntaxError} {b : α} :
    (throw e : Rule α) ts ≠ .ok b rest := by
  change EStateM.Result.error e ts ≠ .ok b rest
  simp

theorem next_eq_ok : next ts = .ok t rest ↔ ts = t :: rest := by
  cases ts with
  | nil =>
    change EStateM.Result.error _ _ = _ ↔ _
    simp
  | cons u us =>
    change EStateM.Result.ok _ _ = _ ↔ _
    simp

theorem next_cons : next (t :: ts) = .ok t ts := rfl

theorem expect_cons (h : t.kind = kind) : expect kind what (t :: ts) = .ok t ts := by
  change (if t.kind = kind then _ else _ : Rule Token) (t :: ts) = _
  rw [if_pos h]
  rfl

theorem expect_of_ne (h : t.kind ≠ kind) :
    expect kind what (t :: ts) = .error (.expected what t) (t :: ts) := by
  change (if t.kind = kind then _ else _ : Rule Token) (t :: ts) = _
  rw [if_neg h]
  rfl

theorem expect_eq_ok : expect kind what ts = .ok t rest ↔ ts = t :: rest ∧ t.kind = kind := by
  constructor
  · intro h
    cases ts with
    | nil => exact absurd h throw_ne_ok
    | cons u us =>
      change (if u.kind = kind then _ else _ : Rule Token) (u :: us) = _ at h
      split at h
      · next hu =>
        cases h
        exact ⟨rfl, hu⟩
      · exact absurd h throw_ne_ok
  · rintro ⟨rfl, h⟩
    exact expect_cons h

theorem accept_cons (h : t.kind = kind) : accept kind (t :: ts) = .ok true ts := by
  change (if t.kind = kind then _ else _ : Rule Bool) (t :: ts) = _
  rw [if_pos h]
  rfl

theorem accept_of_not_startsWith (h : startsWith kind ts = false) :
    accept kind ts = .ok false ts := by
  cases ts with
  | nil => rfl
  | cons u us =>
    have hu : u.kind ≠ kind := by simpa using h
    change (if u.kind = kind then _ else _ : Rule Bool) (u :: us) = _
    rw [if_neg hu]
    rfl

theorem accept_cases {b : Bool} (h : accept kind ts = .ok b rest) :
    (b = true ∧ ∃ t, ts = t :: rest ∧ t.kind = kind) ∨
      (b = false ∧ ts = rest ∧ startsWith kind rest = false) := by
  cases hs : startsWith kind ts with
  | false =>
    rw [accept_of_not_startsWith hs] at h
    cases h
    exact .inr ⟨rfl, rfl, hs⟩
  | true =>
    cases ts with
    | nil => simp at hs
    | cons u us =>
      have hu : u.kind = kind := by simpa using hs
      rw [accept_cons hu] at h
      cases h
      exact .inl ⟨rfl, u, rfl, hu⟩

theorem nextIs_apply : nextIs kind ts = .ok (startsWith kind ts) ts := rfl

theorem takeWhile_apply :
    takeWhile kind ts = .ok (ts.takeWhile fun token => token.kind == kind)
      (ts.dropWhile fun token => token.kind == kind) := by
  change EStateM.Result.ok (List.span _ ts).1 (List.span _ ts).2 = _
  rw [List.span_eq_takeWhile_dropWhile]

theorem operator_of_accepts {accepts : BinaryOp → Bool} {op : BinaryOp}
    (ht : t.kind = .mark op.mark) (hop : accepts op = true) :
    operator accepts (t :: ts) = .ok (some (op, t.position)) ts := by
  have hget : (get : Rule (List Token)) (t :: ts) = .ok (t :: ts) (t :: ts) := rfl
  rw [operator, bind_of_ok hget]
  simp only [ofKind?_eq_some.2 ht, hop, if_true]
  rfl

theorem operator_of_stops {accepts : BinaryOp → Bool}
    (h : ∀ op, headOp? ts = some op → accepts op = false) :
    operator accepts ts = .ok none ts := by
  cases ts with
  | nil => rfl
  | cons t ts =>
    have hget : (get : Rule (List Token)) (t :: ts) = .ok (t :: ts) (t :: ts) := rfl
    rw [operator, bind_of_ok hget]
    cases hop : BinaryOp.ofKind? t.kind with
    | none =>
      simp only [hop]
      rfl
    | some op =>
      simp only [hop, h op hop, Bool.false_eq_true, if_false]
      rfl

theorem operator_cases {accepts : BinaryOp → Bool} {result : Option (BinaryOp × Position)}
    (h : operator accepts ts = .ok result rest) :
    (result = none ∧ ts = rest) ∨ ∃ t op, result = some (op, t.position) ∧ ts = t :: rest ∧
      accepts op = true ∧ t.kind = .mark op.mark := by
  by_cases hstops : ∀ op, headOp? ts = some op → accepts op = false
  · rw [operator_of_stops hstops] at h
    cases h
    exact .inl ⟨rfl, rfl⟩
  · push Not at hstops
    obtain ⟨op, hop, haccepts⟩ := hstops
    cases ts with
    | nil => simp at hop
    | cons t ts =>
      have ht := ofKind?_eq_some.1 hop
      have haccepts : accepts op = true := by simpa using haccepts
      rw [operator_of_accepts ht haccepts] at h
      cases h
      exact .inr ⟨t, op, rfl, rfl, haccepts, ht⟩

theorem iterate_some {step : α → Rule (Option α)} {a b : α} (h : step a ts = .ok (some b) us)
    (k : ℕ) : iterate step (k + 1) a ts = iterate step k b us :=
  bind_of_ok h _

theorem iterate_none {step : α → Rule (Option α)} {a : α} (h : step a ts = .ok none ts) (k : ℕ) :
    iterate step k a ts = .ok a ts := by
  cases k with
  | zero => rfl
  | succ k => exact bind_of_ok h _

/-- A loop that starts from what `first` reads in `ts` comes to the node `b` with `rest` left, and
has at least as many rounds left as there are tokens. -/
def Reaches (first : Rule α) (f : α → β) (step : β → Rule (Option β)) (ts : List Token) (b : β)
    (rest : List Token) : Prop :=
  ∃ a us k, first ts = .ok a us ∧ rest.length ≤ k ∧
    iterate step us.length (f a) us = iterate step k b rest

namespace Reaches

variable {first : Rule α} {f : α → β} {step : β → Rule (Option β)} {a : α} {b c : β}

theorem one (h : first ts = .ok a rest) : Reaches first f step ts (f a) rest :=
  ⟨a, rest, rest.length, h, le_rfl, rfl⟩

theorem more (h : Reaches first f step ts b us) (hstep : step b us = .ok (some c) rest)
    (hlt : rest.length < us.length) : Reaches first f step ts c rest := by
  obtain ⟨a, vs, k, hfirst, hk, he⟩ := h
  obtain ⟨k, rfl⟩ : ∃ m, k = m + 1 := ⟨k - 1, by omega⟩
  exact ⟨a, vs, k, hfirst, by omega, by rw [he, iterate_some hstep]⟩

theorem stop (h : Reaches first f step ts b rest) (hstep : step b rest = .ok none rest) :
    ∃ a us, first ts = .ok a us ∧ extend (f a) step us = .ok b rest := by
  obtain ⟨a, us, k, hfirst, -, he⟩ := h
  refine ⟨a, us, hfirst, ?_⟩
  change iterate step us.length (f a) us = _
  rw [he, iterate_none hstep]

end Reaches

/-- Wherever the rule succeeds, `P` holds of the tokens consumed, the tokens left and the node. -/
def Yields (rule : Rule α) (P : List Token → List Token → α → Prop) : Prop :=
  ∀ ⦃ts a rest⦄, rule ts = .ok a rest → ∃ us, ts = us ++ rest ∧ P us rest a

/-- A loop keeps what each of its rounds keeps. -/
theorem iterate_yields {step : α → Rule (Option α)} {P : List Token → List Token → α → Prop}
    (hstep : ∀ c ts a b us, P c ts a → step a ts = .ok (some b) us →
      ∃ vs, ts = vs ++ us ∧ P (c ++ vs) us b)
    (hstop : ∀ ts a us, step a ts = .ok none us → ts = us)
    {k : ℕ} {c : List Token} {a b : α} (ha : P c ts a) (h : iterate step k a ts = .ok b rest) :
    ∃ vs, ts = vs ++ rest ∧ P (c ++ vs) rest b := by
  induction k generalizing c a ts with
  | zero =>
    obtain ⟨rfl, rfl⟩ := pure_eq_ok.1 h
    exact ⟨[], rfl, by simpa using ha⟩
  | succ k ih =>
    obtain ⟨next, us, hs, hk⟩ := bind_eq_ok.1 h
    cases next with
    | none =>
      obtain ⟨rfl, rfl⟩ := pure_eq_ok.1 hk
      obtain rfl := hstop _ _ _ hs
      exact ⟨[], rfl, by simpa using ha⟩
    | some d =>
      obtain ⟨vs, rfl, hd⟩ := hstep _ _ _ _ _ ha hs
      obtain ⟨ws, rfl, hb⟩ := ih hd hk
      exact ⟨vs ++ ws, by simp, by simpa using hb⟩

theorem Yields.extend {first : Rule α} {f : α → β} {step : β → Rule (Option β)}
    {P : List Token → List Token → β → Prop}
    (hfirst : Yields first fun us rest a => P us rest (f a))
    (hstep : ∀ c ts a b us, P c ts a → step a ts = .ok (some b) us →
      ∃ vs, ts = vs ++ us ∧ P (c ++ vs) us b)
    (hstop : ∀ ts a us, step a ts = .ok none us → ts = us) :
    Yields (do extend (f (← first)) step) P := by
  intro ts b rest h
  rw [bind_eq_ok] at h
  obtain ⟨a, us, ha, h⟩ := h
  obtain ⟨vs, rfl, hvs⟩ := hfirst ha
  obtain ⟨ws, rfl, hws⟩ := iterate_yields hstep hstop hvs h
  exact ⟨vs ++ ws, by simp, hws⟩

end TinyPascal.Rule
