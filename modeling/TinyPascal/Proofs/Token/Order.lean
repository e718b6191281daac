import Mathlib.Data.Prod.Lex
import TinyPascal.Proofs.Token.Scanning

/-!
# The order of tokens

Positions are ordered by line, and on one line by column. Every character leads to a later position,
so the tokens of a source text stand at strictly increasing positions.
-/
namespace TinyPascal

namespace Position

/-- Lines are compared first, columns second. -/
instance : PartialOrder Position :=
  PartialOrder.lift (fun p => toLex (p.line, p.column)) fun p q h => by
    cases p
    cases q
    simp_all

theorem lt_iff {p q : Position} :
    p < q ↔ p.line < q.line ∨ p.line = q.line ∧ p.column < q.column :=
  Prod.Lex.lt_iff

theorem lt_advance (p : Position) (c : Char) : p < p.advance c := by
  rw [lt_iff, advance]
  split_ifs
  · exact .inl (Nat.lt_succ_self _)
  · exact .inr ⟨rfl, Nat.lt_succ_self _⟩

theorem le_advanceBy (p : Position) (text : List Char) : p ≤ p.advanceBy text := by
  induction text generalizing p with
  | nil => exact le_refl p
  | cons c text ih => exact (lt_advance p c).le.trans (ih _)

theorem lt_advanceBy (p : Position) {text : List Char} (h : text ≠ []) : p < p.advanceBy text := by
  cases text with
  | nil => exact absurd rfl h
  | cons c text => exact (lt_advance p c).trans_le (le_advanceBy _ text)

end Position

namespace Lexer

variable {p q : Position} {text rest : List Char} {tokens : List Token}

theorem Denotes.ne_nil {cs : List Char} {kind : TokenKind} {lexeme : String}
    (h : Denotes cs kind lexeme) : cs ≠ [] := by
  obtain ⟨c, ds, rfl, -⟩ := h.exists_cons
  simp

theorem Scans.le (h : Scans p text tokens q rest) : p ≤ q := by
  induction h with
  | gap _ => exact Position.le_advanceBy _ _
  | token _ _ _ _ ih => exact (Position.le_advanceBy _ _).trans ih

/-- A scan meets its tokens one after the other, from its start on and before its end. -/
theorem Scans.pairwise_lt (h : Scans p text tokens q rest) :
    (∀ t ∈ tokens, p ≤ t.position ∧ t.position < q) ∧
      tokens.Pairwise fun t u => t.position < u.position := by
  induction h with
  | gap _ => simp
  | @token p q gap cs text rest kind lexeme tokens _ htoken _ hscans ih =>
    have hfirst : p.advanceBy gap < p.advanceBy (gap ++ cs) := by
      rw [Position.advanceBy_append]
      exact Position.lt_advanceBy _ htoken.ne_nil
    have hgap := Position.le_advanceBy p gap
    constructor
    · intro t ht
      rcases List.mem_cons.1 ht with rfl | ht
      · exact ⟨hgap, hfirst.trans_le hscans.le⟩
      · obtain ⟨hstart, hend⟩ := ih.1 t ht
        exact ⟨hgap.trans (hfirst.le.trans hstart), hend⟩
    · refine List.pairwise_cons.2 ⟨fun t ht => ?_, ih.2⟩
      exact hfirst.trans_le (ih.1 t ht).1

end Lexer

/-- The tokens of a source text stand at strictly increasing positions. -/
theorem pairwise_lt_of_tokenize {source : String} {tokens : List Token}
    (h : tokenize source = .ok tokens) : tokens.Pairwise fun t u => t.position < u.position := by
  obtain ⟨scanned, hscans, rfl⟩ := exists_scans_of_tokenize h
  obtain ⟨hbounds, hpairwise⟩ := hscans.pairwise_lt
  refine List.pairwise_append.2 ⟨hpairwise, List.pairwise_singleton _ _, fun t ht u hu => ?_⟩
  rw [List.mem_singleton] at hu
  subst hu
  exact (hbounds t ht).2

end TinyPascal
