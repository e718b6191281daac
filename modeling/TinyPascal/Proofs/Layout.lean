import TinyPascal.Console.Scripted
import TinyPascal.Proofs.Execution.Erasure
import TinyPascal.Proofs.Syntax.Erasure

/-!
# Layout does not matter

Sources that differ in their gaps and in the case of their keywords are parsed, checked and run
alike. Every stage sees the tokens of a source only through their kinds, the texts of names and
literals, and their places, and no stage decides anything by a place. A syntax error quotes the
token it has found, so this is the one place where the case of a keyword comes to light.
-/
namespace TinyPascal

open Lexer

/-- A diagnostic without places, and with `spell` applied to a keyword that it quotes. -/
def Diagnostic.erase (spell : String → String) : Diagnostic → Diagnostic
  | lexical e => lexical ⟨e.fault, .start⟩
  | syntactic e => syntactic (e.erase spell)
  | semantic errors => semantic (errors.map SemanticError.erase)
  | runtime e => runtime e.erase

/-- Two results are both given, and `R` relates them, or both are refused, and `E` relates the
causes. -/
inductive SameResult {ε α : Type} (E : ε → ε → Prop) (R : α → α → Prop) :
    Except ε α → Except ε α → Prop where
  | given {a b : α} (h : R a b) : SameResult E R (.ok a) (.ok b)
  | refused {d e : ε} (h : E d e) : SameResult E R (.error d) (.error e)

/-- Two diagnostics are equal up to positions and what `spell` does to a quoted keyword. -/
def Diagnostic.Parallel (spell : String → String) (d e : Diagnostic) : Prop :=
  e.erase spell = d.erase spell

/-- Two programs are equal up to positions, and their analyses have the same symbols, with the same
types, and the same violations in the same order, up to positions. -/
structure Program.Parallel (program other : Program) : Prop where
  tree : other.erase = program.erase
  symbols : (analyze program).symbols.Agrees (analyze other).symbols
  errors : (analyze other).errors.map SemanticError.erase =
    (analyze program).errors.map SemanticError.erase

/-- Two sources are parsed and analysed alike, and on every console and adviser, under every policy,
they are run alike: they make the same requests in the same order and end with the same result, up
to positions and what `spell` does to a keyword that a syntax error quotes. -/
structure Alike (spell : String → String) (source other : String) : Prop where
  parse : SameResult (Diagnostic.Parallel spell) Program.Parallel (parseSource source)
    (parseSource other)
  run : ∀ {σ γ : Type} (console : Console σ) (adviser : Adviser γ) (policy : Policy) (fuel : ℕ)
    (interrupted : Bool) (s : σ) (g : γ), SameResult (Diagnostic.Parallel spell) Conducted.Parallel
      (run console adviser policy fuel interrupted source s g)
      (run console adviser policy fuel interrupted other s g)

variable {spell : String → String} {source other : String}

theorem Program.parallel_of_erase_eq {program other : Program}
    (h : other.erase = program.erase) : program.Parallel other := by
  obtain ⟨hsymbols, herrors⟩ := analyze_erase program
  obtain ⟨hsymbols', herrors'⟩ := analyze_erase other
  rw [h] at hsymbols' herrors'
  exact ⟨h, fun name => (hsymbols' name).symm.trans (hsymbols name), herrors'.symm.trans herrors⟩

theorem Program.Parallel.isClean_eq {program other : Program} (h : program.Parallel other) :
    (analyze other).isClean = (analyze program).isClean := by
  have hempty := congrArg List.isEmpty h.errors
  rwa [List.isEmpty_map, List.isEmpty_map] at hempty

theorem sameResult_of_map_eq {ε δ α β : Type} {f : α → β} {g : ε → δ} {x y : Except ε α}
    (h : (y.map f).mapError g = (x.map f).mapError g) :
    SameResult (fun d e => g e = g d) (fun a b => f b = f a) x y := by
  cases x with
  | ok a =>
    cases y with
    | ok b => exact .given (Except.ok.inj h)
    | error e => cases h
  | error d =>
    cases y with
    | ok b => cases h
    | error e => exact .refused (Except.error.inj h)

/-- Sources with the same tokens, up to positions and what `spell` does to keywords, are parsed
alike. -/
theorem sameResult_parseSource (h : (tokenize other).map (List.map (Token.erase spell)) =
    (tokenize source).map (List.map (Token.erase spell))) :
    SameResult (Diagnostic.Parallel spell) Program.Parallel (parseSource source)
      (parseSource other) := by
  have htokens := sameResult_of_map_eq (g := id) (congrArg (Except.mapError id) h)
  rw [parseSource, parseSource]
  generalize tokenize source = lexed at htokens ⊢
  generalize tokenize other = lexed' at htokens ⊢
  cases htokens with
  | refused h => exact .refused (congrArg (fun e => Diagnostic.erase spell (.lexical e)) h)
  | @given tokens tokens' h =>
    have hparsed := congrArg parse h
    rw [parse_map_erase, parse_map_erase] at hparsed
    replace hparsed := sameResult_of_map_eq hparsed
    dsimp only
    generalize parse tokens = parsed at hparsed ⊢
    generalize parse tokens' = parsed' at hparsed ⊢
    cases hparsed with
    | refused h => exact .refused (congrArg Diagnostic.syntactic h)
    | given h => exact .given (Program.parallel_of_erase_eq h)

/-- Sources with the same tokens, up to positions and what `spell` does to keywords, are alike. -/
theorem alike_of_map_erase (h : (tokenize other).map (List.map (Token.erase spell)) =
    (tokenize source).map (List.map (Token.erase spell))) : Alike spell source other := by
  have hparse := sameResult_parseSource h
  refine ⟨hparse, fun console adviser policy fuel interrupted s g => ?_⟩
  rw [run, run, compile, compile]
  generalize parseSource source = parsed at hparse ⊢
  generalize parseSource other = parsed' at hparse ⊢
  cases hparse with
  | refused h => exact .refused h
  | @given program program' h =>
    dsimp only
    rw [check, check, CheckedProgram.ofAnalysis, CheckedProgram.ofAnalysis, h.isClean_eq]
    cases (analyze program).isClean with
    | true =>
      let checked (program : Program) : CheckedProgram :=
        ⟨program, (analyze program).symbols, (analyze program).types⟩
      have hsymbols : (checked program).symbols.Agrees (checked program').symbols := h.symbols
      exact .given (CheckedProgram.conduct_parallel hsymbols h.tree console adviser policy fuel
        interrupted s g)
    | false =>
      have herrors : Diagnostic.Parallel spell (.semantic (analyze program).errors)
          (.semantic (analyze program').errors) := congrArg Diagnostic.semantic h.errors
      exact .refused herrors

theorem Respaced.map_erase (h : Respaced source other) (spell : String → String) :
    (tokenize other).map (List.map (Token.erase spell)) =
      (tokenize source).map (List.map (Token.erase spell)) := by
  obtain ⟨tokens, tokens', hsource, hother, hbare⟩ := h.exists_tokenize
  have herase : Token.erase spell =
      (fun l : Lexeme => ⟨l.1, l.1.respell spell l.2, .start⟩) ∘ Token.bare := rfl
  rw [hsource, hother, herase, ← List.map_comp_map]
  exact congrArg (Except.ok ∘ List.map _) hbare

theorem Recased.map_erase (h : Recased source other) :
    (tokenize other).map (List.map (Token.erase foldCase)) =
      (tokenize source).map (List.map (Token.erase foldCase)) := by
  obtain ⟨tokens, tokens', hsource, hother, hfold⟩ := h.exists_tokenize
  have herase : Token.erase foldCase =
      (fun t : Token => { t with position := .start }) ∘ Token.respell foldCase := rfl
  rw [hsource, hother, herase, ← List.map_comp_map]
  exact congrArg (Except.ok ∘ List.map _) hfold

/-- Sources that are related by changes of a kind that keeps the erased tokens are alike. -/
theorem alike_of_eqvGen {Change : String → String → Prop}
    (hchange : ∀ {source other}, Change source other →
      (tokenize other).map (List.map (Token.erase spell)) =
        (tokenize source).map (List.map (Token.erase spell)))
    (h : Relation.EqvGen Change source other) : Alike spell source other := by
  refine alike_of_map_erase ?_
  induction h with
  | rel source other h => exact hchange h
  | refl source => rfl
  | symm source other _ ih => exact ih.symm
  | trans source mid other _ _ ih ih' => exact ih'.trans ih

/-- Layout does not matter. Every source that can be cut into tokens can be respaced. Other gaps
keep kinds and texts of the tokens, and another case of keywords keeps all but the texts of the
keywords. Sources that are related by other gaps are parsed, analysed and run alike up to positions;
sources that are related by other gaps and another case of keywords are so too, up to the case of a
keyword that a syntax error quotes. -/
theorem layout_does_not_matter (source other : String) :
    ((∃ tokens, tokenize source = .ok tokens) ↔ Respaced source source) ∧
    (Respaced source other → ∃ tokens tokens', tokenize source = .ok tokens ∧
      tokenize other = .ok tokens' ∧ tokens'.map Token.bare = tokens.map Token.bare) ∧
    (Recased source other → ∃ tokens tokens', tokenize source = .ok tokens ∧
      tokenize other = .ok tokens' ∧
      tokens'.map (Token.respell foldCase) = tokens.map (Token.respell foldCase)) ∧
    (Relation.EqvGen Respaced source other → Alike id source other) ∧
    (Relation.EqvGen (fun source other => Respaced source other ∨ Recased source other) source
      other → Alike foldCase source other) := by
  refine ⟨exists_tokenize_iff_respaced, Respaced.exists_tokenize, Recased.exists_tokenize,
    alike_of_eqvGen fun h => h.map_erase id, alike_of_eqvGen ?_⟩
  rintro source other (h | h)
  · exact h.map_erase foldCase
  · exact h.map_erase

/-- What is said of a source that starts with the word `end`, written as `lexeme`. -/
def misplacedEnd (lexeme : String) : Diagnostic :=
  .syntactic (.expected "'program'" ⟨.keyword .«end», lexeme, .start⟩)

theorem run_of_misplacedEnd {lexeme : String} {rest : List Token}
    (h : tokenize source = .ok (⟨.keyword .«end», lexeme, .start⟩ :: rest)) :
    run Script.console .silent {} 0 false source { input := [] } () =
      .error (misplacedEnd lexeme) := by
  rw [run, compile, parseSource, h]
  rfl

/-- A syntax error quotes a keyword as it is written: the two errors are at one place and differ in
the case of the keyword. -/
theorem recased_keyword_quoted :
    Recased "end" "END" ∧ ∃ d e : Diagnostic,
      run Script.console .silent {} 0 false "end" { input := [] } () = .error d ∧
      run Script.console .silent {} 0 false "END" { input := [] } () = .error e ∧
      d.message = "Syntax error at line 1, column 1: expected 'program', found 'end'" ∧
      e.message = "Syntax error at line 1, column 1: expected 'program', found 'END'" ∧
      ¬ Diagnostic.Parallel id d e := by
  constructor
  · have htoken : Denotes "end".toList (.keyword .«end») (.ofList "end".toList) :=
      denotes_keyword rfl
    have hlongest : Longest "end".toList [] := htoken.longest_iff.2 fun d hd => by cases hd
    have hcase : Recases (.keyword .«end») "end".toList "END".toList := .inr ⟨⟨_, rfl⟩, rfl⟩
    have hrewrites : Rewrites (fun gap gap' => gap' = gap) Recases
        ([] ++ ("end".toList ++ [])) ([] ++ ("END".toList ++ [])) :=
      .token .nil .nil rfl htoken hlongest hcase (.last .nil .nil rfl)
    exact hrewrites
  · have hlower : tokenize "end" = .ok [⟨.keyword .«end», "end", .start⟩,
        ⟨.endOfInput, "", ⟨1, 4⟩⟩] := by decide +kernel
    have hupper : tokenize "END" = .ok [⟨.keyword .«end», "END", .start⟩,
        ⟨.endOfInput, "", ⟨1, 4⟩⟩] := by decide +kernel
    refine ⟨misplacedEnd "end", misplacedEnd "END", run_of_misplacedEnd hlower,
      run_of_misplacedEnd hupper, by decide +kernel, by decide +kernel, ?_⟩
    rw [Diagnostic.Parallel]
    decide

end TinyPascal
