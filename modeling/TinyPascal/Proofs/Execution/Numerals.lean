import TinyPascal.Proofs.Execution.Reading
import TinyPascal.Proofs.Syntax.Completeness
import TinyPascal.Proofs.Text.Decimal

/-!
# Integers written, read and parsed

What is written for an integer is read back as that integer, with any blanks around it and without a
warning. A read statement takes the integer from a line exactly if the line holds a numeral whose
value fits, with or without a sign. A literal of a program has no sign, so it is refused as too
large from `2 ^ 63` on.
-/
namespace TinyPascal

open Exec Text

variable {σ γ : Type} {setting : Setting σ γ} {here : Session σ γ} {target : Identifier}
  {line : String} {p : Position} {n : Integer}

/-- `setting.Hands target here line`: the target can be read into at `here`, and the console answers
the prompt for it with the line. -/
structure Setting.Hands (setting : Setting σ γ) (target : Identifier) (here : Session σ γ)
    (line : String) : Prop where
  bound : target.name ∈ here.state.store
  calm : here.state.interrupted = false
  answer : (setting.console.readLine ("Enter a value for " ++ target.name ++ ": ")
    here.console).1 = ⟨.ok (some line), false⟩

/-- `c.Takes start target line n`: after the prompt for the target was answered with the line, the
integer was stored, and nothing else was done. -/
structure Conducted.Takes (c : Conducted Unit σ γ) (start : State) (target : Identifier)
    (line : String) (n : Integer) : Prop where
  outcome : c.outcome = .ok ()
  exchanges : c.exchanges = [.read target ⟨.ok (some line), false⟩]
  state : c.state = ⟨start.store.insert target.name (.int n), start.interrupted⟩

theorem Exchange.read_inj {answer other : Answer (Except String (Option String))}
    (h : Exchange.read target answer = .read target other) : answer = other :=
  eq_of_heq (Sigma.mk.inj h).2

namespace Setting

/-- A line that comes without an interrupt is passed on. -/
theorem conduct_readLine_bind {α : Type} {prompt : String} {line : Option String} {s : σ}
    (hcalm : here.state.interrupted = false)
    (hanswer : setting.console.readLine prompt here.console = (⟨.ok line, false⟩, s))
    (p : Position) (next : Option String → Exec α) :
    setting.conduct (readLine prompt p >>= next) here =
      (setting.conduct (next line) ⟨here.state, s, here.adviser⟩).after
        [⟨.readLine prompt, here.state, ⟨.ok line, false⟩⟩] := by
  obtain ⟨⟨store, interrupted⟩, console, g⟩ := here
  cases hcalm
  have hanswered : (Request.readLine prompt).answered setting.console setting.adviser console g =
      (⟨.ok line, false⟩, s, g) :=
    congrArg (fun answered => (answered.1, answered.2, g)) hanswer
  rw [readLine, bind_assoc, conduct_ask_bind hanswered]
  rfl

/-- The line that is handed over is the one that is used. -/
theorem exists_execute_read_eq (h : setting.Hands target here line) (p : Position) :
    ∃ (moment : Moment) (there : Session σ γ),
      moment.exchange = .read target ⟨.ok (some line), false⟩ ∧ there.state = here.state ∧
      setting.execute (.read [target] p) here =
        (setting.conduct (inputValue setting.policy target p (some line) >>= fun value =>
          assign target (.int value)) there).after [moment] := by
  have hread : setting.execute (.read [target] p) here =
      setting.conduct (readTarget setting.policy p target) here := by
    refine (conduct_bind_of_ended _ (checkInterrupt_of_not_interrupted h.calm)).trans ?_
    rw [readTargets, readTargets, bind_pure_unit]
  obtain ⟨s, hs⟩ : ∃ s, setting.console.readLine ("Enter a value for " ++ target.name ++ ": ")
      here.console = (⟨.ok (some line), false⟩, s) := ⟨_, Prod.ext h.answer rfl⟩
  refine ⟨⟨.readLine ("Enter a value for " ++ target.name ++ ": "), here.state,
    ⟨.ok (some line), false⟩⟩, ⟨here.state, s, here.adviser⟩, rfl, rfl, hread.trans ?_⟩
  rw [readTarget]
  exact conduct_readLine_bind h.calm hs p _

theorem takes_of_ofText? (h : setting.Hands target here line)
    (hline : Integer.ofText? (trim line) = some n) (p : Position) :
    (setting.execute (.read [target] p) here).Takes here.state target line n := by
  obtain ⟨moment, there, hmoment, hthere, heq⟩ := exists_execute_read_eq h p
  have hvalue : inputValue setting.policy target p (some line) = pure n := by
    rw [inputValue, hline]
  have hbound : target.name ∈ there.state.store := hthere ▸ h.bound
  rw [heq, hvalue, pure_bind, conduct_assign hbound, hthere]
  exact ⟨rfl, congrArg (fun exchange => [exchange]) hmoment, rfl⟩

/-- A line is only taken with the integer that is on it. -/
theorem ofText?_of_takes (h : setting.Hands target here line)
    (htakes : (setting.execute (.read [target] p) here).Takes here.state target line n) :
    Integer.ofText? (trim line) = some n := by
  obtain ⟨moment, there, hmoment, hthere, heq⟩ := exists_execute_read_eq h p
  obtain ⟨houtcome, hexchanges, hstate⟩ := htakes
  have huse := conduct_useLine setting p (some line) (hthere ▸ h.bound) (hthere ▸ h.calm)
  generalize setting.conduct (inputValue setting.policy target p (some line) >>= fun value =>
    assign target (.int value)) there = c at heq huse
  rw [heq] at houtcome hexchanges hstate
  rcases huse with ⟨e, rfl, hfollows, -, huse, hafter⟩ | ⟨fault, herror, -⟩
  · -- Only the prompt was shown, so the line was usable, and what was stored is what is on it.
    have hquiet : c.exchanges = [] := (List.cons.inj hexchanges).2
    rw [hquiet, Entry.exchanges] at huse
    obtain ⟨hread, hwarn⟩ := List.cons.inj huse
    have hline : some line = e.line := by
      injection Exchange.read_inj hread with hresult
      exact Except.ok.inj hresult
    have hvalue : Integer.ofLine? e.line = some e.value := by
      refine hfollows.resolve_right fun hnone => ?_
      simp [hnone.1] at hwarn
    have hstored : e.update here.state.store = here.state.store.insert e.target.name (.int n) := by
      have hstores := congrArg State.store (hafter.symm.trans hstate)
      rwa [hthere] at hstores
    have hsame : e.value = n := by
      have hlook := congrArg (·[e.target.name]?) hstored
      simpa [Entry.update] using hlook
    rw [← hsame, ← hvalue, ← hline]
    rfl
  · cases herror.symm.trans houtcome

theorem exists_exchanges_write {e : Expr} (hcalm : here.state.interrupted = false)
    (he : e.eval here.state.store = .ok (.int n)) (p : Position) :
    ∃ answer, (setting.execute (.write [e] p) here).exchanges =
      [⟨.writeLine n.text, answer⟩] := by
  have hevaluate : evaluate e here.state = .ended (.ok (.int n)) here.state := by
    change ofExcept (e.eval here.state.store) here.state = _
    rw [he]
    rfl
  have htext : textOfAll [e] here.state = .ended (.ok n.text) here.state := by
    change (evaluate e here.state).andThen _ = _
    rw [hevaluate]
    change Run.ended (.ok (n.text ++ "")) here.state = _
    rw [String.append_empty]
  have hwrite : setting.execute (.write [e] p) here =
      setting.conduct (Exec.writeLine n.text p) here := by
    refine (conduct_bind_of_ended _ (checkInterrupt_of_not_interrupted hcalm)).trans ?_
    exact conduct_bind_of_ended _ htext
  rw [hwrite]
  obtain ⟨⟨result, raises⟩, s, g, hanswer⟩ : ∃ answer s g, (Request.writeLine n.text).answered
      setting.console setting.adviser here.console here.adviser = (answer, s, g) := ⟨_, _, _, rfl⟩
  rw [Exec.writeLine, conduct_ask_bind hanswer]
  refine ⟨⟨result, raises⟩, ?_⟩
  cases result <;> rfl

end Setting

namespace Rule

variable {inner : Rule Expr} {t : Token} {ts : List Token}

theorem primary_literalTooLarge (hkind : t.kind = .integerLiteral)
    (hvalue : Integer.ofText? t.lexeme = none) :
    primary inner (t :: ts) = .error (.literalTooLarge t) ts := by
  rw [primary, bind_of_ok next_cons]
  simp only [hkind, hvalue]
  rfl

/-- A literal stands for the value of its digits, and is refused if no integer has that value. -/
theorem primary_digits (hkind : t.kind = .integerLiteral) (hdigits : IsDigits t.lexeme.toList) :
    (placeValue t.lexeme.toList ≤ 2 ^ 63 - 1 → ∃ n : Integer,
      n.toInt = placeValue t.lexeme.toList ∧
        primary inner (t :: ts) = .ok (.int n t.position) ts) ∧
    (2 ^ 63 - 1 < placeValue t.lexeme.toList →
      primary inner (t :: ts) = .error (.literalTooLarge t) ts) := by
  constructor
  · intro hle
    obtain ⟨n, -, hn⟩ := Integer.exists_ofInt? (n := placeValue t.lexeme.toList)
      ⟨by omega, by omega⟩
    have hread : Integer.ofText? t.lexeme = some n := by
      rw [Integer.ofText?_eq_some_iff, hn]
      exact .unsigned hdigits
    exact ⟨n, hn, primary_int hkind hread⟩
  · intro hlt
    apply primary_literalTooLarge hkind
    rw [Integer.ofText?_of_isDigit hdigits.isDigit, Text.decimalValue?_eq_some_iff.2 ⟨hdigits, rfl⟩,
      Option.bind_some, Integer.ofInt?_eq_none, Integer.Fits]
    omega

end Rule

/-- Integers and decimal numerals correspond. What is written for an integer is read back, with any
blanks around it. A line is taken exactly if it holds a numeral whose value fits, and then this
value is stored. A literal of digits stands for their value, or is refused if it is too large. -/
theorem numerals_correspond_to_integers (setting : Setting σ γ) (p : Position) :
    (∀ (there : Session σ γ) (q : Position) (e : Expr) (n : Integer),
      there.state.interrupted = false → e.eval there.state.store = .ok (.int n) →
      ∃ text answer, (setting.execute (.write [e] q) there).exchanges =
          [⟨.writeLine text, answer⟩] ∧
        ∀ before after : String, (∀ c ∈ before.toList, isBlank c = true) →
          (∀ c ∈ after.toList, isBlank c = true) →
          ∀ (target : Identifier) (here : Session σ γ),
            setting.Hands target here (before ++ text ++ after) →
            (setting.execute (.read [target] p) here).Takes here.state target
              (before ++ text ++ after) n) ∧
    (∀ (target : Identifier) (here : Session σ γ) (line : String),
      setting.Hands target here line →
      (∀ n, (setting.execute (.read [target] p) here).Takes here.state target line n →
        HoldsNumeral line n.toInt) ∧
      ∀ value, HoldsNumeral line value → Integer.Fits value → ∃ n : Integer, n.toInt = value ∧
        (setting.execute (.read [target] p) here).Takes here.state target line n) ∧
    ∀ (inner : Rule Expr) (t : Token) (ts : List Token), t.kind = .integerLiteral →
      IsDigits t.lexeme.toList →
      (placeValue t.lexeme.toList ≤ 2 ^ 63 - 1 → ∃ n : Integer,
        n.toInt = placeValue t.lexeme.toList ∧
          Rule.primary inner (t :: ts) = .ok (.int n t.position) ts) ∧
      (2 ^ 63 - 1 < placeValue t.lexeme.toList →
        Rule.primary inner (t :: ts) = .error (.literalTooLarge t) ts) := by
  refine ⟨fun there q e n hcalm he => ?_, fun target here line hhands => ⟨?_, ?_⟩,
    fun inner t ts => Rule.primary_digits⟩
  · obtain ⟨answer, hwrite⟩ := Setting.exists_exchanges_write hcalm he q
    refine ⟨n.text, answer, hwrite, fun before after hbefore hafter target here hhands => ?_⟩
    apply Setting.takes_of_ofText? hhands
    rw [Integer.ofText?_eq_some_iff, ← holdsNumeral_iff]
    refine ⟨before.toList, n.text.toList, after.toList, ?_, hbefore, hafter, n.isNumeral_text⟩
    rw [String.toList_append, String.toList_append]
  · intro n htakes
    rw [holdsNumeral_iff, ← Integer.ofText?_eq_some_iff]
    exact Setting.ofText?_of_takes hhands htakes
  · intro value hvalue hfits
    obtain ⟨n, -, rfl⟩ := Integer.exists_ofInt? hfits
    rw [holdsNumeral_iff, ← Integer.ofText?_eq_some_iff] at hvalue
    exact ⟨n, rfl, Setting.takes_of_ofText? hhands hvalue p⟩

def Session.oneLine (line : String) : Session Script Unit :=
  ⟨⟨(∅ : Store).insert "x" (.int 5), false⟩, ⟨[line], #[], #[], #[]⟩, ()⟩

/-- The least integer is written and read back between blanks. A sign and zeros may stand before a
number that is read, and the least integer without its sign is too large for a literal. -/
theorem numerals_correspond_to_integers_least :
    let setting : Setting Script Unit := ⟨Script.console, .silent, { inputFallback := .fail }, 0⟩
    let target : Identifier := ⟨"x", .start⟩
    let literal : Token := ⟨.integerLiteral, "9223372036854775808", .start⟩
    (∃ text answer, (setting.execute (.write [.int Int64.minValue .start] .start)
        (.oneLine "")).exchanges = [⟨.writeLine text, answer⟩] ∧
      (setting.execute (.read [target] .start) (.oneLine (" \t" ++ text ++ "\r"))).Takes
        (Session.oneLine "").state target (" \t" ++ text ++ "\r") Int64.minValue) ∧
    (HoldsNumeral " +007" 7 ∧ Integer.Fits 7 ∧ ∃ n : Integer, n.toInt = 7 ∧
      (setting.execute (.read [target] .start) (.oneLine " +007")).Takes
        (Session.oneLine "").state target " +007" n) ∧
    IsDigits literal.lexeme.toList ∧ 2 ^ 63 - 1 < placeValue literal.lexeme.toList ∧
    Rule.primary Rule.expression [literal] = .error (.literalTooLarge literal) [] := by
  intro setting target literal
  obtain ⟨hround, hlines, hliterals⟩ := numerals_correspond_to_integers setting .start
  have hhands (line : String) : setting.Hands target (.oneLine line) line :=
    ⟨Std.TreeMap.mem_insert_self, rfl, rfl⟩
  have hseven : HoldsNumeral " +007" 7 :=
    ⟨[' '], ['+', '0', '0', '7'], [], by decide, List.all_eq_true.1 (by decide), by simp,
      .plus ⟨by decide, List.all_eq_true.1 (by decide)⟩⟩
  have hdigits : IsDigits literal.lexeme.toList :=
    ⟨by decide, List.all_eq_true.1 (by decide)⟩
  have hlarge : 2 ^ 63 - 1 < placeValue literal.lexeme.toList := by decide
  refine ⟨?_, ⟨hseven, by decide, ?_⟩, hdigits, hlarge,
    (hliterals .expression literal [] rfl hdigits).2 hlarge⟩
  · obtain ⟨text, answer, hwrite, hread⟩ :=
      hround (.oneLine "") .start (.int Int64.minValue .start) Int64.minValue rfl rfl
    exact ⟨text, answer, hwrite, hread " \t" "\r" (List.all_eq_true.1 (by decide))
      (List.all_eq_true.1 (by decide)) target _ (hhands _)⟩
  · exact (hlines target _ _ (hhands " +007")).2 7 hseven (by decide)

end TinyPascal
