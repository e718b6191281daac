import TinyPascal.Proofs.Execution.Schedule

/-!
# Reading into several variables

A read statement serves its targets in turn. A target is served when a line was read for it and a
value stored: the integer on the line, or the substitute of the policy once a warning about an
unusable line was shown. If a target cannot be served, those before it keep their new values and
those after it are never asked for. An interrupt takes effect after a line was read and before the
line is used, so one that is raised by a warning stops the statement at the next target, if there is
one.
-/
namespace TinyPascal

open Exec

variable {α β σ γ : Type}

abbrev Exchange := (request : Request) × Answer request.Result

def Moment.exchange (m : Moment) : Exchange := ⟨m.request, m.answer⟩

def Conducted.exchanges (c : Conducted α σ γ) : List Exchange :=
  c.moments.map Moment.exchange

theorem Conducted.exchanges_halted (cause : Halt) (c : Conducted α σ γ) :
    (c.halted (β := β) cause).exchanges = c.exchanges := rfl

theorem Conducted.exchanges_after (c : Conducted α σ γ) (d : Conducted β σ γ) :
    (d.after c.moments).exchanges = c.exchanges ++ d.exchanges :=
  List.map_append

namespace Exchange

def read (target : Identifier) (answer : Answer (Except String (Option String))) : Exchange :=
  ⟨.readLine ("Enter a value for " ++ target.name ++ ": "), answer⟩

def warn (target : Identifier) (defect : InputDefect) (value : Integer)
    (answer : Answer (Except String Unit)) : Exchange :=
  ⟨.warn (defect.text ++ ", assigning " ++ value.text ++ " to " ++ target.name), answer⟩

def interrupted (p : Position) : Exchange :=
  ⟨.note (.interrupted p), ⟨(), false⟩⟩

end Exchange

/-- The integer on a line of input, without the blanks around it. There is no line at the end of
input. -/
def Integer.ofLine? (line : Option String) : Option Integer :=
  line.bind fun text => Integer.ofText? (Text.trim text)

def InputDefect.ofLine : Option String → InputDefect
  | some line => .notANumber (Text.trim line)
  | none => .endOfInput

/-- A target that was served: the line that was read for it, the value it got, and whether the
interrupt was raised by the warning, if there was one. -/
structure Entry where
  target : Identifier
  line : Option String
  value : Integer
  alarm : Bool

namespace Entry

/-- The value is the integer on the line, or the substitute if there is none on the line. -/
def Follows (policy : Policy) (e : Entry) : Prop :=
  Integer.ofLine? e.line = some e.value ∨
    Integer.ofLine? e.line = none ∧ policy.inputFallback = .substitute e.value

/-- A prompt, and a warning right after it if the line is unusable. -/
def exchanges (e : Entry) : List Exchange :=
  .read e.target ⟨.ok e.line, false⟩ ::
    if (Integer.ofLine? e.line).isSome then []
    else [.warn e.target (.ofLine e.line) e.value ⟨.ok (), e.alarm⟩]

def raises (e : Entry) : Bool :=
  (Integer.ofLine? e.line).isNone && e.alarm

def update (store : Store) (e : Entry) : Store :=
  store.insert e.target.name (.int e.value)

/-- Of several values that are stored under a name, the last one stays. -/
theorem getElem?_foldl_update (entries : List Entry) (store : Store) (name : String) :
    (entries.foldl update store)[name]? =
      ((entries.reverse.find? (·.target.name == name)).map fun e => .int e.value).or
        store[name]? := by
  induction entries using List.reverseRecOn with
  | nil => rfl
  | append_singleton entries e ih =>
    rw [List.foldl_concat, List.reverse_append, update, Std.TreeMap.getElem?_insert]
    by_cases he : e.target.name = name
    · simp [he]
    · simp [he, ih]

end Entry

/-- `Served policy raised entries last`: the entries follow one another, and for none of them a line
is asked for while the interrupt is raised. It is raised before them or not, and after them or not.
-/
inductive Served (policy : Policy) : Bool → List Entry → Bool → Prop where
  | done {raised : Bool} : Served policy raised [] raised
  | next {e : Entry} {entries : List Entry} {last : Bool} (he : e.Follows policy)
      (hrest : Served policy e.raises entries last) : Served policy false (e :: entries) last

/-- Without a substitute, all lines hold integers. -/
theorem Served.ofLine?_eq {policy : Policy} {raised last : Bool} {entries : List Entry}
    (h : Served policy raised entries last) (hpolicy : policy.inputFallback = .fail) :
    ∀ e ∈ entries, Integer.ofLine? e.line = some e.value := by
  induction h with
  | done => simp
  | next he _ ih =>
    refine List.forall_mem_cons.2 ⟨he.resolve_right fun hnone => ?_, ih⟩
    cases hpolicy.symm.trans hnone.2

/-- `Refuses policy p target raised exchanges fault`: the statement at `p` makes the exchanges for
`target` and then stops with the fault. Before them, the interrupt was raised or not. -/
inductive Refuses (policy : Policy) (p : Position) (target : Identifier) (raised : Bool) :
    List Exchange → RuntimeFault → Prop where
  | unread (details : String) (raises : Bool) :
      Refuses policy p target raised [.read target ⟨.error details, raises⟩] (.io details)
  | interrupted (line : Option String) (raises : Bool) (h : (raised || raises) = true) :
      Refuses policy p target raised [.read target ⟨.ok line, raises⟩, .interrupted p] .aborted
  | invalid (line : Option String) (hcalm : raised = false) (hline : Integer.ofLine? line = none)
      (hpolicy : policy.inputFallback = .fail) :
      Refuses policy p target raised [.read target ⟨.ok line, false⟩]
        (.invalidInput target.name (.ofLine line))
  | unwarned (line : Option String) (value : Integer) (details : String) (raises : Bool)
      (hcalm : raised = false) (hline : Integer.ofLine? line = none)
      (hpolicy : policy.inputFallback = .substitute value) :
      Refuses policy p target raised [.read target ⟨.ok line, false⟩,
        .warn target (.ofLine line) value ⟨.error details, raises⟩] (.io details)

/-- Input is invalid only without a substitute, and no warning is shown about it. -/
theorem Refuses.of_invalidInput {policy : Policy} {p : Position} {target : Identifier}
    {raised : Bool} {exchanges : List Exchange} {name : String} {defect : InputDefect}
    (h : Refuses policy p target raised exchanges (.invalidInput name defect)) :
    name = target.name ∧ policy.inputFallback = .fail ∧
      ∃ answer, exchanges = [.read target answer] := by
  cases h with
  | invalid line _ _ hpolicy => exact ⟨rfl, hpolicy, _, rfl⟩

namespace Setting

variable {setting : Setting σ γ} {here : Session σ γ} {p : Position} {target : Identifier}

/-- A request is answered, and then the action goes on with the result. -/
theorem conduct_ask_bind {request : Request} {answer : Answer request.Result} {s : σ} {g : γ}
    (h : request.answered setting.console setting.adviser here.console here.adviser =
      (answer, s, g)) (next : request.Result → Exec α) :
    setting.conduct (ask request >>= next) here =
      (setting.conduct (next answer.result)
        ⟨{ here.state with interrupted := here.state.interrupted || answer.raises }, s, g⟩).after
          [⟨request, here.state, answer⟩] := by
  have hask : setting.conduct (ask request) here = ⟨.ok answer.result,
      { here.state with interrupted := here.state.interrupted || answer.raises }, s, g,
      [⟨request, here.state, answer⟩]⟩ := by
    change Run.conduct _ _ (.paused _ _ _) _ _ = _
    rw [Run.conduct_paused, h]
    rfl
  rw [conduct_bind_of_ok next (congrArg Conducted.outcome hask), hask]
  rfl

/-- A line is read, or reading fails, or the interrupt is raised by the time the line is there. -/
theorem conduct_readLine (setting : Setting σ γ) (here : Session σ γ) (p : Position)
    (prompt : String) :
    let c := setting.conduct (readLine prompt p) here
    (∃ details raises, c.outcome = .error (.error ⟨.io details, p⟩) ∧
      c.exchanges = [⟨.readLine prompt, ⟨.error details, raises⟩⟩] ∧
      c.state.store = here.state.store) ∨
    (∃ line raises, (here.state.interrupted || raises) = true ∧
      c.outcome = .error (.error ⟨.aborted, p⟩) ∧
      c.exchanges = [⟨.readLine prompt, ⟨.ok line, raises⟩⟩, .interrupted p] ∧
      c.state.store = here.state.store) ∨
    ∃ line, here.state.interrupted = false ∧ c.outcome = .ok line ∧
      c.exchanges = [⟨.readLine prompt, ⟨.ok line, false⟩⟩] ∧ c.state = here.state := by
  obtain ⟨⟨store, interrupted⟩, s, g⟩ := here
  obtain ⟨⟨result, raises⟩, s', g', hanswer⟩ : ∃ answer s' g',
      (Request.readLine prompt).answered setting.console setting.adviser s g = (answer, s', g') :=
    ⟨_, _, _, rfl⟩
  rw [readLine, conduct_ask_bind hanswer]
  cases result with
  | error details => exact .inl ⟨details, raises, rfl, rfl, rfl⟩
  | ok line =>
    cases hraised : interrupted || raises with
    | true => exact .inr (.inl ⟨line, raises, hraised, rfl, rfl, rfl⟩)
    | false =>
      obtain ⟨rfl, rfl⟩ := Bool.or_eq_false_iff.1 hraised
      exact .inr (.inr ⟨line, rfl, rfl, rfl, rfl⟩)

/-- A usable line gives its integer, and an unusable one what the policy says. -/
theorem inputValue_eq (policy : Policy) (target : Identifier) (p : Position)
    (line : Option String) : inputValue policy target p line =
      match Integer.ofLine? line with
      | some value => pure value
      | none => fallback policy target (.ofLine line) p := by
  cases line with
  | none => rfl
  | some text =>
    rw [inputValue, Integer.ofLine?, Option.bind_some]
    cases Integer.ofText? (Text.trim text) <;> rfl

theorem conduct_fallback {line : Option String} (p : Position) (target : Identifier)
    (hcalm : here.state.interrupted = false)
    (hline : Integer.ofLine? line = none) :
    let c := setting.conduct (fallback setting.policy target (.ofLine line) p) here
    (∃ value alarm, setting.policy.inputFallback = .substitute value ∧ c.outcome = .ok value ∧
      c.exchanges = [.warn target (.ofLine line) value ⟨.ok (), alarm⟩] ∧
      c.state = ⟨here.state.store, alarm⟩) ∨
    ∃ fault, c.outcome = .error (.error ⟨fault, p⟩) ∧
      Refuses setting.policy p target false (.read target ⟨.ok line, false⟩ :: c.exchanges) fault ∧
      c.state.store = here.state.store := by
  obtain ⟨⟨store, interrupted⟩, s, g⟩ := here
  cases hcalm
  cases hpolicy : setting.policy.inputFallback with
  | fail =>
    simp only [fallback, hpolicy]
    exact .inr ⟨_, rfl, .invalid line rfl hline hpolicy, rfl⟩
  | substitute value =>
    simp only [fallback, hpolicy]
    obtain ⟨⟨result, raises⟩, s', g', hanswer⟩ : ∃ answer s' g',
        (Request.warn ((InputDefect.ofLine line).text ++ ", assigning " ++ value.text ++ " to " ++
          target.name)).answered setting.console setting.adviser s g = (answer, s', g') :=
      ⟨_, _, _, rfl⟩
    rw [Exec.warn, bind_assoc, conduct_ask_bind hanswer]
    cases result with
    | error details =>
      exact .inr ⟨_, rfl, .unwarned line value details raises rfl hline hpolicy, rfl⟩
    | ok done => exact .inl ⟨value, raises, rfl, rfl, rfl, rfl⟩

theorem conduct_assign (h : target.name ∈ here.state.store) (value : Value) :
    setting.conduct (assign target value) here =
      ⟨.ok (), { here.state with store := here.state.store.insert target.name value },
        here.console, here.adviser, []⟩ := by
  have hassign : here.state.store.assign target.name value =
      .ok (here.state.store.insert target.name value) := if_pos h
  change (((ofExcept (RuntimeError.locate target.position
    (here.state.store.assign target.name value))) here.state).andThen _).conduct _ _ _ _ = _
  rw [hassign]
  rfl

/-- What is done with a line: its target is served, or refused without a change of the store. -/
theorem conduct_useLine (setting : Setting σ γ) (p : Position) (line : Option String)
    (h : target.name ∈ here.state.store) (hcalm : here.state.interrupted = false) :
    let c := setting.conduct (inputValue setting.policy target p line >>= fun value =>
      assign target (.int value)) here
    (∃ e : Entry, e.target = target ∧ e.Follows setting.policy ∧ c.outcome = .ok () ∧
      .read target ⟨.ok line, false⟩ :: c.exchanges = e.exchanges ∧
      c.state = ⟨e.update here.state.store, e.raises⟩) ∨
    ∃ fault, c.outcome = .error (.error ⟨fault, p⟩) ∧
      Refuses setting.policy p target false (.read target ⟨.ok line, false⟩ :: c.exchanges) fault ∧
      c.state.store = here.state.store := by
  cases hline : Integer.ofLine? line with
  | some value =>
    have hvalue : inputValue setting.policy target p line = pure value := by
      rw [inputValue_eq, hline]
    rw [hvalue, pure_bind, conduct_assign h]
    refine .inl ⟨⟨target, line, value, false⟩, rfl, .inl hline, rfl, ?_, ?_⟩
    · simp [Entry.exchanges, hline, Conducted.exchanges]
    · simp [Entry.update, Entry.raises, hcalm]
  | none =>
    have hvalue : inputValue setting.policy target p line =
        fallback setting.policy target (.ofLine line) p := by
      rw [inputValue_eq, hline]
    rw [hvalue]
    rcases conduct_fallback p target hcalm hline with
      ⟨value, alarm, hpolicy, houtcome, hwarn, hstate⟩ | ⟨fault, houtcome, hrefuses, hstore⟩
    · have hbound : target.name ∈ (setting.conduct (fallback setting.policy target (.ofLine line) p)
          here).session.state.store := by
        rw [Conducted.session, hstate]
        exact h
      rw [conduct_bind_of_ok _ houtcome, conduct_assign hbound]
      refine .inl ⟨⟨target, line, value, alarm⟩, rfl, .inr ⟨hline, hpolicy⟩, rfl, ?_, ?_⟩
      · rw [Conducted.exchanges_after, hwarn]
        simp [Entry.exchanges, hline, Conducted.exchanges]
      · simp [Conducted.after, Conducted.session, Entry.update, Entry.raises, hstate, hline]
    · rw [conduct_bind_of_error _ houtcome]
      exact .inr ⟨fault, rfl, hrefuses, hstore⟩

/-- A target is served if the interrupt was not raised before, or it is refused and the store stays
as it is. -/
theorem conduct_readTarget (setting : Setting σ γ) (p : Position)
    (h : target.name ∈ here.state.store) :
    let c := setting.conduct (readTarget setting.policy p target) here
    (∃ e : Entry, e.target = target ∧ e.Follows setting.policy ∧ here.state.interrupted = false ∧
      c.outcome = .ok () ∧ c.exchanges = e.exchanges ∧
      c.state = ⟨e.update here.state.store, e.raises⟩) ∨
    ∃ fault, c.outcome = .error (.error ⟨fault, p⟩) ∧
      Refuses setting.policy p target here.state.interrupted c.exchanges fault ∧
      c.state.store = here.state.store := by
  rcases conduct_readLine setting here p ("Enter a value for " ++ target.name ++ ": ") with
    ⟨details, raises, houtcome, hread, hstore⟩ |
    ⟨line, raises, hraised, houtcome, hread, hstore⟩ | ⟨line, hcalm, houtcome, hread, hstate⟩
  · rw [readTarget, conduct_bind_of_error _ houtcome]
    refine .inr ⟨_, rfl, ?_, hstore⟩
    rw [Conducted.exchanges_halted, hread]
    exact .unread details raises
  · rw [readTarget, conduct_bind_of_error _ houtcome]
    refine .inr ⟨_, rfl, ?_, hstore⟩
    rw [Conducted.exchanges_halted, hread]
    exact .interrupted line raises hraised
  · rw [readTarget, conduct_bind_of_ok _ houtcome]
    have hthere : (setting.conduct (readLine ("Enter a value for " ++ target.name ++ ": ") p)
        here).session.state = here.state := hstate
    rw [hcalm]
    rcases conduct_useLine setting p line (by rwa [hthere]) (by rwa [hthere]) with
      ⟨e, htarget, hfollows, houtcome, huse, hafter⟩ | ⟨fault, houtcome, hrefuses, hstore⟩
    · refine .inl ⟨e, htarget, hfollows, rfl, houtcome, ?_, ?_⟩
      · rw [Conducted.exchanges_after, hread, ← huse]
        rfl
      · rw [← hthere]
        exact hafter
    · refine .inr ⟨fault, houtcome, ?_, ?_⟩
      · rw [Conducted.exchanges_after, hread]
        exact hrefuses
      · rw [← hthere]
        exact hstore

/-- The targets are served in turn up to the end, or up to one that is refused. -/
theorem conduct_readTargets (setting : Setting σ γ) (p : Position) (targets : List Identifier)
    {here : Session σ γ} (h : ∀ target ∈ targets, target.name ∈ here.state.store) :
    let c := setting.conduct (readTargets setting.policy p targets) here
    (∃ entries : List Entry, entries.map Entry.target = targets ∧
      Served setting.policy here.state.interrupted entries c.state.interrupted ∧
      c.outcome = .ok () ∧ c.exchanges = entries.flatMap Entry.exchanges ∧
      c.state.store = entries.foldl Entry.update here.state.store) ∨
    ∃ entries target rest raised exchanges fault,
      targets = entries.map Entry.target ++ target :: rest ∧
      Served setting.policy here.state.interrupted entries raised ∧
      Refuses setting.policy p target raised exchanges fault ∧
      c.outcome = .error (.error ⟨fault, p⟩) ∧
      c.exchanges = entries.flatMap Entry.exchanges ++ exchanges ∧
      c.state.store = entries.foldl Entry.update here.state.store := by
  induction targets generalizing here with
  | nil => exact .inl ⟨[], rfl, .done, rfl, rfl, rfl⟩
  | cons target targets ih =>
    obtain ⟨htarget, htargets⟩ := List.forall_mem_cons.1 h
    rcases conduct_readTarget setting p htarget with
      ⟨e, rfl, hfollows, hcalm, houtcome, hread, hstate⟩ | ⟨fault, houtcome, hrefuses, hstore⟩
    · rw [readTargets, conduct_bind_of_ok _ houtcome, hcalm]
      have hthere : (setting.conduct (readTarget setting.policy p e.target) here).session.state =
          ⟨e.update here.state.store, e.raises⟩ := hstate
      have hbound : ∀ target ∈ targets, target.name ∈
          (setting.conduct (readTarget setting.policy p e.target) here).session.state.store := by
        intro target hmem
        rw [hthere]
        exact Std.TreeMap.mem_insert.2 (.inr (htargets target hmem))
      have hrest := ih hbound
      rw [hthere] at hrest
      rcases hrest with ⟨entries, hentries, hserved, hok, hexchanges, hstore⟩ |
        ⟨entries, target, rest, raised, exchanges, fault, hentries, hserved, hrefuses, herror,
          hexchanges, hstore⟩
      · refine .inl ⟨e :: entries, by rw [List.map_cons, hentries], .next hfollows hserved, hok, ?_,
          hstore⟩
        rw [Conducted.exchanges_after, hread, hexchanges, List.flatMap_cons]
      · refine .inr ⟨e :: entries, target, rest, raised, exchanges, fault,
          by rw [hentries, List.map_cons, List.cons_append], .next hfollows hserved, hrefuses,
          herror, ?_, hstore⟩
        rw [Conducted.exchanges_after, hread, hexchanges, List.flatMap_cons,
          List.append_assoc]
    · rw [readTargets, conduct_bind_of_error _ houtcome]
      exact .inr ⟨[], target, targets, _, _, fault, rfl, .done, hrefuses, rfl, rfl, hstore⟩

end Setting

/-- No warning is shown for a line that holds an integer. -/
theorem Entry.ne_warn_of_mem_exchanges {e : Entry} (h : Integer.ofLine? e.line = some e.value) :
    ∀ exchange ∈ e.exchanges, ∀ message, exchange.1 ≠ .warn message := by
  simp [Entry.exchanges, h, Exchange.read]

/-- A read statement whose targets are bound serves them in turn: for each it prompts once, shows a
warning exactly if the line is unusable, and stores the value. If a target is refused, those before
it have their new values, and nothing was asked for those after it. -/
theorem read_serves_targets_in_turn (setting : Setting σ γ) (targets : List Identifier)
    (p : Position) (here : Session σ γ)
    (hbound : ∀ target ∈ targets, target.name ∈ here.state.store)
    (hcalm : here.state.interrupted = false) :
    let c := setting.execute (.read targets p) here
    (c.outcome = .ok () → ∃ entries : List Entry,
      entries.map Entry.target = targets ∧
      Served setting.policy false entries c.state.interrupted ∧
      c.exchanges = entries.flatMap Entry.exchanges ∧
      c.state.store = entries.foldl Entry.update here.state.store ∧
      ∀ name, c.state.store[name]? =
        ((entries.reverse.find? (·.target.name == name)).map fun e => .int e.value).or
          here.state.store[name]?) ∧
    ∀ cause, c.outcome = .error cause → ∃ entries target rest raised exchanges fault,
      cause = .error ⟨fault, p⟩ ∧
      targets = entries.map Entry.target ++ target :: rest ∧
      Served setting.policy false entries raised ∧
      Refuses setting.policy p target raised exchanges fault ∧
      c.exchanges = entries.flatMap Entry.exchanges ++ exchanges ∧
      c.state.store = entries.foldl Entry.update here.state.store ∧
      ∀ name defect, fault = .invalidInput name defect → name = target.name ∧
        setting.policy.inputFallback = .fail ∧
        (∀ e ∈ entries, Integer.ofLine? e.line = some e.value) ∧
        ∀ exchange ∈ c.exchanges, ∀ message, exchange.1 ≠ .warn message := by
  have hexec : setting.execute (.read targets p) here =
      setting.conduct (readTargets setting.policy p targets) here :=
    Setting.conduct_bind_of_ended _ (Setting.checkInterrupt_of_not_interrupted hcalm)
  intro c
  have hcases := Setting.conduct_readTargets setting p targets hbound
  rw [← hexec, hcalm] at hcases
  rcases hcases with ⟨entries, hentries, hserved, hok, hexchanges, hstore⟩ |
    ⟨entries, target, rest, raised, exchanges, fault, hentries, hserved, hrefuses, herror,
      hexchanges, hstore⟩
  · refine ⟨fun _ => ⟨entries, hentries, hserved, hexchanges, hstore, fun name => ?_⟩,
      fun cause hcause => ?_⟩
    · rw [hstore, Entry.getElem?_foldl_update]
    · cases hok.symm.trans hcause
  · refine ⟨fun hok => ?_, fun cause hcause => ?_⟩
    · cases herror.symm.trans hok
    · obtain rfl := Except.error.inj (herror.symm.trans hcause)
      refine ⟨entries, target, rest, raised, exchanges, fault, rfl, hentries, hserved, hrefuses,
        hexchanges, hstore, fun name defect hfault => ?_⟩
      subst hfault
      obtain ⟨hname, hpolicy, answer, rfl⟩ := hrefuses.of_invalidInput
      have husable := hserved.ofLine?_eq hpolicy
      refine ⟨hname, hpolicy, husable, fun exchange hmem => ?_⟩
      rw [hexchanges, List.mem_append, List.mem_flatMap, List.mem_singleton] at hmem
      rcases hmem with ⟨e, he, hmem⟩ | rfl
      · exact Entry.ne_warn_of_mem_exchanges (husable e he) exchange hmem
      · simp [Exchange.read]

def Session.twoLines : Session Script Unit :=
  ⟨⟨((∅ : Store).insert "x" (.int 1)).insert "y" (.int 2), false⟩,
    ⟨[" 7 ", "seven"], #[], #[], #[]⟩, ()⟩

/-- With a substitute the end of input comes third, and `x` gets a value twice. Without one, the
second line is refused after `x` has got the first. -/
theorem read_serves_targets_in_turn_twoLines :
    let here := Session.twoLines
    let targets : List Identifier := [⟨"x", .start⟩, ⟨"y", .start⟩, ⟨"x", .start⟩]
    let lenient : Setting Script Unit := ⟨Script.console, .silent, {}, 0⟩
    let strict : Setting Script Unit :=
      ⟨Script.console, .silent, { inputFallback := .fail }, 0⟩
    let served := lenient.execute (.read targets .start) here
    let refused := strict.execute (.read targets .start) here
    (∀ target ∈ targets, target.name ∈ here.state.store) ∧ here.state.interrupted = false ∧
    (served.outcome = .ok () ∧ served.exchanges.length = 5 ∧
      served.state.store["x"]? = some (.int 0) ∧
      ∃ entries : List Entry, entries.map Entry.target = targets ∧
        Served lenient.policy false entries served.state.interrupted ∧
        served.exchanges = entries.flatMap Entry.exchanges) ∧
    (refused.outcome = .error (.error ⟨.invalidInput "y" (.notANumber "seven"), .start⟩) ∧
      refused.state.store["x"]? = some (.int 7) ∧ refused.state.store["y"]? = some (.int 2) ∧
      ∃ (entries : List Entry) (target : Identifier) (rest : List Identifier),
        targets = entries.map Entry.target ++ target :: rest ∧
        refused.state.store = entries.foldl Entry.update here.state.store) := by
  intro here targets lenient strict served refused
  have hbound : ∀ target ∈ targets, target.name ∈ here.state.store := by decide +kernel
  refine ⟨hbound, rfl, ⟨rfl, rfl, by decide +kernel, ?_⟩,
    ⟨rfl, by decide +kernel, by decide +kernel, ?_⟩⟩
  · obtain ⟨entries, hentries, hserved, hexchanges, -⟩ :=
      (read_serves_targets_in_turn lenient targets .start here hbound rfl).1 rfl
    exact ⟨entries, hentries, hserved, hexchanges⟩
  · obtain ⟨entries, target, rest, -, -, -, -, hentries, -, -, -, hstore, -⟩ :=
      (read_serves_targets_in_turn strict targets .start here hbound rfl).2 _ rfl
    exact ⟨entries, target, rest, hentries, hstore⟩

end TinyPascal
