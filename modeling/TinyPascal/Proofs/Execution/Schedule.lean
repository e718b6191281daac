import Mathlib.Tactic
import TinyPascal.Execution.Session
import TinyPascal.Proofs.Execution.Guarding
import TinyPascal.Proofs.Execution.Interruption

/-!
# The schedule of loop guards

The execution of a loop is made of events: rounds of its body, and consultations of its guard. What
an execution of a loop is made of is first said without any schedule, with a guard that may be
consulted at any time and with any number. It then turns out that the events follow one: with the
limit `k` there is a consultation after every `k`th completed round, with the number of rounds, and
none at another time. A round may hold executions of other loops, and each of them has its own
events, counted from zero.
-/
namespace TinyPascal

open Exec

variable {α β σ γ : Type}

namespace Conducted

def session (c : Conducted α σ γ) : Session σ γ :=
  ⟨c.state, c.console, c.adviser⟩

/-- A conducted run with the moments of what came before it. -/
def after (past : List Moment) (c : Conducted α σ γ) : Conducted α σ γ :=
  { c with moments := past ++ c.moments }

/-- A conducted run that halts does not depend on what its result is for. -/
def halted (cause : Halt) (c : Conducted α σ γ) : Conducted β σ γ :=
  ⟨.error cause, c.state, c.console, c.adviser, c.moments⟩

end Conducted

/-- All that the execution of a statement depends on apart from where it starts. -/
structure Setting (σ γ : Type) where
  console : Console σ
  adviser : Adviser γ
  policy : Policy
  fuel : ℕ

namespace Setting

variable (setting : Setting σ γ)

def conduct (action : Exec α) (here : Session σ γ) : Conducted α σ γ :=
  (action here.state).conduct setting.console setting.adviser here.console here.adviser

def execute (s : Statement) (here : Session σ γ) : Conducted Unit σ γ :=
  setting.conduct (s.exec setting.policy setting.fuel) here

def executeAll (body : List Statement) (here : Session σ γ) : Conducted Unit σ γ :=
  setting.conduct (Statement.execAll setting.policy setting.fuel body) here

variable {setting} {here : Session σ γ} {x : Exec α} {a : α} {cause : Halt}

theorem conduct_bind (x : Exec α) (next : α → Exec β) (here : Session σ γ) :
    setting.conduct (x >>= next) here = (setting.conduct x here).andThen
      fun a state s g => setting.conduct (next a) ⟨state, s, g⟩ :=
  Run.conduct_andThen ..

theorem conduct_bind_of_ok (next : α → Exec β) (h : (setting.conduct x here).outcome = .ok a) :
    setting.conduct (x >>= next) here =
      (setting.conduct (next a) (setting.conduct x here).session).after
        (setting.conduct x here).moments := by
  rw [conduct_bind, Conducted.andThen, h]
  rfl

theorem conduct_bind_of_error (next : α → Exec β)
    (h : (setting.conduct x here).outcome = .error cause) :
    setting.conduct (x >>= next) here = (setting.conduct x here).halted cause := by
  rw [conduct_bind, Conducted.andThen, h]
  rfl

/-- What makes no request and changes nothing leaves no trace. -/
theorem conduct_bind_of_ended (next : α → Exec β)
    (h : x here.state = .ended (.ok a) here.state) :
    setting.conduct (x >>= next) here = setting.conduct (next a) here := by
  change ((x here.state).andThen next).conduct _ _ _ _ = _
  rw [h]
  rfl

theorem conduct_bind_of_halted (next : α → Exec β)
    (h : x here.state = .ended (.error cause) here.state) :
    setting.conduct (x >>= next) here = setting.conduct (halt cause) here := by
  change ((x here.state).andThen next).conduct _ _ _ _ = _
  rw [h]
  rfl

theorem checkInterrupt_of_not_interrupted {p : Position} {state : State}
    (h : state.interrupted = false) : checkInterrupt p state = .ended (.ok ()) state := by
  obtain ⟨store, interrupted⟩ := state
  cases h
  rfl

theorem outcome_checkInterrupt {p : Position} (h : here.state.interrupted = true) :
    (setting.conduct (checkInterrupt p) here).outcome = .error (.error ⟨.aborted, p⟩) := by
  obtain ⟨⟨store, interrupted⟩, s, g⟩ := here
  cases h
  rfl

theorem outcome_stopLoop (p : Position) (n : ℕ) :
    (setting.conduct (stopLoop p n) here).outcome = .error (.error ⟨.loopStopped n, p⟩) := rfl

end Setting

/-- What happens in the execution of a loop: a round of its body, from a start, and a consultation
of its guard, with a number of iterations. -/
inductive LoopEvent (σ γ : Type) where
  | round (start : Session σ γ) (conducted : Conducted Unit σ γ)
  | consultation (iterations : ℕ) (conducted : Conducted Bool σ γ)

namespace LoopEvent

def moments : LoopEvent σ γ → List Moment
  | round _ c => c.moments
  | consultation _ c => c.moments

end LoopEvent

/-- The trace of the events of a loop: its completed iterations, and the consultations of its guard
with their numbers. -/
inductive LoopMark where
  | iteration
  | consultation (iterations : ℕ)
deriving DecidableEq, Repr

namespace LoopMark

def isConsultation : LoopMark → Bool
  | iteration => false
  | consultation _ => true

/-- The marks of `m` more iterations after those `done`, if the guard is consulted when it is due.
-/
def schedule (due : ℕ → Bool) (done m : ℕ) : List LoopMark :=
  (List.range' (done + 1) m).flatMap fun i =>
    iteration :: if due i then [consultation i] else []

theorem schedule_zero (due : ℕ → Bool) (done : ℕ) : schedule due done 0 = [] := rfl

theorem schedule_succ (due : ℕ → Bool) (done m : ℕ) :
    schedule due done (m + 1) =
      iteration :: (if due (done + 1) then [consultation (done + 1)] else []) ++
        schedule due (done + 1) m := by
  rw [schedule, List.range'_succ, List.flatMap_cons, schedule]

/-- A guard that is due at the multiples of `k` is consulted at one in `k` iterations. -/
theorem countP_schedule (k m : ℕ) :
    (schedule (fun i => k ∣ i) 0 m).countP isConsultation = m / k := by
  induction m with
  | zero => simp [schedule_zero]
  | succ m ih =>
    have hlast : schedule (fun i => k ∣ i) 0 (m + 1) = schedule (fun i => k ∣ i) 0 m ++
        iteration :: if k ∣ m + 1 then [consultation (m + 1)] else [] := by
      rw [schedule, List.range'_1_concat, List.flatMap_append, schedule]
      simp [Nat.add_comm]
    rw [hlast, List.countP_append, ih, Nat.succ_div]
    split_ifs <;> simp [isConsultation]

theorem count_schedule (due : ℕ → Bool) (done m : ℕ) :
    (schedule due done m).count iteration = m := by
  induction m generalizing done with
  | zero => rfl
  | succ m ih =>
    rw [schedule_succ, List.count_append, ih]
    split_ifs <;> simp [Nat.add_comm]

theorem due_of_mem_schedule {due : ℕ → Bool} {done m n : ℕ}
    (h : consultation n ∈ schedule due done m) : done < n ∧ due n = true := by
  obtain ⟨i, hi, hn⟩ := List.mem_flatMap.1 h
  by_cases hdue : due i = true
  · simp only [hdue, if_true, List.mem_cons, reduceCtorEq, consultation.injEq, false_or,
      List.not_mem_nil, or_false] at hn
    subst hn
    rw [List.mem_range'_1] at hi
    exact ⟨by omega, hdue⟩
  · simp [hdue] at hn

/-- A guard that is never due is never consulted. -/
theorem schedule_of_never {due : ℕ → Bool} {done : ℕ} (hnever : ∀ i, done < i → due i = false)
    (m : ℕ) : schedule due done m = List.replicate m iteration := by
  induction m generalizing done with
  | zero => rfl
  | succ m ih =>
    have hlater : ∀ i, done + 1 < i → due i = false := fun i hi => hnever i (by omega)
    rw [schedule_succ, hnever (done + 1) (by omega), ih hlater]
    rfl

end LoopMark

namespace LoopEvent

/-- The mark that an event leaves. A round that is not completed leaves none. -/
def mark : LoopEvent σ γ → Option LoopMark
  | round _ c => if c.outcome.isOk then some .iteration else none
  | consultation n _ => some (.consultation n)

def marks (events : List (LoopEvent σ γ)) : List LoopMark :=
  events.filterMap mark

theorem marks_round {start : Session σ γ} {c : Conducted Unit σ γ} (h : c.outcome = .ok ())
    (events : List (LoopEvent σ γ)) :
    marks (round start c :: events) = .iteration :: marks events := by
  have hmark : (round start c).mark = some .iteration := by
    rw [mark, h]
    rfl
  rw [marks, List.filterMap_cons, hmark, marks]

theorem marks_consultation (n : ℕ) (c : Conducted Bool σ γ) (events : List (LoopEvent σ γ)) :
    marks (consultation n c :: events) = .consultation n :: marks events := rfl

theorem mem_marks {n : ℕ} {c : Conducted Bool σ γ} {events : List (LoopEvent σ γ)}
    (h : consultation n c ∈ events) : .consultation n ∈ marks events :=
  List.mem_filterMap.2 ⟨_, h, rfl⟩

end LoopEvent

/-- `setting.LoopRuns condition body p done here events c`: from `here`, and after the iterations
`done`, the rest of an execution of a loop at `p` is `c`, and it is made of the events. The guard
may be consulted before any round, and with any number; it says yes, or no, or cannot be asked. -/
inductive Setting.LoopRuns (setting : Setting σ γ) (condition : Expr) (body : Statement)
    (p : Position) :
    (done : ℕ) → (here : Session σ γ) → List (LoopEvent σ γ) → Conducted Unit σ γ → Prop where
  | interrupted {here : Session σ γ} (h : here.state.interrupted = true) :
      LoopRuns setting condition body p 0 here [] (setting.conduct (checkInterrupt p) here)
  | exhausted {done : ℕ} {here : Session σ γ} :
      LoopRuns setting condition body p done here [] (setting.conduct (halt .outOfFuel) here)
  | finished {done : ℕ} {here : Session σ γ}
      (h : holds condition here.state = .ended (.ok false) here.state) :
      LoopRuns setting condition body p done here []
        (setting.conduct (note (.loopFinished done p)) here)
  | faulted {done : ℕ} {here : Session σ γ} {cause : Halt}
      (h : holds condition here.state = .ended (.error cause) here.state) :
      LoopRuns setting condition body p done here [] (setting.conduct (halt cause) here)
  | broken {done : ℕ} {here : Session σ γ} {c : Conducted Unit σ γ} {cause : Halt}
      (h : holds condition here.state = .ended (.ok true) here.state)
      (hbody : setting.execute body here = c) (houtcome : c.outcome = .error cause) :
      LoopRuns setting condition body p done here [.round here c] c
  | round {done : ℕ} {here : Session σ γ} {events : List (LoopEvent σ γ)}
      {c d : Conducted Unit σ γ}
      (h : holds condition here.state = .ended (.ok true) here.state)
      (hbody : setting.execute body here = c) (houtcome : c.outcome = .ok ())
      (hrest : LoopRuns setting condition body p (done + 1) c.session events d) :
      LoopRuns setting condition body p done here (.round here c :: events) (d.after c.moments)
  | consulted {done : ℕ} {here : Session σ γ} {events : List (LoopEvent σ γ)} {n : ℕ}
      {c : Conducted Bool σ γ} {d : Conducted Unit σ γ}
      (hguard : setting.conduct (confirm setting.policy p n) here = c)
      (houtcome : c.outcome = .ok true)
      (hrest : LoopRuns setting condition body p done c.session events d) :
      LoopRuns setting condition body p done here (.consultation n c :: events)
        (d.after c.moments)
  | stopped {done : ℕ} {here : Session σ γ} {n : ℕ} {c : Conducted Bool σ γ}
      (hguard : setting.conduct (confirm setting.policy p n) here = c)
      (houtcome : c.outcome = .ok false) :
      LoopRuns setting condition body p done here [.consultation n c]
        ((setting.conduct (stopLoop p n) c.session).after c.moments)
  | unanswered {done : ℕ} {here : Session σ γ} {n : ℕ} {c : Conducted Bool σ γ} {cause : Halt}
      (hguard : setting.conduct (confirm setting.policy p n) here = c)
      (houtcome : c.outcome = .error cause) :
      LoopRuns setting condition body p done here [.consultation n c] (c.halted cause)

namespace Setting

variable {setting : Setting σ γ} {condition : Expr} {body : Statement} {p : Position} {done : ℕ}
  {here : Session σ γ} {events : List (LoopEvent σ γ)} {c : Conducted Unit σ γ}

/-- How an event fits into an execution `c` of a loop that is made of the events: a round executes
the body, a consultation asks the guard, and with any answer but yes the loop is over. -/
inductive EventFits (setting : Setting σ γ) (body : Statement) (p : Position)
    (events : List (LoopEvent σ γ)) (c : Conducted Unit σ γ) : LoopEvent σ γ → Prop where
  | round {start : Session σ γ} {d : Conducted Unit σ γ} (hbody : setting.execute body start = d) :
      EventFits setting body p events c (.round start d)
  | yes {n : ℕ} {there : Session σ γ} {d : Conducted Bool σ γ}
      (hguard : setting.conduct (confirm setting.policy p n) there = d)
      (hyes : d.outcome = .ok true) : EventFits setting body p events c (.consultation n d)
  | no {n : ℕ} {there : Session σ γ} {d : Conducted Bool σ γ} (past : List Moment)
      (hguard : setting.conduct (confirm setting.policy p n) there = d)
      (hno : d.outcome = .ok false) (hlast : events.getLast? = some (.consultation n d))
      (hend : c = (setting.conduct (stopLoop p n) d.session).after (past ++ d.moments)) :
      EventFits setting body p events c (.consultation n d)
  | unanswered {n : ℕ} {there : Session σ γ} {d : Conducted Bool σ γ} {cause : Halt}
      (hguard : setting.conduct (confirm setting.policy p n) there = d)
      (hcause : d.outcome = .error cause) (hend : c.outcome = .error cause) :
      EventFits setting body p events c (.consultation n d)

theorem EventFits.later {event : LoopEvent σ γ} (h : EventFits setting body p events c event)
    (first : LoopEvent σ γ) (past : List Moment) :
    EventFits setting body p (first :: events) (c.after past) event := by
  cases h with
  | round hbody => exact .round hbody
  | yes hguard hyes => exact .yes hguard hyes
  | no earlier hguard hno hlast hend =>
    apply EventFits.no (past ++ earlier) hguard hno
    · rw [List.getLast?_cons, hlast]
      rfl
    · rw [hend]
      simp [Conducted.after]
  | unanswered hguard hcause hend => exact .unanswered hguard hcause hend

namespace LoopRuns

theorem eventFits (hruns : setting.LoopRuns condition body p done here events c)
    {event : LoopEvent σ γ} (hmem : event ∈ events) :
    EventFits setting body p events c event := by
  induction hruns with
  | interrupted | exhausted | finished | faulted => simp at hmem
  | broken h hbody houtcome =>
    obtain rfl := List.mem_singleton.1 hmem
    exact .round hbody
  | round h hbody houtcome hrest ih =>
    rcases List.mem_cons.1 hmem with rfl | hmem
    · exact .round hbody
    · exact (ih hmem).later _ _
  | consulted hguard houtcome hrest ih =>
    rcases List.mem_cons.1 hmem with rfl | hmem
    · exact .yes hguard houtcome
    · exact (ih hmem).later _ _
  | stopped hguard houtcome =>
    obtain rfl := List.mem_singleton.1 hmem
    exact .no [] hguard houtcome rfl rfl
  | unanswered hguard houtcome =>
    obtain rfl := List.mem_singleton.1 hmem
    exact .unanswered hguard houtcome rfl

/-- Nothing but a last note comes in addition to the events. -/
theorem moments_eq (hruns : setting.LoopRuns condition body p done here events c) :
    ∃ tail, c.moments = events.flatMap LoopEvent.moments ++ tail ∧
      ∀ m ∈ tail, m.request.isNote = true := by
  induction hruns with
  | @interrupted here h =>
    obtain ⟨⟨store, interrupted⟩, s, g⟩ := here
    cases h
    exact ⟨[_], rfl, by simp [Request.isNote]⟩
  | exhausted => exact ⟨[], rfl, by simp⟩
  | finished h => exact ⟨[_], rfl, by simp [Request.isNote]⟩
  | faulted h => exact ⟨[], rfl, by simp⟩
  | broken h hbody houtcome => exact ⟨[], by simp [LoopEvent.moments], by simp⟩
  | round h hbody houtcome hrest ih =>
    obtain ⟨tail, htail, hnotes⟩ := ih
    exact ⟨tail, by simp [Conducted.after, LoopEvent.moments, htail], hnotes⟩
  | consulted hguard houtcome hrest ih =>
    obtain ⟨tail, htail, hnotes⟩ := ih
    exact ⟨tail, by simp [Conducted.after, LoopEvent.moments, htail], hnotes⟩
  | @stopped _ _ n c hguard houtcome =>
    refine ⟨(setting.conduct (stopLoop p n) c.session).moments, ?_, ?_⟩
    · simp [Conducted.after, LoopEvent.moments]
    · intro m hm
      obtain rfl := List.mem_singleton.1 hm
      rfl
  | unanswered hguard houtcome =>
    exact ⟨[], by simp [Conducted.halted, LoopEvent.moments], by simp⟩

/-- A loop that comes to its end takes note of the number of its iterations. -/
theorem getLast?_of_ok (hruns : setting.LoopRuns condition body p done here events c)
    (hok : c.outcome = .ok ()) :
    (c.moments.map Moment.request).getLast? =
      some (.note (.loopFinished (done + (LoopEvent.marks events).count .iteration) p)) := by
  induction hruns with
  | interrupted h =>
    rw [outcome_checkInterrupt h] at hok
    cases hok
  | exhausted | faulted | stopped | unanswered => cases hok
  | finished => rfl
  | broken h hbody houtcome =>
    rw [houtcome] at hok
    cases hok
  | round h hbody houtcome hrest ih =>
    rw [Conducted.after, List.map_append, List.getLast?_append, ih hok,
      LoopEvent.marks_round houtcome, List.count_cons_self, Nat.add_right_comm]
    rfl
  | consulted hguard houtcome hrest ih =>
    rw [Conducted.after, List.map_append, List.getLast?_append, ih hok,
      LoopEvent.marks_consultation, List.count_cons_of_ne (by simp)]
    rfl

end LoopRuns

/-- After a round the guard is consulted if it is due, and then comes the rest of the loop, if any.
-/
theorem exists_loopRuns_guardLoop {rest : Exec Unit} {marks : ℕ → List LoopMark}
    (hmarks : marks 0 = [])
    (hrest : ∀ there, ∃ events m,
      setting.LoopRuns condition body p done there events (setting.conduct rest there) ∧
      LoopEvent.marks events = marks m) (n : ℕ) (here : Session σ γ) :
    ∃ events m,
      setting.LoopRuns condition body p done here events
        (setting.conduct (guardLoop setting.policy p n >>= fun _ => rest) here) ∧
      LoopEvent.marks events =
        (if setting.policy.guards n then [.consultation n] else []) ++ marks m := by
  cases hguards : setting.policy.guards n with
  | false =>
    rw [guardLoop_of_not_guards hguards]
    exact hrest here
  | true =>
    rw [guardLoop_of_guards hguards, bind_assoc]
    cases houtcome : (setting.conduct (confirm setting.policy p n) here).outcome with
    | error cause =>
      rw [conduct_bind_of_error _ houtcome]
      exact ⟨_, 0, .unanswered rfl houtcome, by rw [hmarks]; rfl⟩
    | ok goesOn =>
      rw [conduct_bind_of_ok _ houtcome]
      cases goesOn with
      | false =>
        have hstop : setting.conduct (stopLoop p n >>= fun _ => rest)
            (setting.conduct (confirm setting.policy p n) here).session = _ :=
          conduct_bind_of_error _ (outcome_stopLoop p n)
        refine ⟨[.consultation n (setting.conduct (confirm setting.policy p n) here)], 0, ?_,
          by rw [hmarks]; rfl⟩
        rw [if_neg Bool.false_ne_true, hstop]
        exact .stopped rfl houtcome
      | true =>
        obtain ⟨events, m, hruns, hevents⟩ :=
          hrest (setting.conduct (confirm setting.policy p n) here).session
        exact ⟨_, m, .consulted rfl houtcome hruns, congrArg _ hevents⟩

/-- The rest of a loop is made of events that follow the schedule. The induction is on the fuel of
the loop, and each round adds its own marks to those of the rest. -/
theorem exists_loopRuns (setting : Setting σ γ) (condition : Expr) (body : Statement)
    (p : Position) (fuel done : ℕ) (here : Session σ γ) :
    ∃ events m,
      setting.LoopRuns condition body p done here events
        (setting.conduct (loop setting.policy p (holds condition)
          (body.exec setting.policy setting.fuel) fuel done) here) ∧
      LoopEvent.marks events = LoopMark.schedule setting.policy.guards done m := by
  induction fuel generalizing done here with
  | zero => exact ⟨[], 0, .exhausted, rfl⟩
  | succ fuel ih =>
    obtain ⟨outcome, hholds⟩ := Silent.holds condition here.state
    rw [loop]
    rcases outcome with cause | _ | _
    · rw [conduct_bind_of_halted _ hholds]
      exact ⟨[], 0, .faulted hholds, rfl⟩
    · rw [conduct_bind_of_ended _ hholds]
      exact ⟨[], 0, .finished hholds, rfl⟩
    rw [conduct_bind_of_ended _ hholds, if_pos rfl]
    cases hbody : (setting.execute body here).outcome with
    | error cause =>
      have hbroken : (setting.execute body here).halted cause = setting.execute body here := by
        rw [Conducted.halted, ← hbody]
      rw [conduct_bind_of_error _ hbody]
      refine ⟨[.round here (setting.execute body here)], 0, ?_, ?_⟩
      · change setting.LoopRuns _ _ _ _ _ _ ((setting.execute body here).halted cause)
        rw [hbroken]
        exact .broken hholds rfl hbody
      · simp [LoopEvent.marks, LoopEvent.mark, hbody, LoopMark.schedule_zero, Except.isOk,
          Except.toBool]
    | ok _ =>
      rw [conduct_bind_of_ok _ hbody]
      obtain ⟨events, m, hruns, hevents⟩ :=
        exists_loopRuns_guardLoop (LoopMark.schedule_zero _ (done + 1)) (ih (done + 1)) (done + 1)
          (setting.execute body here).session
      refine ⟨.round here (setting.execute body here) :: events, m + 1,
        .round hholds rfl hbody hruns, ?_⟩
      rw [LoopEvent.marks_round hbody, hevents, LoopMark.schedule_succ, List.cons_append]

/-- Every execution of a loop is made of events that follow the schedule, from zero on. -/
theorem exists_loopRuns_execute (setting : Setting σ γ) (condition : Expr) (body : Statement)
    (p : Position) (here : Session σ γ) :
    ∃ events m,
      setting.LoopRuns condition body p 0 here events
        (setting.execute (.whileDo condition body p) here) ∧
      LoopEvent.marks events = LoopMark.schedule setting.policy.guards 0 m := by
  rw [execute, Statement.exec]
  cases hinterrupt : here.state.interrupted with
  | true =>
    have hhalted : (setting.conduct (checkInterrupt p) here).halted
        (.error ⟨.aborted, p⟩) = setting.conduct (checkInterrupt p) here := by
      rw [Conducted.halted, ← outcome_checkInterrupt hinterrupt]
    rw [conduct_bind_of_error _ (outcome_checkInterrupt hinterrupt), hhalted]
    exact ⟨[], 0, .interrupted hinterrupt, rfl⟩
  | false =>
    rw [conduct_bind_of_ended _ (checkInterrupt_of_not_interrupted hinterrupt)]
    exact exists_loopRuns setting condition body p setting.fuel 0 here

end Setting

def LoopGuard.questions : LoopGuard → (iterations : ℕ) → List Request
  | prompt, iterations =>
    [.readLine ("Loop executed " ++ Text.decimal iterations ++ " times. Continue? (y/n): ")]
  | consult, iterations => [.consult iterations]
  | proceed, _ | abort, _ => []

def Conducted.asked (c : Conducted α σ γ) : List Request :=
  (c.moments.map Moment.request).filter fun request => !request.isNote

namespace Setting

variable {setting : Setting σ γ} {condition : Expr} {body : Statement} {p : Position} {done : ℕ}
  {here : Session σ γ} {events : List (LoopEvent σ γ)} {c : Conducted Unit σ γ}

theorem asked_readLine (setting : Setting σ γ) (prompt : String) (p : Position)
    (here : Session σ γ) :
    (setting.conduct (readLine prompt p) here).asked = [.readLine prompt] := by
  have hask : (setting.conduct (ask (.readLine prompt)) here).outcome =
    .ok (setting.console.readLine prompt here.console).1.result := rfl
  have hrest (result : Except String (Option String)) (there : Session σ γ) :
      (setting.conduct (orFail p result >>= fun line => checkInterrupt p >>= fun _ => pure line)
        there).asked = [] := by
    obtain ⟨⟨store, interrupted⟩, s, g⟩ := there
    cases result with
    | error details => rfl
    | ok line => cases interrupted <;> rfl
  rw [readLine, conduct_bind_of_ok _ hask]
  exact congrArg (_ :: ·) (hrest _ _)

/-- To use a result makes no request. -/
theorem asked_map (x : Exec α) (f : α → β) :
    (setting.conduct (x >>= fun a => pure (f a)) here).asked =
      (setting.conduct x here).asked := by
  cases houtcome : (setting.conduct x here).outcome with
  | error cause =>
    rw [conduct_bind_of_error _ houtcome]
    rfl
  | ok a =>
    rw [conduct_bind_of_ok _ houtcome]
    simp only [Conducted.asked, Conducted.after]
    change ((_ ++ []).map _).filter _ = _
    rw [List.append_nil]

/-- A guard asks its question once, and with the number of iterations. -/
theorem asked_confirm (n : ℕ) (here : Session σ γ) :
    (setting.conduct (confirm setting.policy p n) here).asked =
      setting.policy.loopGuard.questions n := by
  unfold confirm
  cases setting.policy.loopGuard with
  | proceed | abort | consult => rfl
  | prompt =>
    rw [LoopGuard.questions, ← asked_readLine setting _ p here]
    exact asked_map _ _

end Setting

namespace Policy

variable {policy : Policy} {k : ℕ}

theorem guards_of_limit (h : policy.loopLimit = some k) : policy.guards = fun i => k ∣ i := by
  funext i
  simp [guards, h, Nat.dvd_iff_mod_eq_zero, beq_eq_decide]

theorem not_guards_of_unlimited (h : policy.loopLimit = none ∨ policy.loopLimit = some 0) {i : ℕ}
    (hi : 0 < i) : policy.guards i = false := by
  rcases h with h | h
  · simp [guards, h]
  · rw [guards_of_limit h]
    simp
    omega

end Policy

namespace Setting

/-- The execution of a loop from `here` is made of the events, and it keeps to the schedule of the
limit `k` for its `m` completed iterations: the guard is consulted after each iteration whose number
is a multiple of the limit, with one question about this number, and at no other time. After a no
there is only the note that the loop is stopped. -/
structure KeepsSchedule (setting : Setting σ γ) (k : ℕ) (condition : Expr) (body : Statement)
    (p : Position) (here : Session σ γ) (events : List (LoopEvent σ γ)) (m : ℕ) : Prop where
  runs : setting.LoopRuns condition body p 0 here events
    (setting.execute (.whileDo condition body p) here)
  marks : LoopEvent.marks events = LoopMark.schedule (fun i => k ∣ i) 0 m
  questions : ∀ n c, .consultation n c ∈ events → c.asked = setting.policy.loopGuard.questions n
  finished : (setting.execute (.whileDo condition body p) here).outcome = .ok () →
    ((setting.execute (.whileDo condition body p) here).moments.map Moment.request).getLast? =
      some (.note (.loopFinished m p)) ∧
    (LoopEvent.marks events).countP LoopMark.isConsultation = m / k ∧
      ∀ n c, .consultation n c ∈ events → c.outcome = .ok true
  stopped : ∀ n c, .consultation n c ∈ events → c.outcome = .ok false →
    0 < n ∧ k ∣ n ∧ events.getLast? = some (.consultation n c) ∧
      (setting.execute (.whileDo condition body p) here).outcome =
        .error (.error ⟨.loopStopped n, p⟩) ∧
      ∃ past, (setting.execute (.whileDo condition body p) here).moments.map Moment.request =
        past ++ c.moments.map Moment.request ++ [.note (.loopStopped n p)]

variable {setting : Setting σ γ} {condition : Expr} {body : Statement} {p : Position} {k m : ℕ}
  {here : Session σ γ} {events : List (LoopEvent σ γ)}

theorem LoopRuns.keepsSchedule
    (hruns : setting.LoopRuns condition body p 0 here events
      (setting.execute (.whileDo condition body p) here))
    (hmarks : LoopEvent.marks events = LoopMark.schedule setting.policy.guards 0 m)
    (hlimit : setting.policy.loopLimit = some k) :
    setting.KeepsSchedule k condition body p here events m := by
  rw [Policy.guards_of_limit hlimit] at hmarks
  refine ⟨hruns, hmarks, ?_, ?_, ?_⟩
  · intro n c hmem
    cases hruns.eventFits hmem with
    | yes hguard | no _ hguard | unanswered hguard => rw [← hguard, asked_confirm]
  · intro hok
    have hlast := hruns.getLast?_of_ok hok
    rw [hmarks, LoopMark.count_schedule, Nat.zero_add] at hlast
    rw [hmarks]
    refine ⟨hlast, LoopMark.countP_schedule k m, ?_⟩
    intro n c hmem
    cases hruns.eventFits hmem with
    | yes hguard hyes => exact hyes
    | no past hguard hno hlast hend =>
      rw [hend] at hok
      cases hok
    | unanswered hguard hcause hend =>
      rw [hend] at hok
      cases hok
  · intro n c hmem hno
    have hmark := LoopEvent.mem_marks hmem
    rw [hmarks] at hmark
    obtain ⟨hpos, hdue⟩ := LoopMark.due_of_mem_schedule hmark
    refine ⟨hpos, of_decide_eq_true hdue, ?_⟩
    cases hruns.eventFits hmem with
    | yes hguard hyes =>
      rw [hyes] at hno
      cases hno
    | no past hguard hno hlast hend =>
      refine ⟨hlast, ?_, past.map Moment.request, ?_⟩
      · rw [hend]
        rfl
      · rw [hend]
        simp only [Conducted.after, List.map_append]
        rfl
    | unanswered hguard hcause hend =>
      rw [hcause] at hno
      cases hno

/-- `setting.Enters s here inner there`: in the execution of `s` from `here`, the statement `inner`
is executed from `there`. -/
inductive Enters (setting : Setting σ γ) :
    Statement → Session σ γ → Statement → Session σ γ → Prop where
  | self {s : Statement} {here : Session σ γ} : Enters setting s here s here
  | block {before after : List Statement} {s inner : Statement} {p : Position}
      {here there : Session σ γ} (hgo : here.state.interrupted = false)
      (hbefore : (setting.executeAll before here).outcome = .ok ())
      (h : Enters setting s (setting.executeAll before here).session inner there) :
      Enters setting (.block (before ++ s :: after) p) here inner there
  | ifThen {condition : Expr} {s inner : Statement} {p : Position} {here there : Session σ γ}
      (hgo : here.state.interrupted = false)
      (hcondition : holds condition here.state = .ended (.ok true) here.state)
      (h : Enters setting s here inner there) :
      Enters setting (.ifThen condition s p) here inner there
  | ifElse {condition : Expr} {s t inner : Statement} {p : Position} {here there : Session σ γ}
      {b : Bool} (hgo : here.state.interrupted = false)
      (hcondition : holds condition here.state = .ended (.ok b) here.state)
      (h : Enters setting (if b then s else t) here inner there) :
      Enters setting (.ifElse condition s t p) here inner there
  | round {condition : Expr} {body inner : Statement} {p : Position}
      {here start there : Session σ γ} {events : List (LoopEvent σ γ)} {c : Conducted Unit σ γ}
      (hruns : setting.LoopRuns condition body p 0 here events
        (setting.execute (.whileDo condition body p) here))
      (hround : .round start c ∈ events) (h : Enters setting body start inner there) :
      Enters setting (.whileDo condition body p) here inner there

theorem execAll_append (policy : Policy) (fuel : ℕ) (before after : List Statement) :
    Statement.execAll policy fuel (before ++ after) =
      Statement.execAll policy fuel before >>= fun _ => Statement.execAll policy fuel after := by
  induction before with
  | nil =>
    rw [List.nil_append, Statement.execAll, pure_bind]
  | cons s before ih =>
    rw [List.cons_append, Statement.execAll, Statement.execAll, ih, bind_assoc]

theorem execute_block {body : List Statement} (hgo : here.state.interrupted = false) :
    setting.execute (.block body p) here = setting.executeAll body here := by
  rw [execute, Statement.exec,
    conduct_bind_of_ended _ (checkInterrupt_of_not_interrupted hgo)]
  rfl

theorem execute_ifThen {s : Statement} (hgo : here.state.interrupted = false)
    (hcondition : holds condition here.state = .ended (.ok true) here.state) :
    setting.execute (.ifThen condition s p) here = setting.execute s here := by
  rw [execute, Statement.exec,
    conduct_bind_of_ended _ (checkInterrupt_of_not_interrupted hgo),
    conduct_bind_of_ended _ hcondition]
  rfl

theorem execute_ifElse {s t : Statement} {b : Bool} (hgo : here.state.interrupted = false)
    (hcondition : holds condition here.state = .ended (.ok b) here.state) :
    setting.execute (.ifElse condition s t p) here =
      setting.execute (if b then s else t) here := by
  rw [execute, Statement.exec,
    conduct_bind_of_ended _ (checkInterrupt_of_not_interrupted hgo),
    conduct_bind_of_ended _ hcondition]
  cases b <;> rfl

theorem executeAll_cons_of_ok {s : Statement} (h : (setting.execute s here).outcome = .ok ())
    (rest : List Statement) :
    setting.executeAll (s :: rest) here =
      (setting.executeAll rest (setting.execute s here).session).after
        (setting.execute s here).moments := by
  rw [executeAll, Statement.execAll, conduct_bind_of_ok _ h]
  rfl

theorem executeAll_cons_of_error {s : Statement} {cause : Halt}
    (h : (setting.execute s here).outcome = .error cause) (rest : List Statement) :
    setting.executeAll (s :: rest) here = (setting.execute s here).halted cause := by
  rw [executeAll, Statement.execAll, conduct_bind_of_error _ h]
  rfl

theorem isPrefix_executeAll_cons (s : Statement) (rest : List Statement) :
    (setting.execute s here).moments <+: (setting.executeAll (s :: rest) here).moments := by
  cases houtcome : (setting.execute s here).outcome with
  | error cause =>
    rw [executeAll_cons_of_error houtcome]
    exact List.prefix_rfl
  | ok _ =>
    rw [executeAll_cons_of_ok houtcome]
    exact List.prefix_append ..

theorem executeAll_append_of_ok {before : List Statement}
    (h : (setting.executeAll before here).outcome = .ok ()) (after : List Statement) :
    setting.executeAll (before ++ after) here =
      (setting.executeAll after (setting.executeAll before here).session).after
        (setting.executeAll before here).moments := by
  rw [executeAll, execAll_append, conduct_bind_of_ok _ h]
  rfl

/-- What is entered is executed as a part of the whole. -/
theorem Enters.isInfix {s inner : Statement} {there : Session σ γ}
    (h : setting.Enters s here inner there) :
    (setting.execute inner there).moments <:+: (setting.execute s here).moments := by
  induction h with
  | self => exact List.infix_rfl
  | @block before after s _ _ here _ hgo hbefore _ ih =>
    rw [execute_block hgo, executeAll_append_of_ok hbefore]
    exact (ih.trans (isPrefix_executeAll_cons s after).isInfix).trans
      (List.suffix_append ..).isInfix
  | ifThen hgo hcondition _ ih =>
    rw [execute_ifThen hgo hcondition]
    exact ih
  | ifElse hgo hcondition _ ih =>
    rw [execute_ifElse hgo hcondition]
    exact ih
  | @round _ _ _ _ _ _ _ events c hruns hround _ ih =>
    obtain ⟨tail, hmoments, -⟩ := hruns.moments_eq
    have hpart : c.moments <:+: (events.map LoopEvent.moments).flatten :=
      List.infix_of_mem_flatten (List.mem_map_of_mem hround)
    cases hruns.eventFits hround with
    | round hbody =>
      rw [hbody] at ih
      rw [hmoments, List.flatMap_def]
      exact (ih.trans hpart).trans (List.prefix_append ..).isInfix

theorem exists_of_mem_executeAll {body : List Statement} {moment : Moment}
    (h : moment ∈ (setting.executeAll body here).moments) :
    ∃ before s after, body = before ++ s :: after ∧
      (setting.executeAll before here).outcome = .ok () ∧
      moment ∈ (setting.execute s (setting.executeAll before here).session).moments := by
  induction body generalizing here with
  | nil => cases h
  | cons s rest ih =>
    cases houtcome : (setting.execute s here).outcome with
    | error cause =>
      rw [executeAll_cons_of_error houtcome] at h
      exact ⟨[], s, rest, rfl, rfl, h⟩
    | ok _ =>
      have hcons := executeAll_cons_of_ok houtcome
      rw [hcons] at h
      rcases List.mem_append.1 h with h | h
      · exact ⟨[], s, rest, rfl, rfl, h⟩
      · obtain ⟨before, t, after, rfl, hok, hmem⟩ := ih h
        refine ⟨s :: before, t, after, rfl, ?_, ?_⟩
        · rw [hcons]
          exact hok
        · rw [hcons]
          exact hmem

theorem request_ne_consult {x : Exec α} (h : NeverConsults x) {moment : Moment}
    (hmem : moment ∈ (setting.conduct x here).moments) (n : ℕ) : moment.request ≠ .consult n := by
  intro hrequest
  have hshows := Run.shows_of_mem_moments setting.console setting.adviser hmem
  exact h.shows trivial hshows n moment.state (by rw [hrequest])

/-- A statement that is interrupted only takes note of that. -/
theorem isNote_of_interrupted {s : Statement} {moment : Moment}
    (h : here.state.interrupted = true) (hmem : moment ∈ (setting.execute s here).moments) :
    moment.request.isNote = true := by
  obtain ⟨⟨store, interrupted⟩, console, adviser⟩ := here
  cases h
  rw [execute, conduct, Statement.exec_of_interrupted] at hmem
  obtain rfl := List.mem_singleton.1 hmem
  rfl

/-- `setting.Asks s here moment n`: in the execution of `s` from `here`, the moment belongs to a
consultation, with the number `n`, by a loop that follows its own schedule from zero. -/
def Asks (setting : Setting σ γ) (s : Statement) (here : Session σ γ) (moment : Moment) (n : ℕ) :
    Prop :=
  ∃ condition body p there events m c,
    setting.Enters s here (.whileDo condition body p) there ∧
    setting.LoopRuns condition body p 0 there events
      (setting.execute (.whileDo condition body p) there) ∧
    LoopEvent.marks events = LoopMark.schedule setting.policy.guards 0 m ∧
    .consultation n c ∈ events ∧ moment ∈ c.moments

theorem Asks.mono {s t : Statement} {there : Session σ γ} {moment : Moment} {n : ℕ}
    (h : setting.Asks s there moment n)
    (henters : ∀ inner last, setting.Enters s there inner last → setting.Enters t here inner last) :
    setting.Asks t here moment n := by
  obtain ⟨condition, body, p, last, events, m, c, hinner, hrest⟩ := h
  exact ⟨condition, body, p, last, events, m, c, henters _ _ hinner, hrest⟩

theorem eq_of_mem_confirm {there : Session σ γ} {moment : Moment} {n i : ℕ}
    (hmem : moment ∈ (setting.conduct (confirm setting.policy p i) there).moments)
    (hrequest : moment.request = .consult n) : n = i := by
  have hasked : moment.request ∈ (setting.conduct (confirm setting.policy p i) there).asked :=
    List.mem_filter.2 ⟨List.mem_map_of_mem hmem, by rw [hrequest]; rfl⟩
  rw [asked_confirm, hrequest] at hasked
  cases hguard : setting.policy.loopGuard with
  | consult => simpa [hguard, LoopGuard.questions] using hasked
  | prompt | proceed | abort => simp [hguard, LoopGuard.questions] at hasked

/-- A statement that asks an adviser was not interrupted at its start. -/
theorem interrupted_eq_false_of_consult {s : Statement} {moment : Moment} {n : ℕ}
    (hmem : moment ∈ (setting.execute s here).moments) (hrequest : moment.request = .consult n) :
    here.state.interrupted = false := by
  by_contra h
  have hnote := isNote_of_interrupted (Bool.eq_true_of_not_eq_false h) hmem
  rw [hrequest] at hnote
  cases hnote

/-- A moment after a condition comes from the branch that the condition chooses. -/
theorem exists_holds_of_mem {next : Bool → Exec α} {moment : Moment}
    (hmem : moment ∈ (setting.conduct (holds condition >>= next) here).moments) :
    ∃ b, holds condition here.state = .ended (.ok b) here.state ∧
      moment ∈ (setting.conduct (next b) here).moments := by
  obtain ⟨outcome, hholds⟩ := Silent.holds condition here.state
  cases outcome with
  | error cause =>
    rw [conduct_bind_of_halted _ hholds] at hmem
    cases hmem
  | ok b =>
    rw [conduct_bind_of_ended _ hholds] at hmem
    exact ⟨b, hholds, hmem⟩

mutual

/-- Whenever an adviser is asked, it is by a loop that is executed then, be it in a round, by some
inner loop, or between two rounds. -/
theorem asks_of_consult : ∀ (s : Statement) (here : Session σ γ) (moment : Moment) (n : ℕ),
    moment ∈ (setting.execute s here).moments → moment.request = .consult n →
    setting.Asks s here moment n
  | .assign target value p => by
    intro here moment n hmem hrequest
    rw [execute, Statement.exec] at hmem
    have h : NeverConsults (checkInterrupt p >>= fun _ => evaluate value >>= Exec.assign target) :=
      (tolerant_neverConsults.checkInterrupt p).bind fun _ _ =>
        (neverConsults_evaluate value).bind fun _ _ => neverConsults_assign target _
    exact absurd hrequest (request_ne_consult h hmem n)
  | .read targets p => by
    intro here moment n hmem hrequest
    rw [execute, Statement.exec] at hmem
    have h : NeverConsults (checkInterrupt p >>= fun _ =>
        readTargets setting.policy p targets) :=
      (tolerant_neverConsults.checkInterrupt p).bind fun _ _ =>
        tolerant_neverConsults.readTargets setting.policy p fun target _ n =>
          neverConsults_assign target (.int n)
    exact absurd hrequest (request_ne_consult h hmem n)
  | .write values p => by
    intro here moment n hmem hrequest
    rw [execute, Statement.exec] at hmem
    have h : NeverConsults (checkInterrupt p >>= fun _ => textOfAll values >>= fun text =>
        writeLine text p) :=
      (tolerant_neverConsults.checkInterrupt p).bind fun _ _ =>
        (Meets.textOfAll fun e _ => neverConsults_evaluate e).bind fun _ _ =>
          tolerant_neverConsults.writeLine _ p
    exact absurd hrequest (request_ne_consult h hmem n)
  | .block body p => by
    intro here moment n hmem hrequest
    have hgo := interrupted_eq_false_of_consult hmem hrequest
    rw [execute_block hgo] at hmem
    obtain ⟨before, s, after, heq, hbefore, hmem⟩ := exists_of_mem_executeAll hmem
    have hasks := asks_of_consult_of_mem body s (by simp [heq]) _ moment n hmem hrequest
    subst heq
    exact hasks.mono fun _ _ hinner => .block hgo hbefore hinner
  | .ifThen condition s p => by
    intro here moment n hmem hrequest
    have hgo := interrupted_eq_false_of_consult hmem hrequest
    rw [execute, Statement.exec,
      conduct_bind_of_ended _ (checkInterrupt_of_not_interrupted hgo)] at hmem
    obtain ⟨b, hholds, hmem⟩ := exists_holds_of_mem hmem
    cases b with
    | false => cases hmem
    | true =>
      exact (asks_of_consult s here moment n hmem hrequest).mono
        fun _ _ hinner => .ifThen hgo hholds hinner
  | .ifElse condition s t p => by
    intro here moment n hmem hrequest
    have hgo := interrupted_eq_false_of_consult hmem hrequest
    rw [execute, Statement.exec,
      conduct_bind_of_ended _ (checkInterrupt_of_not_interrupted hgo)] at hmem
    obtain ⟨b, hholds, hmem⟩ := exists_holds_of_mem hmem
    cases b with
    | false =>
      exact (asks_of_consult t here moment n hmem hrequest).mono
        fun _ _ hinner => .ifElse hgo hholds hinner
    | true =>
      exact (asks_of_consult s here moment n hmem hrequest).mono
        fun _ _ hinner => .ifElse hgo hholds hinner
  | .whileDo condition body p => by
    intro here moment n hmem hrequest
    obtain ⟨events, m, hruns, hmarks⟩ :=
      exists_loopRuns_execute setting condition body p here
    obtain ⟨tail, hmoments, hnotes⟩ := hruns.moments_eq
    rw [hmoments] at hmem
    rcases List.mem_append.1 hmem with hmem | hmem
    · obtain ⟨event, hevent, hmem⟩ := List.mem_flatMap.1 hmem
      cases hruns.eventFits hevent with
      | @round start d hbody =>
        rw [← hbody] at hmem
        exact (asks_of_consult body start moment n hmem hrequest).mono
          fun _ _ hinner => .round hruns hevent hinner
      | yes hguard | no _ hguard | unanswered hguard =>
        subst hguard
        obtain rfl := eq_of_mem_confirm hmem hrequest
        exact ⟨condition, body, p, here, events, m, _, .self, hruns, hmarks, hevent, hmem⟩
    · have hnote := hnotes moment hmem
      rw [hrequest] at hnote
      cases hnote

theorem asks_of_consult_of_mem : ∀ (body : List Statement), ∀ s ∈ body,
    ∀ (here : Session σ γ) (moment : Moment) (n : ℕ), moment ∈ (setting.execute s here).moments →
    moment.request = .consult n → setting.Asks s here moment n
  | [] => by simp
  | t :: rest => by
    intro s hs
    rcases List.mem_cons.1 hs with heq | hs
    · rw [heq]
      exact asks_of_consult t
    · exact asks_of_consult_of_mem rest s hs

end

/-- A loop guard follows its schedule. With the limit `k`, every execution of a loop consults its
guard exactly after the iterations `k`, `2k`, `3k` and so on, also if it is executed within another
loop, and no adviser is asked by anything else. Without a limit, and with the limit zero, the guard
is never consulted. -/
theorem guard_follows_schedule (setting : Setting σ γ) (condition : Expr) (body : Statement)
    (p : Position) (here : Session σ γ) :
    (∀ k, setting.policy.loopLimit = some k →
      (∃ events m, setting.KeepsSchedule k condition body p here events m) ∧
      (∀ test inner q there,
        setting.Enters (.whileDo condition body p) here (.whileDo test inner q) there →
        (setting.execute (.whileDo test inner q) there).moments <:+:
          (setting.execute (.whileDo condition body p) here).moments ∧
        ∃ events m, setting.KeepsSchedule k test inner q there events m) ∧
      ∀ moment ∈ (setting.execute (.whileDo condition body p) here).moments, ∀ n,
        moment.request = .consult n →
        ∃ test inner q there events m c,
          setting.Enters (.whileDo condition body p) here (.whileDo test inner q) there ∧
          setting.KeepsSchedule k test inner q there events m ∧
          .consultation n c ∈ events ∧ moment ∈ c.moments) ∧
    (setting.policy.loopLimit = none ∨ setting.policy.loopLimit = some 0 →
      (∃ events m,
        setting.LoopRuns condition body p 0 here events
          (setting.execute (.whileDo condition body p) here) ∧
        LoopEvent.marks events = List.replicate m .iteration) ∧
      ∀ moment ∈ (setting.execute (.whileDo condition body p) here).moments, ∀ n,
        moment.request ≠ .consult n) := by
  have hkeeps {k : ℕ} (hlimit : setting.policy.loopLimit = some k) (test : Expr)
      (inner : Statement) (q : Position) (there : Session σ γ) :
      ∃ events m, setting.KeepsSchedule k test inner q there events m := by
    obtain ⟨events, m, hruns, hmarks⟩ := exists_loopRuns_execute setting test inner q there
    exact ⟨events, m, hruns.keepsSchedule hmarks hlimit⟩
  constructor
  · intro k hlimit
    refine ⟨hkeeps hlimit condition body p here, ?_, ?_⟩
    · intro test inner q there henters
      exact ⟨henters.isInfix, hkeeps hlimit test inner q there⟩
    · intro moment hmem n hrequest
      obtain ⟨test, inner, q, there, events, m, c, henters, hruns, hmarks, hevent, hmoment⟩ :=
        asks_of_consult _ here moment n hmem hrequest
      exact ⟨test, inner, q, there, events, m, c, henters, hruns.keepsSchedule hmarks hlimit,
        hevent, hmoment⟩
  · intro hlimit
    have hnever (m : ℕ) : LoopMark.schedule setting.policy.guards 0 m =
        List.replicate m .iteration :=
      LoopMark.schedule_of_never (fun i hi => Policy.not_guards_of_unlimited hlimit hi) m
    constructor
    · obtain ⟨events, m, hruns, hmarks⟩ := exists_loopRuns_execute setting condition body p here
      exact ⟨events, m, hruns, hmarks.trans (hnever m)⟩
    · intro moment hmem n hrequest
      obtain ⟨_, _, _, _, events, m, c, -, -, hmarks, hevent, -⟩ :=
        asks_of_consult _ here moment n hmem hrequest
      have hmark := LoopEvent.mem_marks hevent
      rw [hmarks, hnever] at hmark
      cases List.eq_of_mem_replicate hmark

/-- Counts `y` to two and, in each round, `x` from zero to three. -/
def countTwice : Statement :=
  let raise (name : String) : Statement :=
    .assign ⟨name, .start⟩ (.binary (.arithmetic .add) (.var name .start) (.int 1 .start) .start)
      .start
  let below (name : String) (n : Integer) : Expr :=
    .binary (.relational .lt) (.var name .start) (.int n .start) .start
  .block [.assign ⟨"x", .start⟩ (.int 0 .start) .start,
    .whileDo (below "x" 3) (raise "x") .start, raise "y"] .start

/-- Two rounds of a loop, each with three rounds of another, under the limit two: the outer loop
consults its guard once, and so does each execution of the inner loop. -/
theorem guard_follows_schedule_countTwice :
    let setting : Setting Script Unit :=
      ⟨Script.console, Adviser.agreeing, ⟨some 2, .consult, .fail⟩, 4⟩
    let condition : Expr := .binary (.relational .lt) (.var "y" .start) (.int 2 .start) .start
    let store : Store := ((∅ : Store).insert "x" (.int 0)).insert "y" (.int 0)
    let here : Session Script Unit := ⟨⟨store, false⟩, ⟨[], #[], #[], #[]⟩, ()⟩
    (setting.execute (.whileDo condition countTwice .start) here).asked =
      [.consult 2, .consult 2, .consult 2] ∧
    ∃ events, setting.KeepsSchedule 2 condition countTwice .start here events 2 ∧
      LoopEvent.marks events = [.iteration, .iteration, .consultation 2] := by
  intro setting condition store here
  have hok : (setting.execute (.whileDo condition countTwice .start) here).outcome = .ok () := by
    decide +kernel
  have hcount : ((setting.execute (.whileDo condition countTwice .start) here).moments.map
      Moment.request).getLast? = some (.note (.loopFinished 2 .start)) := by
    decide +kernel
  obtain ⟨events, m, hkeeps⟩ :=
    ((guard_follows_schedule setting condition countTwice .start here).1 2 rfl).1
  obtain rfl : m = 2 := by
    rw [(hkeeps.finished hok).1] at hcount
    simpa using hcount
  exact ⟨by decide +kernel, events, hkeeps, hkeeps.marks⟩

end Setting

end TinyPascal
