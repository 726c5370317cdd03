import BoundSql.Proofs.Generator.Budget
import BoundSql.Proofs.RateLimit.Renaming

/-!
# Callers show as logs may show them only

Two sessions are compared in which one caller goes by different names, and logs show both names
alike. Whatever a generator says of a caller, in an error, in an event or in an audit record, it
says of the name that logs show; and a limiter only tells callers apart. So each call of the one
session has the result and the events of the other one (`generate_rename`), and the limiters end up
with the same windows, but for the name (`call?_rename`).

Headline: **`callers_hidden`**.
-/

namespace BoundSql

open RateLimiter (Among renamed nameForLog_renamed)

/-- The outcome, with a caller under another name: nothing but the limiter knows of it. -/
def Outcome.rename (old new : String) (o : Outcome) : Outcome :=
  { o with limiter := o.limiter.rename old new }

/-- What an outcome shows: the statement or the error, and the events. -/
def Outcome.shown (o : Outcome) : Except QueryError GeneratedQuery × List Event :=
  (o.result, o.events)

/-- The call, made by a caller under another name. -/
def Call.rename (old new : String) (c : Call) : Call :=
  { c with caller := c.caller.map (renamed old new) }

/-- The session, with a caller under another name in its limiters. -/
def Session.rename (old new : String) (s : Session) : Session :=
  { s with limiters := s.limiters.map (·.rename old new) }

namespace Generator

variable {config : GeneratorConfig} {l : RateLimiter} {s : Statement} {caller : Option String}
  {now : Nat} {old new : String} {names : List String}

theorem callerForLog_renamed (same : Redaction.nameForLog old = Redaction.nameForLog new)
    (caller : Option String) :
    callerForLog (caller.map (renamed old new)) = callerForLog caller := by
  cases caller with
  | none => rfl
  | some x => exact nameForLog_renamed same x

theorem refusalEvents_renamed (same : Redaction.nameForLog old = Redaction.nameForLog new)
    (e : QueryError) :
    refusalEvents config s (caller.map (renamed old new)) e = refusalEvents config s caller e := by
  rw [refusalEvents, refusalEvents, callerForLog_renamed same]

theorem successEvents_renamed (same : Redaction.nameForLog old = Redaction.nameForLog new)
    (q : GeneratedQuery) :
    successEvents config s (caller.map (renamed old new)) q = successEvents config s caller q := by
  rw [successEvents, successEvents, callerForLog_renamed same]

/-- The limiter answers as before, under the other name. -/
theorem admission_rename (config : GeneratorConfig) (now : Nat)
    (same : Redaction.nameForLog old = Redaction.nameForLog new)
    (among : Among names l) (few : names.dedup.length ≤ l.config.maxTrackedIdentities)
    (fresh : new ∉ names) (named : ∀ x ∈ caller, x ∈ names) :
    let a := admission config l caller now
    admission config (l.rename old new) (caller.map (renamed old new)) now =
      (a.1, a.2.1.rename old new, a.2.2) := by
  intro a
  cases caller with
  | none => rfl
  | some x =>
    let c : RateLimiter.Call := ⟨x, config.rateLimit.maxRequests, config.rateLimit.windowSeconds⟩
    have mine : x ∈ names := named x rfl
    have room : (l.stored now c).tracked ≤ l.config.maxTrackedIdentities :=
      Nat.le_trans (among.stored (c := c) mine now).tracked_le few
    have checked := RateLimiter.checkWith_rename (c := c) same room
      (fun h => fresh (among.named _ h)) fun e => fresh (e ▸ mine)
    simp only [a, admission, Option.map_some]
    split
    · simp only [c] at checked
      rw [checked]
    · rfl

/-- **A call shows nothing of the name** but what logs show. -/
theorem generate_rename (same : Redaction.nameForLog old = Redaction.nameForLog new)
    (among : Among names l) (few : names.dedup.length ≤ l.config.maxTrackedIdentities)
    (fresh : new ∉ names) (named : ∀ x ∈ caller, x ∈ names) :
    generate config (l.rename old new) s (caller.map (renamed old new)) now =
      (generate config l s caller now).rename old new := by
  have asked := admission_rename config now same among few fresh named
  unfold generate
  simp only [asked]
  cases config.rules.check s with
  | error e => simp only [refusalEvents_renamed same, Outcome.rename]
  | ok u =>
    rcases admission config l caller now with ⟨verdict, limiter, notices⟩
    cases verdict with
    | error e => simp only [refusalEvents_renamed same, Outcome.rename]
    | ok u => simp only [successEvents_renamed same, Outcome.rename]

/-- A call leaves a limiter of named callers, under the same limits. -/
theorem among_generate (config : GeneratorConfig) (among : Among names l)
    (few : names.dedup.length ≤ l.config.maxTrackedIdentities) {c : Call}
    (named : ∀ x ∈ c.caller, x ∈ names) :
    let after := (generate config l c.statement c.caller c.now).limiter
    Among names after ∧ after.config = l.config := by
  intro after
  cases asked : config.question? c with
  | none =>
    have quiet : after = l := limiter_of_no_question asked
    rw [quiet]
    exact ⟨among, rfl⟩
  | some op =>
    have answered : after = (l.perform c.now op).limiter := (limiter_of_question asked).1
    obtain ⟨-, -, caller, hc, rfl⟩ := GeneratorConfig.question?_eq_some_iff.mp asked
    have called : ∀ k ∈ (RateLimiter.Operation.checkWith caller config.rateLimit.maxRequests
        config.rateLimit.windowSeconds).call? l.config, k.identity ∈ names := by
      rintro k ⟨⟩
      exact named caller hc
    rw [answered]
    exact ⟨among.perform few called c.now, RateLimiter.config_perform _ _ _⟩

end Generator

namespace Session

variable {s s' : Session} {c : Call} {outcome : Outcome} {old new : String} {names : List String}
  {calls : List Call}

/-- The limiters of a session track named callers only, and may track all of them. -/
def Knows (names : List String) (s : Session) : Prop :=
  ∀ l ∈ s.limiters, Among names l ∧ names.dedup.length ≤ l.config.maxTrackedIdentities

theorem knows_of_call? (known : s.Knows names) (named : ∀ x ∈ c.caller, x ∈ names)
    (h : s.call? c = some (outcome, s')) : s'.Knows names := by
  obtain ⟨m, -, l, hl, rfl, rfl⟩ := call?_eq_some_iff.mp h
  intro l' hl'
  rcases List.mem_or_eq_of_mem_set hl' with hl' | rfl
  · exact known l' hl'
  · obtain ⟨among, few⟩ := known l (List.mem_of_getElem? hl)
    obtain ⟨left, config⟩ := Generator.among_generate m.config among few named
    exact ⟨left, config ▸ few⟩

/-- **A step of a session is the same under the other name.** -/
theorem call?_rename (same : Redaction.nameForLog old = Redaction.nameForLog new)
    (known : s.Knows names) (fresh : new ∉ names) (named : ∀ x ∈ c.caller, x ∈ names) :
    (s.rename old new).call? (c.rename old new) =
      (s.call? c).map fun p => (p.1.rename old new, p.2.rename old new) := by
  rw [call?, call?, rename, Call.rename]
  cases s.members[c.generator]? with
  | none => rfl
  | some m =>
    simp only [Option.bind_eq_bind, Option.bind_some, List.getElem?_map]
    cases hl : s.limiters[m.limiter]? with
    | none => rfl
    | some l =>
      obtain ⟨among, few⟩ := known l (List.mem_of_getElem? hl)
      simp only [Option.map_some, Option.bind_some, Option.pure_def, Session.rename,
        Generator.generate_rename same among few fresh named, List.map_set]
      rfl

/-- **So is a whole session.** -/
theorem run_rename (same : Redaction.nameForLog old = Redaction.nameForLog new)
    (known : s.Knows names) (fresh : new ∉ names)
    (named : ∀ c ∈ calls, ∀ x ∈ c.caller, x ∈ names) :
    (s.rename old new).run (calls.map (Call.rename old new)) =
        (s.run calls).map (Outcome.rename old new) ∧
      (s.rename old new).final (calls.map (Call.rename old new)) =
        (s.final calls).rename old new := by
  induction calls generalizing s with
  | nil => exact ⟨rfl, rfl⟩
  | cons c calls ih =>
    obtain ⟨first, later⟩ := List.forall_mem_cons.mp named
    have step := call?_rename same known fresh first
    rw [List.map_cons, final_cons, final_cons, run, run, step]
    cases hc : s.call? c with
    | none => exact ih known later
    | some p =>
      obtain ⟨outcome, s'⟩ := p
      obtain ⟨outcomes, final⟩ := ih (knows_of_call? known first hc) later
      exact ⟨congrArg _ outcomes, final⟩

/-- **Callers are hidden.** Take a session whose callers are no more than its limiters may track,
and a name that none of them has. If one of the callers goes by that name instead, and logs show the
two names alike, each call has the same result and the same events, and the limiters end up the
same, but for the name. -/
theorem callers_hidden (s : Session) (names : List String) (calls : List Call) (old new : String)
    (same : Redaction.nameForLog old = Redaction.nameForLog new)
    (called : ∀ c ∈ calls, ∀ x ∈ c.caller, x ∈ names) (fresh : new ∉ names)
    (known : s.Knows names) :
    let again := calls.map (Call.rename old new)
    ((s.rename old new).run again).map Outcome.shown = (s.run calls).map Outcome.shown ∧
      (s.rename old new).final again = (s.final calls).rename old new := by
  intro again
  obtain ⟨outcomes, final⟩ := run_rename same known fresh called
  refine ⟨?_, final⟩
  rw [outcomes, List.map_map]
  rfl

/-- Sessions that start with a new limiter start alike under any name. A caller is told that one
call a minute is enough, in the same words whichever password the name gives away. -/
theorem callers_hidden_sample :
    let s := sharing strictAndNot (.new { maxTrackedIdentities := 2 })
    let old := "batch pwd=hunter2"
    let new := "batch pwd=swordfish"
    let calls : List Call :=
      [{ generator := 0, statement := deletingNote (.int 1), caller := old, now := 0 },
        { generator := 1, statement := deletingNote (.int 1), caller := "ada", now := 1 },
        { generator := 1, statement := deletingNote (.int 2), caller := old, now := 2 }]
    let again := calls.map (Call.rename old new)
    again.map (·.caller) = [some new, some "ada", some new] ∧
      (s.run calls).map (·.result.isOk) = [true, true, false] ∧
      (s.run again).map Outcome.shown = (s.run calls).map Outcome.shown ∧
      s.final again = (s.final calls).rename old new := by
  intro s old new calls again
  have same : Redaction.nameForLog old = Redaction.nameForLog new := by decide +kernel
  have known : s.Knows [old, "ada"] := by
    intro l hl
    obtain rfl := List.mem_singleton.mp hl
    exact ⟨⟨List.nodup_nil, fun _ h => absurd h List.not_mem_nil⟩, by decide⟩
  obtain ⟨shown, final⟩ := callers_hidden s [old, "ada"] calls old new same (by decide) (by decide)
    known
  exact ⟨by decide, by decide +kernel, shown, final⟩

end Session

end BoundSql
