import BoundSql.Proofs.RateLimit.Calls
import BoundSql.Session

/-!
# Whose budget a call touches

A call puts a question to the limiter if its statement is accepted, it has a caller, and its
generator limits callers (`question?`). Any other call leaves every limiter as it is
(`session_of_not_asks`), so it can be left out of a session without a trace (`log_filter`,
`final_filter`). A call that does put its question changes the limiter as the answer does, and
succeeds if the answer admits it, whatever comes of the writing.

Headline: **`only_questions_count`**.
-/

namespace BoundSql

open RateLimiter (Operation)

namespace GeneratorConfig

/-- What a call asks of the limiter, if it asks anything. -/
def question? (c : GeneratorConfig) (call : Call) : Option Operation :=
  match c.rules.check call.statement, call.caller, c.enableRateLimit with
  | .ok (), some caller, true =>
    some (.checkWith caller c.rateLimit.maxRequests c.rateLimit.windowSeconds)
  | _, _, _ => none

theorem question?_eq_some_iff {c : GeneratorConfig} {call : Call} {op : Operation} :
    c.question? call = some op ↔
      c.rules.check call.statement = .ok () ∧ c.enableRateLimit = true ∧
        ∃ caller, call.caller = some caller ∧
          op = .checkWith caller c.rateLimit.maxRequests c.rateLimit.windowSeconds := by
  rw [question?]
  cases c.rules.check call.statement with
  | error e => simp
  | ok u =>
    cases call.caller with
    | none => simp
    | some caller => cases c.enableRateLimit <;> simp [eq_comm]

end GeneratorConfig

namespace Generator

variable {c : GeneratorConfig} {l : RateLimiter} {s : Statement} {caller : Option String}
  {now : Nat}

/-! ## The limiter after a call -/

theorem limiter_of_check_ok (h : c.rules.check s = .ok ()) :
    (generate c l s caller now).limiter = (admission c l caller now).2.1 := by
  simp only [generate, h]
  rcases admission c l caller now with ⟨_ | _, limiter, notices⟩ <;> rfl

theorem isOk_of_check_ok (h : c.rules.check s = .ok ()) :
    (generate c l s caller now).result.isOk = (admission c l caller now).1.isOk := by
  simp only [generate, h]
  rcases admission c l caller now with ⟨_ | _, limiter, notices⟩ <;> rfl

theorem admission_of_unlimited (h : c.enableRateLimit = false) :
    admission c l caller now = (.ok (), l, []) := by
  cases caller with
  | none => rfl
  | some identity => simp only [admission, h, Bool.false_eq_true, if_false]

theorem admission_of_limited (h : c.enableRateLimit = true) (l : RateLimiter) (identity : String)
    (now : Nat) :
    let check := l.checkWith identity c.rateLimit.maxRequests c.rateLimit.windowSeconds now
    (admission c l (some identity) now).2.1 = check.limiter ∧
      (admission c l (some identity) now).1.isOk = check.result.isOk := by
  simp only [admission, h, if_true, true_and]
  cases (l.checkWith identity c.rateLimit.maxRequests c.rateLimit.windowSeconds now).result <;> rfl

/-- **Without a question the limiter stays as it is.** -/
theorem limiter_of_no_question {call : Call} (h : c.question? call = none) :
    (generate c l call.statement call.caller call.now).limiter = l := by
  cases accepted : c.rules.check call.statement with
  | error e => exact limiter_of_check_error accepted
  | ok u =>
    rw [limiter_of_check_ok accepted]
    cases hc : call.caller with
    | none => rfl
    | some identity =>
      cases limits : c.enableRateLimit with
      | false => rw [admission_of_unlimited limits]
      | true => simp [GeneratorConfig.question?, accepted, hc, limits] at h

/-- **A question is answered as the limiter answers it**, whatever is then written. -/
theorem limiter_of_question {call : Call} {op : Operation} (h : c.question? call = some op) :
    (generate c l call.statement call.caller call.now).limiter = (l.perform call.now op).limiter ∧
      (generate c l call.statement call.caller call.now).result.isOk =
        (l.perform call.now op).answer.admits := by
  obtain ⟨accepted, limits, caller, hc, rfl⟩ := GeneratorConfig.question?_eq_some_iff.mp h
  obtain ⟨limiter, verdict⟩ := admission_of_limited limits l caller call.now
  rw [limiter_of_check_ok accepted, isOk_of_check_ok accepted, hc, limiter, verdict]
  refine ⟨rfl, ?_⟩
  simp only [RateLimiter.perform]
  cases (l.checkWith caller c.rateLimit.maxRequests c.rateLimit.windowSeconds call.now).result <;>
    rfl

end Generator

namespace Session

/-- The calls of a session with their outcomes; a call on no generator has none. -/
def log : Session → List Call → List (Call × Outcome)
  | _, [] => []
  | s, c :: calls =>
    match s.call? c with
    | none => s.log calls
    | some (outcome, s') => (c, outcome) :: s'.log calls

/-- The session after calls. -/
def final (s : Session) (calls : List Call) : Session :=
  calls.foldl (fun s c => ((s.call? c).map (·.2)).getD s) s

/-- What a call asks of the limiter of its generator, if it asks anything. -/
def question? (s : Session) (c : Call) : Option Operation :=
  s.members[c.generator]?.bind (·.config.question? c)

/-- Whether a call asks the limiter of its generator anything. -/
def asks (s : Session) (c : Call) : Bool := (s.question? c).isSome

variable {s s' : Session} {c : Call} {outcome : Outcome}

/-! ## Calls that ask nothing -/

theorem map_snd_log (s : Session) (calls : List Call) : (s.log calls).map (·.2) = s.run calls := by
  induction calls generalizing s with
  | nil => rfl
  | cons c calls ih =>
    rw [log, run]
    cases s.call? c with
    | none => exact ih s
    | some p => rw [List.map_cons, ih]

theorem log_cons_of_some (h : s.call? c = some (outcome, s')) (calls : List Call) :
    s.log (c :: calls) = (c, outcome) :: s'.log calls := by
  rw [log, h]

theorem final_cons (s : Session) (c : Call) (calls : List Call) :
    s.final (c :: calls) = (((s.call? c).map (·.2)).getD s).final calls := rfl

theorem call?_eq_some_iff :
    s.call? c = some (outcome, s') ↔
      ∃ m, s.members[c.generator]? = some m ∧ ∃ l, s.limiters[m.limiter]? = some l ∧
        outcome = Generator.generate m.config l c.statement c.caller c.now ∧
        s' = { s with limiters := s.limiters.set m.limiter outcome.limiter } := by
  simp only [call?, Option.bind_eq_bind, Option.bind_eq_some_iff, Option.pure_def,
    Option.some.injEq, Prod.mk.injEq]
  constructor
  · rintro ⟨m, hm, l, hl, rfl, rfl⟩
    exact ⟨m, hm, l, hl, rfl, rfl⟩
  · rintro ⟨m, hm, l, hl, rfl, rfl⟩
    exact ⟨m, hm, l, hl, rfl, rfl⟩

/-- A call changes limiters, and nothing about the generators. -/
theorem members_of_call? (h : s.call? c = some (outcome, s')) : s'.members = s.members := by
  obtain ⟨m, -, l, -, -, rfl⟩ := call?_eq_some_iff.mp h
  rfl

theorem asks_eq_of_members (h : s'.members = s.members) : s'.asks = s.asks := by
  funext c
  rw [asks, asks, question?, question?, h]

/-- **A call that asks nothing leaves the session as it is.** -/
theorem session_of_not_asks (quiet : s.asks c = false)
    (h : s.call? c = some (outcome, s')) : s' = s := by
  obtain ⟨m, hm, l, hl, rfl, rfl⟩ := call?_eq_some_iff.mp h
  rw [asks, question?, hm, Option.bind_some, Option.isSome_eq_false_iff,
    Option.isNone_iff_eq_none] at quiet
  obtain ⟨within, rfl⟩ := List.getElem?_eq_some_iff.mp hl
  rw [Generator.limiter_of_no_question quiet, List.set_getElem_self]

/-- **The outcomes of the calls that ask do not depend on the others.** -/
theorem log_filter (s : Session) (calls : List Call) :
    s.log (calls.filter s.asks) = (s.log calls).filter (s.asks ·.1) := by
  induction calls generalizing s with
  | nil => rfl
  | cons c calls ih =>
    cases asked : s.asks c with
    | false =>
      rw [List.filter_cons_of_neg (by simp [asked]), log, ih]
      cases hc : s.call? c with
      | none => rfl
      | some p =>
        obtain rfl := session_of_not_asks asked hc
        rw [List.filter_cons_of_neg (by simp [asked])]
    | true =>
      rw [List.filter_cons_of_pos asked]
      cases hc : s.call? c with
      | none =>
        rw [log, log, hc]
        exact ih s
      | some p =>
        obtain ⟨outcome, s'⟩ := p
        have rest := ih s'
        rw [asks_eq_of_members (members_of_call? hc)] at rest
        rw [log_cons_of_some hc, log_cons_of_some hc, List.filter_cons, if_pos asked, rest]

/-- **Nor does what becomes of the limiters.** -/
theorem final_filter (s : Session) (calls : List Call) :
    s.final (calls.filter s.asks) = s.final calls := by
  induction calls generalizing s with
  | nil => rfl
  | cons c calls ih =>
    cases asked : s.asks c with
    | false =>
      rw [List.filter_cons_of_neg (by simp [asked]), ih, final_cons]
      cases hc : s.call? c with
      | none => rfl
      | some p =>
        obtain rfl := session_of_not_asks asked hc
        rfl
    | true =>
      rw [List.filter_cons_of_pos asked, final_cons, final_cons]
      cases hc : s.call? c with
      | none => exact ih s
      | some p =>
        obtain ⟨outcome, s'⟩ := p
        have rest := ih s'
        rw [asks_eq_of_members (members_of_call? hc)] at rest
        exact rest

theorem log_append (s : Session) (before after : List Call) :
    s.log (before ++ after) = s.log before ++ (s.final before).log after := by
  induction before generalizing s with
  | nil => rfl
  | cons c before ih =>
    rw [List.cons_append, log, log, final_cons]
    cases s.call? c with
    | none => exact ih s
    | some p => exact congrArg ((c, p.1) :: ·) (ih p.2)

/-! ## Generators that share a limiter -/

variable {configs : List GeneratorConfig} {config : GeneratorConfig} {l : RateLimiter}

theorem call?_sharing (h : configs[c.generator]? = some config) :
    (sharing configs l).call? c =
      let outcome := Generator.generate config l c.statement c.caller c.now
      some (outcome, sharing configs outcome.limiter) := by
  simp [call?, sharing, List.getElem?_map, h]

theorem call?_sharing_of_none (h : configs[c.generator]? = none) :
    (sharing configs l).call? c = none := by
  simp [call?, sharing, List.getElem?_map, h]

/-- What calls ask of the limiter, with the instants at which they ask. -/
def questions (configs : List GeneratorConfig) (calls : List Call) : List (Nat × Operation) :=
  calls.filterMap fun c =>
    (configs[c.generator]?.bind (·.question? c)).map fun question => (c.now, question)

/-- **The limiter has answered the questions and nothing else.** -/
theorem final_sharing (configs : List GeneratorConfig) (l : RateLimiter) (calls : List Call) :
    (sharing configs l).final calls = sharing configs (l.run (questions configs calls)) := by
  induction calls generalizing l with
  | nil => rfl
  | cons c calls ih =>
    rw [final_cons, questions, List.filterMap_cons]
    cases h : configs[c.generator]? with
    | none =>
      rw [call?_sharing_of_none h]
      exact ih l
    | some config =>
      rw [call?_sharing h, Option.bind_some]
      cases asked : config.question? c with
      | none =>
        have quiet := Generator.limiter_of_no_question (l := l) asked
        simp only [Option.map_some, Option.getD_some, quiet]
        exact ih l
      | some op =>
        have answered := (Generator.limiter_of_question (l := l) asked).1
        simp only [Option.map_some, Option.getD_some, answered]
        exact ih _

/-- **Only questions count.** In a session of generators that share a limiter, leave out the calls
whose statement is refused, that have no caller, or whose generator does not limit callers. The
other calls keep their outcomes, events included, and the limiter ends up as before: it has answered
the questions of these calls and nothing else. Each of them leaves the limiter as its own check
does, and succeeds if that check admits it. -/
theorem only_questions_count (configs : List GeneratorConfig) (l : RateLimiter)
    (calls : List Call) :
    let s := sharing configs l
    s.log (calls.filter s.asks) = (s.log calls).filter (s.asks ·.1) ∧
      s.final (calls.filter s.asks) = s.final calls ∧
      s.final calls = sharing configs (l.run (questions configs calls)) ∧
      ∀ before c after config caller, calls = before ++ c :: after →
        configs[c.generator]? = some config → config.rules.check c.statement = .ok () →
        c.caller = some caller → config.enableRateLimit = true →
          let reached := l.run (questions configs before)
          let check := reached.checkWith caller config.rateLimit.maxRequests
            config.rateLimit.windowSeconds c.now
          ∃ outcome, s.log calls =
              s.log before ++ (c, outcome) :: (sharing configs check.limiter).log after ∧
            outcome.limiter = check.limiter ∧ outcome.result.isOk = check.result.isOk := by
  intro s
  refine ⟨log_filter s calls, final_filter s calls, final_sharing configs l calls, ?_⟩
  rintro before c after config caller rfl member accepted hc limits reached check
  let outcome := Generator.generate config reached c.statement c.caller c.now
  obtain ⟨limiter, verdict⟩ := Generator.admission_of_limited limits reached caller c.now
  have left : outcome.limiter = check.limiter := by
    rw [Generator.limiter_of_check_ok accepted, hc, limiter]
  refine ⟨outcome, ?_, left, ?_⟩
  · rw [log_append, final_sharing, log, call?_sharing member, ← left]
  · rw [Generator.isOk_of_check_ok accepted, hc, verdict]

/-- Two generators that admit one call each minute. -/
def strictAndNot : List GeneratorConfig :=
  [{ GeneratorConfig.new .postgres with rateLimit := { maxRequests := 1 } },
    { GeneratorConfig.strict .mySql with rateLimit := { maxRequests := 1 } }]

/-- Deletes a note. -/
def deletingNote (id : Value) : Statement := .delete
  { table := "notes"
    conditions := [{ expr := .column "id", operator := .equal, operands := [id] }] }

/-- The caller's one call is admitted: an attack before it was refused without counting, and a call
without a caller does not count either. -/
theorem only_questions_count_sample :
    let s := sharing strictAndNot (.new {})
    let before : List Call :=
      [{ generator := 1, statement := deletingNote (.text "1 or 1=1"), caller := "ada", now := 0 },
        { generator := 0, statement := deletingNote (.int 1), caller := none, now := 1 }]
    let c : Call :=
      { generator := 0, statement := deletingNote (.int 2), caller := "ada", now := 2 }
    ∃ outcome l, s.log (before ++ [c]) = s.log before ++ [(c, outcome)] ∧
      outcome.result.isOk = true ∧ s.final (before ++ [c]) = sharing strictAndNot l := by
  intro s before c
  obtain ⟨-, -, answered, each⟩ := only_questions_count strictAndNot (.new {}) (before ++ [c])
  obtain ⟨outcome, entry, -, verdict⟩ :=
    each before c [] _ "ada" rfl rfl (by decide +kernel) rfl (by decide)
  exact ⟨outcome, _, entry, verdict.trans (by decide +kernel), answered⟩

end Session

end BoundSql
