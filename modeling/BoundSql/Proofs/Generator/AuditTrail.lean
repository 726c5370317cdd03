import BoundSql.Proofs.Generator.Budget

/-!
# The audit trail

However a call ends, the generator closes with what it has to say about the end: the refusal if
there was one, and the audit record if it keeps a log (`events_generate`). What it reports before
that, and what the limiter reports, is neither. So a call is *accounted for* by its events
(`Event.Accounts`): an audited call by one record, its last event, that tells what the caller was
told. A session keeps these records in the order of its calls (`Session.trail`).

Headline: **`Session.audit_trail`**.
-/

namespace BoundSql

namespace Event

/-- Whether an event reports that a statement was not written. -/
def isRefusal : Event → Bool
  | refused .. => true
  | _ => false

/-- A remark is neither an audit record nor a refusal. -/
def IsRemark (e : Event) : Prop := e.isAudit = false ∧ e.isRefusal = false

/-- A record tells the caller's own result: the text and the number of the parameters of a
statement that was written, and the code of the error otherwise. -/
def Tells (record : Event) : Except QueryError GeneratedQuery → Prop
  | .ok q => record.message = "query generated" ∧ record.fields.lookup "sql" = some q.sql ∧
      record.fields.lookup "parameters" = some (toString q.parameters.length)
  | .error e => record.message = "query rejected" ∧ record.fields.lookup "code" = some e.code

/-- Events account for a result, as those of a generator do that is audited or not. -/
structure Accounts (audited : Bool) (result : Except QueryError GeneratedQuery)
    (events : List Event) : Prop where
  /-- The last event is the audit record, and the only one. -/
  recorded : audited = true → ∃ along record, events = along ++ [record] ∧
    (∀ e ∈ along, e.isAudit = false) ∧ record.isAudit = true ∧
    (record.message = "query generated" ↔ result.isOk = true) ∧ record.Tells result
  unrecorded : audited = false → ∀ e ∈ events, e.isAudit = false
  /-- An error is reported once, apart from the record, as urgently as its family asks. -/
  refusal : ∀ error, result = .error error → ∃ refusal, events.filter isRefusal = [refusal] ∧
    refusal.isAudit = false ∧ refusal.level = if error.isSecurity then .warn else .debug
  unrefused : ∀ q, result = .ok q → events.filter isRefusal = []

variable {audited : Bool} {result : Except QueryError GeneratedQuery} {events along : List Event}

theorem filter_isAudit_eq_nil (h : ∀ e ∈ events, e.isAudit = false) :
    events.filter isAudit = [] :=
  List.filter_eq_nil_iff.mpr fun e he => by rw [h e he]; exact Bool.false_ne_true

theorem filter_isRefusal_eq_nil (h : ∀ e ∈ events, e.IsRemark) : events.filter isRefusal = [] :=
  List.filter_eq_nil_iff.mpr fun e he => by rw [(h e he).2]; exact Bool.false_ne_true

/-- The records among the events of an audited call are one record that tells the result. -/
theorem Accounts.filter_isAudit (h : Accounts true result events) :
    ∃ record : Event, events.filter isAudit = [record] ∧ record.Tells result := by
  obtain ⟨along, record, rfl, others, audit, -, tells⟩ := h.recorded rfl
  refine ⟨record, ?_, tells⟩
  rw [List.filter_append, filter_isAudit_eq_nil others, List.nil_append,
    List.filter_cons_of_pos audit, List.filter_nil]

end Event

namespace Generator

variable {c : GeneratorConfig} {l : RateLimiter} {s : Statement} {caller : Option String}
  {now : Nat}

/-! ## What a call closes with -/

/-- What a generator reports of the end of a call. -/
def closingEvents (c : GeneratorConfig) (s : Statement) (caller : Option String) :
    Except QueryError GeneratedQuery → List Event
  | .ok q => successEvents c s caller q
  | .error e => refusalEvents c s caller e

/-- **What a call closes with accounts for its result**, whatever was remarked before. -/
theorem accounts_closingEvents {along : List Event} (remarks : ∀ e ∈ along, e.IsRemark)
    (result : Except QueryError GeneratedQuery) :
    Event.Accounts c.enableAuditLog result (along ++ closingEvents c s caller result) := by
  have unaudited : ∀ e ∈ along, e.isAudit = false := fun e he => (remarks e he).1
  have unrefused := Event.filter_isRefusal_eq_nil remarks
  cases result with
  | ok q =>
    refine ⟨fun audited => ?_, fun audited => ?_, nofun, fun _ _ => ?_⟩
    · exact ⟨along, _, by rw [closingEvents, successEvents, if_pos audited], unaudited, rfl,
        by simp [Event.message, Except.isOk, Except.toBool], rfl, rfl, rfl⟩
    · rwa [closingEvents, successEvents, audited, if_neg Bool.false_ne_true, List.append_nil]
    · rw [List.filter_append, unrefused, List.nil_append, closingEvents, successEvents]
      split <;> rfl
  | error e =>
    let table := Redaction.nameForLog s.tableName
    let refusal : Event := .refused s.kind table (callerForLog caller) e
    let record : Event := .auditRejected s.kind table c.dialect (callerForLog caller) e.code
    have upToRefusal : ∀ x ∈ along ++ [refusal], x.isAudit = false :=
      List.forall_mem_append.mpr ⟨unaudited, List.forall_mem_singleton.mpr rfl⟩
    refine ⟨fun audited => ?_, fun audited => ?_, ?_, nofun⟩
    · refine ⟨along ++ [refusal], record, ?_, upToRefusal, rfl, ?_, rfl, rfl⟩
      · rw [closingEvents, refusalEvents, if_pos audited, List.append_assoc]
        rfl
      · simp [record, Event.message, Except.isOk, Except.toBool]
    · rwa [closingEvents, refusalEvents, audited, if_neg Bool.false_ne_true]
    · rintro error ⟨⟩
      refine ⟨refusal, ?_, rfl, rfl⟩
      rw [List.filter_append, unrefused, List.nil_append, closingEvents, refusalEvents]
      split <;> rfl

/-! ## What is remarked before -/

theorem isRemark_of_mem_judgingEvents {r : Rules} : ∀ e ∈ judgingEvents r s, e.IsRemark := by
  intro e he
  cases s with
  | select q =>
    rw [judgingEvents] at he
    split at he
    · obtain rfl := List.mem_singleton.mp he
      exact ⟨rfl, rfl⟩
    · cases he
  | _ => cases he

theorem isRemark_of_mem_returningEvents {d : Dialect} {columns : List String} :
    ∀ e ∈ returningEvents d columns, e.IsRemark := by
  intro e he
  rw [returningEvents] at he
  split at he
  · cases he
  · obtain rfl := List.mem_singleton.mp he
    exact ⟨rfl, rfl⟩

theorem isRemark_of_mem_unboundedEvents {kind : StatementKind} {table : String}
    {conditions : List Condition} : ∀ e ∈ unboundedEvents kind table conditions, e.IsRemark := by
  intro e he
  rw [unboundedEvents] at he
  split at he
  · obtain rfl := List.mem_singleton.mp he
    exact ⟨rfl, rfl⟩
  · cases he

theorem isRemark_of_mem_writingEvents {d : Dialect} : ∀ e ∈ writingEvents d s, e.IsRemark := by
  intro e he
  cases s with
  | select q | createTable q => cases he
  | insert q => exact isRemark_of_mem_returningEvents e he
  | update q | delete q =>
    rcases List.mem_append.mp he with he | he
    · exact isRemark_of_mem_unboundedEvents e he
    · exact isRemark_of_mem_returningEvents e he

/-- The limiter remarks on evictions and on callers that ask too often. The refusal is left to the
generator. -/
theorem isRemark_of_mem_admission : ∀ e ∈ (admission c l caller now).2.2, e.IsRemark := by
  intro e he
  cases caller with
  | none => cases he
  | some identity =>
    rw [admission] at he
    split at he
    · obtain ⟨notice, -, rfl⟩ := List.mem_map.mp he
      exact ⟨rfl, rfl⟩
    · cases he

/-- **A call remarks, and then closes with its result.** -/
theorem events_generate (c : GeneratorConfig) (l : RateLimiter) (s : Statement)
    (caller : Option String) (now : Nat) :
    let outcome := generate c l s caller now
    ∃ along, (∀ e ∈ along, e.IsRemark) ∧
      outcome.events = along ++ closingEvents c s caller outcome.result := by
  intro outcome
  have judging : ∀ e ∈ judgingEvents c.rules s, e.IsRemark := isRemark_of_mem_judgingEvents
  have noticed : ∀ e ∈ (admission c l caller now).2.2, e.IsRemark := isRemark_of_mem_admission
  have writing : ∀ e ∈ writingEvents c.dialect s, e.IsRemark := isRemark_of_mem_writingEvents
  simp only [outcome, generate]
  cases c.rules.check s with
  | error e => exact ⟨_, judging, rfl⟩
  | ok u =>
    rcases ha : admission c l caller now with ⟨verdict, limiter, notices⟩
    rw [ha] at noticed
    have before := List.forall_mem_append.mpr ⟨judging, noticed⟩
    cases verdict with
    | error e => exact ⟨_, before, rfl⟩
    | ok u => exact ⟨_, List.forall_mem_append.mpr ⟨before, writing⟩, rfl⟩

/-- **Every call is accounted for.** -/
theorem accounts_generate :
    let outcome := generate c l s caller now
    Event.Accounts c.enableAuditLog outcome.result outcome.events := by
  intro outcome
  obtain ⟨along, remarks, events⟩ := events_generate c l s caller now
  rw [events]
  exact accounts_closingEvents remarks outcome.result

end Generator

namespace Session

variable {s s' : Session} {c : Call} {outcome : Outcome}

/-- Whether a call is on a generator of the session. -/
def reaches (s : Session) (c : Call) : Bool :=
  s.members[c.generator]?.any (·.limiter < s.limiters.length)

/-- Whether a call is on a generator that keeps an audit log. -/
def audits (s : Session) (c : Call) : Bool := s.members[c.generator]?.any (·.config.enableAuditLog)

/-- The audit records of a session. -/
def trail (s : Session) (calls : List Call) : List Event :=
  (s.run calls).flatMap (·.events.filter Event.isAudit)

theorem isSome_call? : (s.call? c).isSome = s.reaches c := by
  rw [reaches, call?]
  cases s.members[c.generator]? with
  | none => rfl
  | some m =>
    by_cases within : m.limiter < s.limiters.length
    · simp [within]
    · simp [within]

/-- Calls leave the generators of a session as they are. -/
theorem reaches_eq_of_call? (h : s.call? c = some (outcome, s')) : s'.reaches = s.reaches := by
  obtain ⟨m, -, l, -, -, rfl⟩ := call?_eq_some_iff.mp h
  funext c
  rw [reaches, reaches, List.length_set]

theorem audits_eq_of_call? (h : s.call? c = some (outcome, s')) : s'.audits = s.audits := by
  funext c
  rw [audits, audits, members_of_call? h]

/-- **A step is accounted for**, as an audited one or not. -/
theorem accounts_of_call? (h : s.call? c = some (outcome, s')) :
    Event.Accounts (s.audits c) outcome.result outcome.events := by
  obtain ⟨m, hm, l, -, rfl, -⟩ := call?_eq_some_iff.mp h
  rw [audits, hm, Option.any_some]
  exact Generator.accounts_generate

/-- **A session logs the calls on its generators.** -/
theorem map_fst_log (s : Session) (calls : List Call) :
    (s.log calls).map (·.1) = calls.filter s.reaches := by
  induction calls generalizing s with
  | nil => rfl
  | cons c calls ih =>
    cases h : s.call? c with
    | none =>
      have unreached : ¬s.reaches c = true := by simp [← isSome_call?, h]
      rw [log, h, List.filter_cons_of_neg unreached]
      exact ih s
    | some p =>
      obtain ⟨outcome, s'⟩ := p
      have reached : s.reaches c = true := by simp [← isSome_call?, h]
      rw [log_cons_of_some h, List.map_cons, List.filter_cons_of_pos reached, ih,
        reaches_eq_of_call? h]

/-- **Every call of a session is accounted for.** -/
theorem accounts_of_mem_log {calls : List Call} {entry : Call × Outcome}
    (h : entry ∈ s.log calls) :
    Event.Accounts (s.audits entry.1) entry.2.result entry.2.events := by
  induction calls generalizing s with
  | nil => cases h
  | cons c calls ih =>
    cases hc : s.call? c with
    | none =>
      rw [log, hc] at h
      exact ih h
    | some p =>
      obtain ⟨outcome, s'⟩ := p
      rw [log_cons_of_some hc] at h
      rcases List.mem_cons.mp h with rfl | h
      · exact accounts_of_call? hc
      · exact audits_eq_of_call? hc ▸ ih h

theorem trail_eq_flatMap_log (s : Session) (calls : List Call) :
    s.trail calls = (s.log calls).flatMap (·.2.events.filter Event.isAudit) := by
  rw [trail, ← map_snd_log, List.flatMap_map]

/-- **The trail is the audited calls, each told by its record.** -/
theorem forall₂_trail (s : Session) (calls : List Call) :
    List.Forall₂ (fun entry record => record.Tells entry.2.result)
      ((s.log calls).filter (s.audits ·.1)) (s.trail calls) := by
  rw [trail_eq_flatMap_log]
  have accounted : ∀ entry ∈ s.log calls,
      Event.Accounts (s.audits entry.1) entry.2.result entry.2.events :=
    fun _ => accounts_of_mem_log
  generalize s.log calls = entries at accounted
  induction entries with
  | nil => exact .nil
  | cons entry entries ih =>
    obtain ⟨first, others⟩ := List.forall_mem_cons.mp accounted
    rw [List.flatMap_cons]
    cases audited : s.audits entry.1 with
    | false =>
      rw [List.filter_cons, if_neg (by simp [audited]),
        Event.filter_isAudit_eq_nil (first.unrecorded audited)]
      exact ih others
    | true =>
      obtain ⟨record, only, tells⟩ := (audited ▸ first).filter_isAudit
      rw [List.filter_cons, if_pos audited, only]
      exact .cons tells (ih others)

/-- **The audit trail is complete and truthful.** In a session over any generators and limiters,
every call on a generator has its entry, and its events account for its result: on a generator that
keeps an audit log the last event is the one audit record, which tells what the caller was told, and
on any other there is none; an error is reported once besides, as a warning if it is of the security
family. So the trail of the session is one record for each audited call, in order, that tells its
result. -/
theorem audit_trail (s : Session) (calls : List Call) :
    (s.log calls).map (·.1) = calls.filter s.reaches ∧
      (∀ entry ∈ s.log calls,
        Event.Accounts (s.audits entry.1) entry.2.result entry.2.events) ∧
      List.Forall₂ (fun entry record => record.Tells entry.2.result)
        ((s.log calls).filter (s.audits ·.1)) (s.trail calls) :=
  ⟨map_fst_log s calls, fun _ => accounts_of_mem_log, forall₂_trail s calls⟩

/-- An attack and a caller who asks again are both recorded as rejected; the generator between them
keeps no log. -/
theorem audit_trail_sample :
    let s := sharing
      [{ GeneratorConfig.strict .mySql with rateLimit := { maxRequests := 1 } },
        { GeneratorConfig.new .postgres with enableAuditLog := false }] (.new {})
    let calls : List Call :=
      [{ generator := 0, statement := deletingNote (.text "1 or 1=1"), caller := "ada", now := 0 },
        { generator := 1, statement := deletingNote (.int 1), caller := "ada", now := 1 },
        { generator := 0, statement := deletingNote (.int 1), caller := "ada", now := 2 }]
    (s.log calls).map (·.1.generator) = [0, 1, 0] ∧
      (s.log calls).map (·.2.result.isOk) = [false, true, false] ∧
      (∀ entry ∈ s.log calls,
        Event.Accounts (s.audits entry.1) entry.2.result entry.2.events) ∧
      (s.trail calls).length = 2 := by
  intro s calls
  obtain ⟨logged, accounted, told⟩ := audit_trail s calls
  have generators := congrArg (List.map Call.generator) logged
  rw [List.map_map] at generators
  exact ⟨generators, by decide +kernel, accounted, told.length_eq.symm.trans (by decide +kernel)⟩

end Session

end BoundSql
