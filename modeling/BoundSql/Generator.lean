import BoundSql.Config.Basic
import BoundSql.Event
import BoundSql.Render
import BoundSql.Rules

/-!
# The generator

A call judges the statement, then asks the limiter if there is a caller to be limited, then writes
the statement. A fault at any of these ends the call and nothing is written. Along the way events
are reported in order, the audit record last.

Main statements: a statement that is refused leaves the limiter alone (`limiter_of_check_error`),
and a call that succeeds returns the statement as its dialect writes it
(`result_eq_ok_iff`).
-/

namespace BoundSql

namespace GeneratorConfig

/-- What the generator judges statements by. -/
def rules (c : GeneratorConfig) : Rules :=
  { level := c.securityLevel
    maxLimit := c.maxLimit
    maxParameterLength := c.maxParameterLength
    profile := c.dialect.profile }

end GeneratorConfig

/-- The outcome of a call. -/
structure Outcome where
  result : Except QueryError GeneratedQuery
  events : List Event
  limiter : RateLimiter

namespace Generator

/-! ## Events along the way -/

/-- What is reported while a statement is judged: that everything is selected at the strict level,
once the selection is judged good. -/
def judgingEvents (r : Rules) : Statement → List Event
  | .select q =>
    if r.level == .strict && q.selectsEverything && (r.checkSelection q).isOk then
      [.selectsEverything (Redaction.nameForLog q.tableName)]
    else []
  | _ => []

/-- What is reported when columns are to be returned. -/
def returningEvents (d : Dialect) (columns : List String) : List Event :=
  if columns.isEmpty || d.profile.supportsReturning then [] else [.returningDropped d]

/-- What is reported when a change has no conditions. -/
def unboundedEvents (kind : StatementKind) (table : String) (conditions : List Condition) :
    List Event :=
  if conditions.isEmpty then [.unbounded kind table] else []

/-- What is reported while a statement is written. -/
def writingEvents (d : Dialect) : Statement → List Event
  | .select _ => []
  | .insert q => returningEvents d q.returned
  | .update q => unboundedEvents .update q.table q.conditions ++ returningEvents d q.returned
  | .delete q => unboundedEvents .delete q.table q.conditions ++ returningEvents d q.returned
  | .createTable _ => []

/-- A caller as logs may show it; without a caller nothing is shown. -/
def callerForLog : Option String → String
  | none => ""
  | some caller => Redaction.nameForLog caller

/-- What is reported of a statement that is not written. -/
def refusalEvents (c : GeneratorConfig) (s : Statement) (caller : Option String)
    (e : QueryError) : List Event :=
  let table := Redaction.nameForLog s.tableName
  .refused s.kind table (callerForLog caller) e ::
    if c.enableAuditLog then
      [.auditRejected s.kind table c.dialect (callerForLog caller) e.code]
    else []

/-- What is reported of a statement that was written. -/
def successEvents (c : GeneratorConfig) (s : Statement) (caller : Option String)
    (q : GeneratedQuery) : List Event :=
  if c.enableAuditLog then
    [.auditGenerated s.kind s.tableName c.dialect (callerForLog caller) q.parameters.length q.sql]
  else []

/-! ## Calls -/

/-- Asks the limiter about a call. Calls without a caller and calls on generators that do not limit
callers are admitted without asking. -/
def admission (c : GeneratorConfig) (l : RateLimiter) (caller : Option String) (now : Nat) :
    Except QueryError Unit × RateLimiter × List Event :=
  match caller with
  | some identity =>
    if c.enableRateLimit then
      let check :=
        l.checkWith identity c.rateLimit.maxRequests c.rateLimit.windowSeconds now
      (match check.result with
        | .ok _ => .ok ()
        | .error e => .error (.security e),
        check.limiter, check.notices.map Event.limiter)
    else (.ok (), l, [])
  | none => (.ok (), l, [])

/-- Generates a statement for a caller at an instant. -/
def generate (c : GeneratorConfig) (l : RateLimiter) (s : Statement) (caller : Option String)
    (now : Nat) : Outcome :=
  let judging := judgingEvents c.rules s
  match c.rules.check s with
  | .error e =>
    { result := .error e, events := judging ++ refusalEvents c s caller e, limiter := l }
  | .ok () =>
    match admission c l caller now with
    | (.error e, limiter, notices) =>
      { result := .error e, events := judging ++ notices ++ refusalEvents c s caller e, limiter }
    | (.ok (), limiter, notices) =>
      let q := s.render c.dialect c.quoteIdentifiers
      { result := .ok q
        events := judging ++ notices ++ writingEvents c.dialect s ++ successEvents c s caller q
        limiter }

/-! ## Lemmas -/

variable {c : GeneratorConfig} {l : RateLimiter} {s : Statement} {caller : Option String}
  {now : Nat}

/-- **A statement that is refused leaves the limiter alone.** -/
theorem limiter_of_check_error {e : QueryError} (h : c.rules.check s = .error e) :
    (generate c l s caller now).limiter = l := by
  simp [generate, h]

/-- What a call comes to once its statement is accepted: the refusal of the limiter if there is one,
and else the statement as its dialect writes it. -/
theorem result_of_check_ok (h : c.rules.check s = .ok ()) :
    (generate c l s caller now).result =
      (admission c l caller now).1.map fun _ => s.render c.dialect c.quoteIdentifiers := by
  simp only [generate, h]
  rcases admission c l caller now with ⟨_ | _, limiter, notices⟩ <;> rfl

/-- **A call that succeeds returns the statement as its dialect writes it.** -/
theorem result_eq_ok_iff {q : GeneratedQuery} :
    (generate c l s caller now).result = .ok q ↔
      c.rules.check s = .ok () ∧ (admission c l caller now).1 = .ok () ∧
        q = s.render c.dialect c.quoteIdentifiers := by
  unfold generate
  cases hc : c.rules.check s with
  | error e => simp
  | ok u =>
    rcases ha : admission c l caller now with ⟨verdict, limiter, notices⟩
    cases verdict with
    | error e => simp
    | ok u => simp [eq_comm]

end Generator

end BoundSql
