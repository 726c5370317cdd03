import BoundSql.Dialect.Basic
import BoundSql.QueryError
import BoundSql.RateLimit.Limiter

/-!
# Events

What a generator reports while it works: notices of the limiter, warnings on statements, and the
audit records. An event is what happened; its level, its message and its fields follow from that.
Names and identities are held as logs may show them, except in records of accepted statements,
whose names are identifiers.
-/

namespace BoundSql

/-- How urgent an event is. -/
inductive EventLevel
  | debug
  | info
  | warn
  deriving DecidableEq, Repr, Inhabited

/-- The name of a level. -/
def EventLevel.name : EventLevel → String
  | debug => "DEBUG"
  | info => "INFO"
  | warn => "WARN"

/-- Something a generator reports. -/
inductive Event
  | limiter (notice : RateLimiter.Notice)
  /-- All columns are selected at the strict level. -/
  | selectsEverything (table : String)
  /-- Every row of a table is changed or deleted. -/
  | unbounded (kind : StatementKind) (table : String)
  /-- The dialect cannot return columns, so they are left out. -/
  | returningDropped (dialect : Dialect)
  /-- A statement was not written. -/
  | refused (kind : StatementKind) (table caller : String) (error : QueryError)
  /-- The audit record of a statement that was not written. -/
  | auditRejected (kind : StatementKind) (table : String) (dialect : Dialect) (caller code : String)
  /-- The audit record of a statement that was written. -/
  | auditGenerated (kind : StatementKind) (table : String) (dialect : Dialect) (caller : String)
      (parameters : Nat) (sql : String)
  deriving DecidableEq, Repr

namespace Event

/-- How much of the message of an error a log shows. -/
def reasonCap : Nat := 256

/-- How urgent an event is. Refusals are warnings if they are of the security family. -/
def level : Event → EventLevel
  | limiter (.evicted ..) => .debug
  | limiter (.exceeded ..) => .warn
  | selectsEverything _ => .warn
  | unbounded .. => .warn
  | returningDropped _ => .debug
  | refused _ _ _ error => if error.isSecurity then .warn else .debug
  | auditRejected .. => .info
  | auditGenerated .. => .info

/-- Whether an event is an audit record. -/
def isAudit : Event → Bool
  | auditRejected .. | auditGenerated .. => true
  | _ => false

/-- What to say to a reader. -/
def message : Event → String
  | limiter notice => notice.message
  | selectsEverything _ => "SELECT * under strict security level"
  | unbounded kind _ => kind.text ++ " without WHERE affects every row"
  | returningDropped _ => "RETURNING not supported, clause dropped"
  | refused _ _ _ error => Redaction.forLog reasonCap error.message
  | auditRejected .. => "query rejected"
  | auditGenerated .. => "query generated"

/-- The named details of an event. -/
def fields : Event → List (String × String)
  | limiter _ => []
  | selectsEverything table => [("table", table)]
  | unbounded _ table => [("table", table)]
  | returningDropped dialect => [("dialect", dialect.name)]
  | refused kind table caller error =>
    [("kind", kind.text), ("table", table)] ++
      (if error.isSecurity then [("caller", caller)] else []) ++ [("code", error.code)]
  | auditRejected kind table dialect caller code =>
    [("kind", kind.text), ("table", table), ("dialect", dialect.name), ("caller", caller),
      ("code", code)]
  | auditGenerated kind table dialect caller parameters sql =>
    [("kind", kind.text), ("table", table), ("dialect", dialect.name), ("caller", caller),
      ("parameters", toString parameters), ("sql", sql)]

end Event

end BoundSql
