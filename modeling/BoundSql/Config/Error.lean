/-!
# Configuration errors

Each setting has one description of what it expects, so an error is a setting and the value that
was found there.
-/

namespace BoundSql

/-- A setting that can hold an unacceptable value. -/
inductive Setting
  | dialect
  | securityLevel
  | enableRateLimit
  | maxRequests
  | windowSeconds
  | enableAuditLog
  | quoteIdentifiers
  | maxLimit
  | maxParameterLength
  deriving DecidableEq, Repr, Inhabited

namespace Setting

/-- The name of a setting. -/
def name : Setting → String
  | dialect => "dialect"
  | securityLevel => "security_level"
  | enableRateLimit => "enable_rate_limit"
  | maxRequests => "rate_limit.max_requests"
  | windowSeconds => "rate_limit.window_seconds"
  | enableAuditLog => "enable_audit_log"
  | quoteIdentifiers => "quote_identifiers"
  | maxLimit => "max_limit"
  | maxParameterLength => "max_parameter_length"

/-- What a setting expects. -/
def expected : Setting → String
  | dialect => "postgresql, mysql, sqlite, mssql, or oracle"
  | securityLevel => "strict, normal, or permissive"
  | enableRateLimit | enableAuditLog | quoteIdentifiers => "true or false"
  | maxRequests => "non-negative integer"
  | windowSeconds => "positive integer"
  | maxLimit | maxParameterLength => "at least 1"

end Setting

/-- A setting with an unacceptable value. -/
structure ConfigError where
  setting : Setting
  value : String
  deriving DecidableEq, Repr

/-- What to say to a reader. -/
def ConfigError.message (e : ConfigError) : String :=
  "Invalid value for " ++ e.setting.name ++ ": '" ++ e.value ++ "' (expected " ++
    e.setting.expected ++ ")"

end BoundSql
