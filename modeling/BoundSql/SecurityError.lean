import BoundSql.Injection

/-!
# Security errors

Refusals of input that looks malicious and of callers that ask too often.
-/

namespace BoundSql

/-- A refusal of malicious input or of an abusive caller. -/
inductive SecurityError
  | injectionDetected (technique : InjectionClass)
  /-- The identity is held as logs may show it. -/
  | rateLimitExceeded (identity : String) (limit windowSeconds : Nat)
  deriving DecidableEq, Repr

namespace SecurityError

/-- The name of the kind of error. -/
def code : SecurityError → String
  | injectionDetected _ => "injection_detected"
  | rateLimitExceeded .. => "rate_limit_exceeded"

/-- What to say to a reader. -/
def message : SecurityError → String
  | injectionDetected technique => "Potential SQL injection detected (" ++ technique.name ++ ")"
  | rateLimitExceeded identity limit windowSeconds =>
    "Rate limit exceeded for '" ++ identity ++ "': " ++ toString limit ++ " requests per " ++
      toString windowSeconds ++ " seconds"

end SecurityError

end BoundSql
