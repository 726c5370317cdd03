import BoundSql.Injection

/-!
# Validation errors

Why an input was refused. An error never carries the raw input: identifiers and addresses are held
in the form that logs may show.
-/

namespace BoundSql

/-- Why an input was refused. -/
inductive ValidationError
  /-- A name is no identifier; the name is held as logs may show it. -/
  | invalidIdentifier (identifier reason : String)
  | outOfRange (value min max : Int)
  /-- A text has `length` characters where `maxLength` are allowed. -/
  | tooLong (length maxLength : Nat)
  /-- A text is no address; it is held as logs may show it. -/
  | malformedEmail (email reason : String)
  | injectionDetected (technique : InjectionClass)
  deriving DecidableEq, Repr

namespace ValidationError

/-- The name of the kind of error. -/
def code : ValidationError → String
  | invalidIdentifier .. => "invalid_identifier"
  | outOfRange .. => "out_of_range"
  | tooLong .. => "too_long"
  | malformedEmail .. => "malformed_email"
  | injectionDetected .. => "injection_detected"

/-- What to say to a reader. -/
def message : ValidationError → String
  | invalidIdentifier identifier reason => "Invalid identifier '" ++ identifier ++ "': " ++ reason
  | outOfRange value min max =>
    "Value " ++ toString value ++ " is out of range (expected " ++ toString min ++ "..=" ++
      toString max ++ ")"
  | tooLong length maxLength =>
    "Value is too long (" ++ toString length ++ " characters, max " ++ toString maxLength ++ ")"
  | malformedEmail email reason => "Malformed email address '" ++ email ++ "': " ++ reason
  | injectionDetected technique => "Potential SQL injection detected (" ++ technique.name ++ ")"

/-- Whether the input looks malicious rather than malformed. -/
def isSecurityViolation : ValidationError → Bool
  | injectionDetected _ => true
  | _ => false

end ValidationError

end BoundSql
