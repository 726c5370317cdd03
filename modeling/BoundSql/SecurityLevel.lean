import BoundSql.Text.Case
import BoundSql.Text.Split

/-!
# Security levels

A level says how strictly the structural inputs of one call are judged. Levels are named in
configurations, in any letter case and with two synonyms.
-/

namespace BoundSql

/-- How strictly structural inputs are judged. -/
inductive SecurityLevel
  /-- Reserved keywords are no identifiers and bound strings are screened for injection. -/
  | strict
  | normal
  /-- Dotted names may stand where a plain identifier is expected. -/
  | permissive
  deriving DecidableEq, Repr, Inhabited

/-- A keyword of a configuration: the text without white space around it, in small letters. Of the
letters beyond ASCII only the Kelvin sign has a small form in ASCII, a `k`, and no keyword has one;
so lowering the ASCII letters is enough. -/
def Text.configWord (s : String) : String := String.ofList (Text.asciiLower (Text.trim s.toList))

namespace SecurityLevel

def rejectsReservedKeywords (level : SecurityLevel) : Bool := level == strict

def allowsQualifiedNames (level : SecurityLevel) : Bool := level == permissive

def screensParameters (level : SecurityLevel) : Bool := level == strict

/-- The name of a level. -/
def name : SecurityLevel → String
  | strict => "strict"
  | normal => "normal"
  | permissive => "permissive"

/-- The level a text names, if it names one. -/
def ofText? (s : String) : Option SecurityLevel :=
  match Text.configWord s with
  | "strict" => some strict
  | "normal" | "default" => some normal
  | "permissive" | "relaxed" => some permissive
  | _ => none

/-- The names a level can be given. -/
def expected : String := "strict, normal, or permissive"

/-- What to say of a text that names no level. -/
def unknownMessage (s : String) : String :=
  "unknown security level '" ++ s ++ "' (expected " ++ expected ++ ")"

/-- The level at which a name that must not be dotted is judged. -/
def undotted : SecurityLevel → SecurityLevel
  | permissive => normal
  | level => level

/-- Every level is read back from its name. -/
theorem ofText?_name (level : SecurityLevel) : ofText? level.name = some level := by
  cases level <;> rfl

@[simp] theorem allowsQualifiedNames_undotted (level : SecurityLevel) :
    level.undotted.allowsQualifiedNames = false := by
  cases level <;> rfl

@[simp] theorem rejectsReservedKeywords_undotted (level : SecurityLevel) :
    level.undotted.rejectsReservedKeywords = level.rejectsReservedKeywords := by
  cases level <;> rfl

end SecurityLevel

end BoundSql
