import BoundSql.Config.Basic
import BoundSql.Text.Numeral

/-!
# Configuration by variables

Settings are taken one by one from named variables, in a fixed order; the first unacceptable value
stops the reading. A setting without a variable keeps its default, and the whole has to meet the
conditions of a configuration.
-/

namespace BoundSql.GeneratorConfig

/-- A variable's value, if it is set. -/
abbrev Lookup := String → Option String

/-! ## Values -/

/-- A truth value in one of its spellings. -/
def readBool? (s : String) : Option Bool :=
  match Text.configWord s with
  | "true" | "1" | "yes" | "on" => some true
  | "false" | "0" | "no" | "off" => some false
  | _ => none

/-- A count below `bound`, white space around it being ignored. -/
def readCount? (bound : Nat) (s : String) : Option Nat := Text.readNat? bound (Text.trim s.toList)

/-! ## Variables -/

/-- A setting that a variable can hold: the name of the variable and how its text changes a
configuration, if it can be read. -/
structure Variable where
  name : String
  setting : Setting
  assign? : String → GeneratorConfig → Option GeneratorConfig

/-- The variables in the order in which they are read. -/
def allVariables : List Variable :=
  [{ name := "SQLGUARD_DIALECT", setting := .dialect
     assign? := fun s c => (Dialect.ofText? s).map fun d => { c with dialect := d } },
   { name := "SQLGUARD_SECURITY_LEVEL", setting := .securityLevel
     assign? := fun s c => (SecurityLevel.ofText? s).map fun l => { c with securityLevel := l } },
   { name := "SQLGUARD_RATE_LIMIT", setting := .enableRateLimit
     assign? := fun s c => (readBool? s).map fun b => { c with enableRateLimit := b } },
   { name := "SQLGUARD_RATE_LIMIT_MAX_REQUESTS", setting := .maxRequests
     assign? := fun s c => (readCount? Value.wordBound32 s).map fun n =>
       { c with rateLimit := { c.rateLimit with maxRequests := n } } },
   { name := "SQLGUARD_RATE_LIMIT_WINDOW_SECONDS", setting := .windowSeconds
     assign? := fun s c => (readCount? Value.wordBound64 s).map fun n =>
       { c with rateLimit := { c.rateLimit with windowSeconds := n } } },
   { name := "SQLGUARD_AUDIT_LOG", setting := .enableAuditLog
     assign? := fun s c => (readBool? s).map fun b => { c with enableAuditLog := b } },
   { name := "SQLGUARD_QUOTE_IDENTIFIERS", setting := .quoteIdentifiers
     assign? := fun s c => (readBool? s).map fun b => { c with quoteIdentifiers := b } }]

/-- A configuration changed by one variable, if it is set. -/
def readVariable (lookup : Lookup) (c : GeneratorConfig) (v : Variable) :
    Except ConfigError GeneratorConfig :=
  match lookup v.name with
  | none => .ok c
  | some s =>
    match v.assign? s c with
    | some c' => .ok c'
    | none => .error ⟨v.setting, s⟩

/-- The configuration that variables describe. -/
def fromVariables (lookup : Lookup) : Except ConfigError GeneratorConfig := do
  let c ← allVariables.foldlM (readVariable lookup) {}
  c.validate

end BoundSql.GeneratorConfig
