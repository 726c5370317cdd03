import BoundSql.Config.Basic

/-!
# Configurations as JSON

A configuration is a record with a record of limits inside. What is missing has its default, also
inside the limits; what is unknown is passed over. Reading does not ask whether the settings meet
their conditions.
-/

namespace BoundSql

/-- The security level of a name in records. -/
def SecurityLevel.ofRecordName? (s : String) : Option SecurityLevel :=
  [strict, normal, permissive].find? (·.name == s)

/-- Every level is read back from its name in records. -/
theorem SecurityLevel.ofRecordName?_name (level : SecurityLevel) :
    ofRecordName? level.name = some level := by
  cases level <;> rfl

namespace GeneratorConfig

/-- The configuration as a record. -/
def toValue (c : GeneratorConfig) : Value :=
  .object [("dialect", .text c.dialect.recordName),
    ("enable_audit_log", .bool c.enableAuditLog),
    ("enable_rate_limit", .bool c.enableRateLimit),
    ("max_limit", .int c.maxLimit),
    ("max_parameter_length", .int c.maxParameterLength),
    ("quote_identifiers", .bool c.quoteIdentifiers),
    ("rate_limit", c.rateLimit.toValue),
    ("security_level", .text c.securityLevel.name)]

/-- The fields of the record in the order of their declaration. -/
def fieldNames : List String :=
  ["dialect", "security_level", "enable_rate_limit", "enable_audit_log", "rate_limit", "max_limit",
    "max_parameter_length", "quote_identifiers"]

/-- The configuration of a record; what is missing has its default. -/
def ofValue? (v : Value) : Option GeneratorConfig := do
  let fields ← v.record? fieldNames
  let d : GeneratorConfig := {}
  return {
    dialect :=
      ← Value.optional fields "dialect" (·.name?.bind Dialect.ofRecordName?) d.dialect
    securityLevel :=
      ← Value.optional fields "security_level" (·.name?.bind SecurityLevel.ofRecordName?)
        d.securityLevel
    enableRateLimit := ← Value.optional fields "enable_rate_limit" Value.bool? d.enableRateLimit
    enableAuditLog := ← Value.optional fields "enable_audit_log" Value.bool? d.enableAuditLog
    rateLimit := ← Value.optional fields "rate_limit" RateLimitConfig.ofValue? d.rateLimit
    maxLimit := ← Value.optional fields "max_limit" Value.int64? d.maxLimit
    maxParameterLength :=
      ← Value.optional fields "max_parameter_length" Value.word64? d.maxParameterLength
    quoteIdentifiers :=
      ← Value.optional fields "quote_identifiers" Value.bool? d.quoteIdentifiers }

end GeneratorConfig

end BoundSql
