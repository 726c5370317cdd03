import BoundSql.Config.Error
import BoundSql.Dialect.Basic
import BoundSql.RateLimit.Config

/-!
# The configuration of a generator

The settings of a generator, ready-made ones, and the conditions that settings have to meet.
-/

namespace BoundSql

/-- The settings of a generator. -/
structure GeneratorConfig where
  dialect : Dialect := .postgres
  securityLevel : SecurityLevel := .normal
  /-- Whether callers with an identity are limited. -/
  enableRateLimit : Bool := true
  enableAuditLog : Bool := true
  rateLimit : RateLimitConfig := {}
  /-- The greatest row limit. -/
  maxLimit : Int := 10000
  /-- The most characters of a bound text. -/
  maxParameterLength : Nat := 65536
  quoteIdentifiers : Bool := false
  deriving DecidableEq, Repr, Inhabited

namespace GeneratorConfig

/-! ## Ready-made settings -/

/-- The default settings for a dialect. -/
def new (dialect : Dialect) : GeneratorConfig := { dialect }

/-- Strict judgement, quoted identifiers and ten requests a minute. -/
def strict (dialect : Dialect) : GeneratorConfig :=
  { dialect, securityLevel := .strict, rateLimit := .strict, quoteIdentifiers := true }

/-- Dotted names and a thousand requests a minute. -/
def permissive (dialect : Dialect) : GeneratorConfig :=
  { dialect, securityLevel := .permissive, rateLimit := .permissive }

/-! ## Changes -/

def withSecurityLevel (c : GeneratorConfig) (level : SecurityLevel) : GeneratorConfig :=
  { c with securityLevel := level }

/-- Limits callers to so many requests in a window of so many seconds. -/
def withRateLimit (c : GeneratorConfig) (maxRequests windowSeconds : Nat) : GeneratorConfig :=
  { c with enableRateLimit := true, rateLimit := { c.rateLimit with maxRequests, windowSeconds } }

def withoutRateLimit (c : GeneratorConfig) : GeneratorConfig := { c with enableRateLimit := false }

def withAuditLog (c : GeneratorConfig) (enabled : Bool) : GeneratorConfig :=
  { c with enableAuditLog := enabled }

def withMaxLimit (c : GeneratorConfig) (maxLimit : Int) : GeneratorConfig := { c with maxLimit }

def withQuotedIdentifiers (c : GeneratorConfig) (quoted : Bool) : GeneratorConfig :=
  { c with quoteIdentifiers := quoted }

/-! ## Conditions -/

/-- The settings themselves, or the first that does not meet its condition. -/
def validate (c : GeneratorConfig) : Except ConfigError GeneratorConfig :=
  if c.maxLimit < 1 then .error ⟨.maxLimit, toString c.maxLimit⟩
  else if c.maxParameterLength = 0 then .error ⟨.maxParameterLength, "0"⟩
  else if c.enableRateLimit ∧ c.rateLimit.windowSeconds = 0 then .error ⟨.windowSeconds, "0"⟩
  else .ok c

/-- **What acceptable settings are.** -/
theorem validate_eq_ok_iff {c c' : GeneratorConfig} :
    c.validate = .ok c' ↔ c' = c ∧ 1 ≤ c.maxLimit ∧ 0 < c.maxParameterLength ∧
      (c.enableRateLimit = true → 0 < c.rateLimit.windowSeconds) := by
  unfold validate
  split
  · simp only [reduceCtorEq, false_iff]
    omega
  · split
    · simp only [reduceCtorEq, false_iff]
      omega
    · split
      · rename_i h
        simp only [reduceCtorEq, false_iff]
        rintro ⟨_, _, _, hw⟩
        have := hw h.1
        omega
      · rename_i h
        simp only [Except.ok.injEq]
        constructor
        · rintro rfl
          refine ⟨rfl, by omega, by omega, fun he => ?_⟩
          have : c.rateLimit.windowSeconds ≠ 0 := fun h0 => h ⟨he, h0⟩
          omega
        · rintro ⟨rfl, _⟩
          rfl

end GeneratorConfig

end BoundSql
