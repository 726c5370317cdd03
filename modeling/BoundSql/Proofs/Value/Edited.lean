import Mathlib.Data.List.Nodup
import BoundSql.Config.Json
import BoundSql.Validation.Json

/-!
# Edited records

An edit of a record drops some of its fields, adds others that it does not know and leaves them all
in any order. Looking fields up by name does not see the rest of the edit: what was kept is found
with its value, and what was dropped is not found (`Edited.keeps`). So settings are read back with
defaults for exactly the fields that were dropped, at both levels, and an error of which nothing was
dropped is read back as it was.

Headline: **`edited_records_read`**.
-/

namespace BoundSql

/-! ## Edits -/

namespace Value

variable {α : Type} {removed : List String} {fields rest : List (String × Value)} {w x : Value}
  {name : String}

/-- An object without the fields of some names and with others under names that it does not have,
in any order. -/
inductive Edited (removed : List String) : Value → Value → Prop
  | object {fields added rest : List (String × Value)}
      (unknown : ∀ f ∈ added, f.1 ∉ fields.map (·.1))
      (order : rest.Perm (fields.filter (·.1 ∉ removed) ++ added)) :
      Edited removed (.object fields) (.object rest)

/-- The object with another value in a field that it has. -/
def setField (v : Value) (name : String) (x : Value) : Value :=
  match v with
  | object fields => object (fields.map fun f => if f.1 = name then (name, x) else f)
  | v => v

/-- Each field is found with its value, unless its name is among the removed ones. -/
def Keeps (removed : List String) (fields rest : List (String × Value)) : Prop :=
  ∀ name x, fields.lookup name = some x →
    rest.lookup name = if name ∈ removed then none else some x

theorem lookup_eq_some_of_mem (h : (name, x) ∈ fields) (unique : ∀ y, (name, y) ∈ fields → y = x) :
    fields.lookup name = some x := by
  induction fields with
  | nil => cases h
  | cons f fields ih =>
    obtain ⟨k, y⟩ := f
    by_cases same : name = k
    · subst same
      rw [List.lookup_cons_self, unique y List.mem_cons_self]
    · have later : (name, x) ∈ fields := by simpa [same] using h
      rw [List.lookup_cons, beq_eq_false_iff_ne.mpr same]
      exact ih later fun z hz => unique z (List.mem_cons_of_mem _ hz)

/-- **An edit keeps what it does not remove.** -/
theorem Edited.keeps (h : Edited removed (.object fields) w) (distinct : (fields.map (·.1)).Nodup) :
    ∃ rest, w = .object rest ∧ Keeps removed fields rest := by
  obtain @⟨_, added, rest, unknown, order⟩ := h
  refine ⟨rest, rfl, fun name x found => ?_⟩
  have here : (name, x) ∈ fields := by
    obtain ⟨before, behind, cut, -⟩ := List.lookup_eq_some_iff.mp found
    simp [cut]
  have entries (y : Value) : (name, y) ∈ rest ↔ name ∉ removed ∧ y = x := by
    rw [order.mem_iff, List.mem_append, List.mem_filter, decide_eq_true_eq]
    constructor
    · rintro (⟨kept, stays⟩ | new)
      · exact ⟨stays, congrArg Prod.snd (List.inj_on_of_nodup_map distinct kept here rfl)⟩
      · exact absurd (List.mem_map_of_mem here) (unknown (name, y) new)
    · rintro ⟨stays, rfl⟩
      exact .inl ⟨here, stays⟩
  by_cases gone : name ∈ removed
  · rw [if_pos gone, List.lookup_eq_none_iff]
    rintro ⟨k, y⟩ hy
    refine bne_iff_ne.mpr ?_
    rintro rfl
    exact ((entries y).mp hy).1 gone
  · rw [if_neg gone]
    exact lookup_eq_some_of_mem ((entries x).mpr ⟨gone, rfl⟩) fun y hy => ((entries y).mp hy).2

theorem Keeps.optional (h : Keeps removed fields rest) (name : String) (read : Value → Option α)
    {a : α} (found : fields.lookup name = some x) (reads : read x = some a) (default : α) :
    optional rest name read default = some (if name ∈ removed then default else a) := by
  rw [Value.optional, h name x found]
  by_cases gone : name ∈ removed
  · rw [if_pos gone, if_pos gone]
  · rw [if_neg gone, if_neg gone]
    exact reads

theorem Keeps.required (h : Keeps [] fields rest) (name : String) (read : Value → Option α) {a : α}
    (found : fields.lookup name = some x) (reads : read x = some a) :
    required rest name read = some a := by
  rw [Value.required, h name x found]
  exact reads

end Value

open Value

/-! ## Settings -/

namespace RateLimitConfig

variable {c : RateLimitConfig} {removed : List String} {w : Value}

/-- The numbers fit the words that hold them. -/
def InWords (c : RateLimitConfig) : Prop :=
  c.maxRequests < wordBound32 ∧ c.windowSeconds < wordBound64 ∧
    c.maxTrackedIdentities < wordBound64

/-- The limits with defaults in the fields of some names. -/
def reset (removed : List String) (c : RateLimitConfig) : RateLimitConfig :=
  let d : RateLimitConfig := {}
  { maxRequests := if "max_requests" ∈ removed then d.maxRequests else c.maxRequests
    windowSeconds := if "window_seconds" ∈ removed then d.windowSeconds else c.windowSeconds
    maxTrackedIdentities :=
      if "max_tracked_identities" ∈ removed then d.maxTrackedIdentities
      else c.maxTrackedIdentities }

/-- **Edited limits are read with defaults for what was removed.** -/
theorem ofValue?_of_edited (fits : c.InWords) (h : Edited removed c.toValue w) :
    ofValue? w = some (c.reset removed) := by
  obtain ⟨rest, rfl, keeps⟩ := h.keeps (by simp)
  obtain ⟨requests, seconds, tracked⟩ := fits
  have requests := keeps.optional "max_requests" word32? rfl (nat?_int_natCast requests)
  have seconds := keeps.optional "window_seconds" word64? rfl (nat?_int_natCast seconds)
  have tracked := keeps.optional "max_tracked_identities" word64? rfl (nat?_int_natCast tracked)
  simp only [ofValue?, record?, Option.bind_eq_bind, Option.bind_some, requests,
    seconds, tracked]
  rfl

end RateLimitConfig

namespace GeneratorConfig

variable {c : GeneratorConfig} {removed removedLimits : List String} {limits w : Value}

/-- The numbers fit the words that hold them. -/
def InWords (c : GeneratorConfig) : Prop :=
  (minInt64 ≤ c.maxLimit ∧ c.maxLimit ≤ maxInt64) ∧ c.maxParameterLength < wordBound64 ∧
    c.rateLimit.InWords

/-- The configuration with defaults in the fields of some names, and in those of other names inside
the limits. -/
def reset (removed removedLimits : List String) (c : GeneratorConfig) : GeneratorConfig :=
  let d : GeneratorConfig := {}
  { dialect := if "dialect" ∈ removed then d.dialect else c.dialect
    securityLevel := if "security_level" ∈ removed then d.securityLevel else c.securityLevel
    enableRateLimit :=
      if "enable_rate_limit" ∈ removed then d.enableRateLimit else c.enableRateLimit
    enableAuditLog := if "enable_audit_log" ∈ removed then d.enableAuditLog else c.enableAuditLog
    rateLimit := if "rate_limit" ∈ removed then d.rateLimit else c.rateLimit.reset removedLimits
    maxLimit := if "max_limit" ∈ removed then d.maxLimit else c.maxLimit
    maxParameterLength :=
      if "max_parameter_length" ∈ removed then d.maxParameterLength else c.maxParameterLength
    quoteIdentifiers :=
      if "quote_identifiers" ∈ removed then d.quoteIdentifiers else c.quoteIdentifiers }

/-- The record with other limits. -/
theorem setField_toValue (c : GeneratorConfig) (limits : Value) :
    c.toValue.setField "rate_limit" limits =
      .object [("dialect", .text c.dialect.recordName),
        ("enable_audit_log", .bool c.enableAuditLog),
        ("enable_rate_limit", .bool c.enableRateLimit),
        ("max_limit", .int c.maxLimit),
        ("max_parameter_length", .int c.maxParameterLength),
        ("quote_identifiers", .bool c.quoteIdentifiers),
        ("rate_limit", limits),
        ("security_level", .text c.securityLevel.name)] := by
  simp [toValue, setField]

/-- **Edited settings are read with defaults for what was removed**, also inside the limits. -/
theorem ofValue?_of_edited (fits : c.InWords)
    (inner : Edited removedLimits c.rateLimit.toValue limits)
    (outer : Edited removed (c.toValue.setField "rate_limit" limits) w) :
    ofValue? w = some (c.reset removed removedLimits) := by
  rw [setField_toValue] at outer
  obtain ⟨rest, rfl, keeps⟩ := outer.keeps (by simp)
  obtain ⟨limitFits, lengthFits, limitsFit⟩ := fits
  have dialect := keeps.optional "dialect" (·.name?.bind Dialect.ofRecordName?) rfl
    (Dialect.ofRecordName?_recordName c.dialect)
  have level := keeps.optional "security_level" (·.name?.bind SecurityLevel.ofRecordName?) rfl
    (SecurityLevel.ofRecordName?_name c.securityLevel)
  have limited := keeps.optional "enable_rate_limit" bool? rfl rfl
  have audited := keeps.optional "enable_audit_log" bool? rfl rfl
  have rateLimit := keeps.optional "rate_limit" RateLimitConfig.ofValue? rfl
    (RateLimitConfig.ofValue?_of_edited limitsFit inner)
  have maxLimit := keeps.optional "max_limit" int64? rfl (int64?_int limitFits.1 limitFits.2)
  have maxLength := keeps.optional "max_parameter_length" word64? rfl (nat?_int_natCast lengthFits)
  have quoted := keeps.optional "quote_identifiers" bool? rfl rfl
  simp only [ofValue?, record?, Option.bind_eq_bind, Option.bind_some, dialect, level, limited,
    audited, rateLimit, maxLimit, maxLength, quoted]
  rfl

end GeneratorConfig

/-! ## Errors -/

namespace ValidationError

variable {e : ValidationError} {w : Value}

/-- **An error is read back from its record and anything added to it.** -/
theorem ofValue?_of_edited (fits : e.InWords) (h : Edited [] e.toValue w) :
    ofValue? w = some e ∧ w.tagged? tagName = some (e.code, w) := by
  have tagged {fields rest : List (String × Value)} (keeps : Keeps [] fields rest)
      (found : fields.lookup tagName = some (.text e.tag)) :
      (object rest).tagged? tagName = some (e.code, object rest) := by
    rw [tagged?, keeps tagName _ found, if_neg List.not_mem_nil, tag_eq_code]
  cases e with
  | invalidIdentifier identifier reason =>
    obtain ⟨rest, rfl, keeps⟩ := h.keeps (by simp [tagName])
    have tagged := tagged keeps rfl
    have identifier := keeps.required "identifier" text? rfl rfl
    have reason := keeps.required "reason" text? rfl rfl
    refine ⟨?_, tagged⟩
    simp only [ofValue?, tagged, code, record?, Option.bind_eq_bind, Option.bind_some, identifier,
      reason]
    rfl
  | outOfRange value min max =>
    obtain ⟨rest, rfl, keeps⟩ := h.keeps (by simp [tagName])
    have tagged := tagged keeps rfl
    have inWord : ∀ n ∈ [value, min, max], int64? (.int n) = some n := fun n hn =>
      int64?_int (fits n hn).1 (fits n hn).2
    have value := keeps.required "value" int64? rfl (inWord value (by simp))
    have min := keeps.required "min" int64? rfl (inWord min (by simp))
    have max := keeps.required "max" int64? rfl (inWord max (by simp))
    refine ⟨?_, tagged⟩
    simp only [ofValue?, tagged, code, record?, Option.bind_eq_bind, Option.bind_some, value, min,
      max]
    rfl
  | tooLong length maxLength =>
    obtain ⟨rest, rfl, keeps⟩ := h.keeps (by simp [tagName])
    have tagged := tagged keeps rfl
    have length := keeps.required "length" word64? rfl (nat?_int_natCast fits.1)
    have maxLength := keeps.required "max_length" word64? rfl (nat?_int_natCast fits.2)
    refine ⟨?_, tagged⟩
    simp only [ofValue?, tagged, code, record?, Option.bind_eq_bind, Option.bind_some, length,
      maxLength]
    rfl
  | malformedEmail email reason =>
    obtain ⟨rest, rfl, keeps⟩ := h.keeps (by simp [tagName])
    have tagged := tagged keeps rfl
    have email := keeps.required "email" text? rfl rfl
    have reason := keeps.required "reason" text? rfl rfl
    refine ⟨?_, tagged⟩
    simp only [ofValue?, tagged, code, record?, Option.bind_eq_bind, Option.bind_some, email,
      reason]
    rfl
  | injectionDetected technique =>
    obtain ⟨rest, rfl, keeps⟩ := h.keeps (by simp [tagName])
    have tagged := tagged keeps rfl
    have name := keeps.required "class" nameInTagged? rfl rfl
    have read := InjectionClass.ofName?_name technique
    refine ⟨?_, tagged⟩
    simp only [ofValue?, tagged, code, record?, Option.bind_eq_bind, Option.bind_some, name, read]
    rfl

end ValidationError

/-! ## Records -/

/-- **What is written is read back after any edit**, with defaults for exactly the fields of a
configuration that the edit removes from its record or from the record of limits inside; and an
error, from whose record nothing may be removed, under its code for a tag. -/
theorem edited_records_read :
    (∀ (c : GeneratorConfig) (removed removedLimits : List String) (limits w : Value), c.InWords →
      Edited removedLimits c.rateLimit.toValue limits →
      Edited removed (c.toValue.setField "rate_limit" limits) w →
        GeneratorConfig.ofValue? w = some (c.reset removed removedLimits)) ∧
    ∀ (e : ValidationError) (w : Value), e.InWords → Edited [] e.toValue w →
      ValidationError.ofValue? w = some e ∧
        w.tagged? ValidationError.tagName = some (e.code, w) :=
  ⟨fun _ _ _ _ _ fits inner outer => GeneratorConfig.ofValue?_of_edited fits inner outer,
    fun _ _ fits h => ValidationError.ofValue?_of_edited fits h⟩

theorem edited_records_read_sample :
    let c : GeneratorConfig :=
      { dialect := .mySql, securityLevel := .strict, maxLimit := 50, quoteIdentifiers := true
        rateLimit := { maxRequests := 7, windowSeconds := 0 } }
    let limits : Value := .object [("burst", .null), ("max_requests", .int 7)]
    let w : Value := .object [("max_limits", .int 5), ("dialect", .text "mysql"),
      ("quote_identifiers", .bool true), ("rate_limit", limits)]
    let e : ValidationError := .outOfRange 0 1 10
    let w' : Value := .object [("reason", .text "too small"), ("code", .text "out_of_range"),
      ("max", .int 10), ("min", .int 1), ("value", .int 0)]
    c.InWords ∧ Edited ["max_tracked_identities", "window_seconds"] c.rateLimit.toValue limits ∧
      Edited ["enable_audit_log", "enable_rate_limit", "max_limit", "max_parameter_length",
        "security_level"] (c.toValue.setField "rate_limit" limits) w ∧
      GeneratorConfig.ofValue? w =
        some { dialect := .mySql, quoteIdentifiers := true, rateLimit := { maxRequests := 7 } } ∧
      e.InWords ∧ Edited [] e.toValue w' ∧
      ValidationError.ofValue? w' = some e ∧ w'.tagged? "code" = some ("out_of_range", w') := by
  intro c limits w e w'
  have front (f : String × Value) (fs : List (String × Value)) : (f :: fs).Perm (fs ++ [f]) :=
    (List.perm_append_singleton f fs).symm
  have fits : c.InWords := ⟨by decide, by decide, by decide, by decide, by decide⟩
  have inner : Edited ["max_tracked_identities", "window_seconds"] c.rateLimit.toValue limits :=
    .object (by simp) (front ("burst", .null) [("max_requests", .int 7)])
  have outer : Edited ["enable_audit_log", "enable_rate_limit", "max_limit",
      "max_parameter_length", "security_level"] (c.toValue.setField "rate_limit" limits) w := by
    rw [GeneratorConfig.setField_toValue]
    exact .object (by simp) (front ("max_limits", .int 5) [("dialect", .text "mysql"),
      ("quote_identifiers", .bool true), ("rate_limit", limits)])
  have fits' : e.InWords := by
    intro n hn
    simp only [List.mem_cons, List.not_mem_nil, or_false] at hn
    rcases hn with rfl | rfl | rfl <;> decide
  have whole : Edited [] e.toValue w' := by
    rw [ValidationError.toValue, ValidationError.tag_eq_code]
    exact .object (by simp [ValidationError.tagName]) (front ("reason", .text "too small")
      [("code", .text "out_of_range"), ("max", .int 10), ("min", .int 1), ("value", .int 0)])
  exact ⟨fits, inner, outer, edited_records_read.1 c _ _ limits w fits inner outer, fits', whole,
    edited_records_read.2 e w' fits' whole⟩

end BoundSql
