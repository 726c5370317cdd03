import BoundSql.Config.Variables
import BoundSql.Judgement
import BoundSql.Proofs.Text.Ascii

/-!
# Settings in variables

A variable changes its own setting and no other (`agreeOutside_of_assign?`), and it takes that
setting from every spelling of the text that shows it, in any letter case and with white space
around (`assign?_of_isSpelling`). The fold over the variables preserves both: what is set is spelled
by a variable, and everything else has its default.

Headline: **`variables_carry_settings`**.
-/

namespace BoundSql

/-! ## Spellings -/

namespace Text

/-- The text is the word in any case of its ASCII letters, with white space around it. -/
def IsSpelling (word s : String) : Prop :=
  ∃ before body after : List Char, s.toList = before ++ body ++ after ∧
    (∀ x ∈ before, isWhiteSpace x = true) ∧ (∀ x ∈ after, isWhiteSpace x = true) ∧
    SameButCase body word.toList

variable {word s : String} {n bound : Nat}

/-- White space around a word is all that trimming takes away. -/
theorem sameButCase_trim (h : IsSpelling word s) (solid : word.toList.all (!isWhiteSpace ·)) :
    SameButCase (trim s.toList) word.toList := by
  obtain ⟨before, body, after, cut, left, right, same⟩ := h
  have visible : ∀ x ∈ body, isWhiteSpace x = false :=
    forall_mem_of_sameButCase isWhiteSpace_toLower same fun y hy => by
      simpa using List.all_eq_true.mp solid y hy
  rw [cut, trim_append left visible right]
  exact same

/-- **A spelling of a word is the same keyword.** -/
theorem configWord_of_isSpelling (h : IsSpelling word s)
    (solid : word.toList.all (!isWhiteSpace ·)) : configWord s = configWord word := by
  have plain : IsSpelling word word := ⟨[], word.toList, [], by simp, by simp, by simp, rfl⟩
  have same := sameButCase_trim h solid
  have same' := sameButCase_trim plain solid
  rw [configWord, configWord, same, same']

/-- A spelling of a decimal number is the number. -/
theorem readNat?_trim_of_isSpelling (h : IsSpelling (toString n) s) (small : n < bound) :
    readNat? bound (trim s.toList) = some n := by
  have shown : (toString n).toList = Nat.toDigits 10 n := by simp
  have digits : ∀ x ∈ (toString n).toList, x.isDigit = true := by
    rw [shown]
    exact fun x hx => Nat.isDigit_of_mem_toDigits (by decide) (by decide) hx
  have solid : (toString n).toList.all (!isWhiteSpace ·) := by
    refine List.all_eq_true.mpr fun x hx => ?_
    exact of_lt_of_table (P := fun x => x.isDigit = true → (!isWhiteSpace x) = true)
      (toNat_lt_of_isDigit (digits x hx)) (by decide) (digits x hx)
  rw [eq_of_sameButCase_digits (sameButCase_trim h solid) digits, shown, readNat?_toDigits small]

end Text

open Text

theorem Dialect.ofText?_of_isSpelling {d : Dialect} {s : String} (h : IsSpelling d.name s) :
    ofText? s = some d := by
  have solid : d.name.toList.all (!isWhiteSpace ·) := by cases d <;> decide
  rw [← ofText?_name d, ofText?, ofText?, configWord_of_isSpelling h solid]

theorem SecurityLevel.ofText?_of_isSpelling {l : SecurityLevel} {s : String}
    (h : IsSpelling l.name s) : ofText? s = some l := by
  have solid : l.name.toList.all (!isWhiteSpace ·) := by cases l <;> decide
  rw [← ofText?_name l, ofText?, ofText?, configWord_of_isSpelling h solid]

namespace GeneratorConfig

theorem readBool?_of_isSpelling {b : Bool} {s : String} (h : IsSpelling (toString b) s) :
    readBool? s = some b := by
  have solid : (toString b).toList.all (!isWhiteSpace ·) := by cases b <;> decide
  have plain : readBool? (toString b) = some b := by cases b <;> rfl
  rw [← plain, readBool?, readBool?, configWord_of_isSpelling h solid]

end GeneratorConfig

/-! ## Settings -/

namespace Setting

/-- How the value of a setting is shown. -/
def text (c : GeneratorConfig) : Setting → String
  | dialect => c.dialect.name
  | securityLevel => c.securityLevel.name
  | enableRateLimit => toString c.enableRateLimit
  | maxRequests => toString c.rateLimit.maxRequests
  | windowSeconds => toString c.rateLimit.windowSeconds
  | enableAuditLog => toString c.enableAuditLog
  | quoteIdentifiers => toString c.quoteIdentifiers
  | maxLimit => toString c.maxLimit
  | maxParameterLength => toString c.maxParameterLength

/-- The variable that holds a setting, if one does. -/
def variableName? : Setting → Option String
  | dialect => some "SQLGUARD_DIALECT"
  | securityLevel => some "SQLGUARD_SECURITY_LEVEL"
  | enableRateLimit => some "SQLGUARD_RATE_LIMIT"
  | maxRequests => some "SQLGUARD_RATE_LIMIT_MAX_REQUESTS"
  | windowSeconds => some "SQLGUARD_RATE_LIMIT_WINDOW_SECONDS"
  | enableAuditLog => some "SQLGUARD_AUDIT_LOG"
  | quoteIdentifiers => some "SQLGUARD_QUOTE_IDENTIFIERS"
  | maxLimit | maxParameterLength => none

/-- Two configurations have the same value of a setting. -/
def Agrees (c d : GeneratorConfig) : Setting → Prop
  | dialect => c.dialect = d.dialect
  | securityLevel => c.securityLevel = d.securityLevel
  | enableRateLimit => c.enableRateLimit = d.enableRateLimit
  | maxRequests => c.rateLimit.maxRequests = d.rateLimit.maxRequests
  | windowSeconds => c.rateLimit.windowSeconds = d.rateLimit.windowSeconds
  | enableAuditLog => c.enableAuditLog = d.enableAuditLog
  | quoteIdentifiers => c.quoteIdentifiers = d.quoteIdentifiers
  | maxLimit => c.maxLimit = d.maxLimit
  | maxParameterLength => c.maxParameterLength = d.maxParameterLength

variable {c d e : GeneratorConfig} {s : Setting}

theorem Agrees.refl (c : GeneratorConfig) (s : Setting) : s.Agrees c c := by
  cases s <;> rfl

theorem Agrees.symm (h : s.Agrees c d) : s.Agrees d c := by
  cases s <;> exact Eq.symm h

theorem Agrees.trans (h : s.Agrees c d) (h' : s.Agrees d e) : s.Agrees c e := by
  cases s <;> exact Eq.trans h h'

end Setting

namespace GeneratorConfig

variable {lookup : Lookup} {c d e : GeneratorConfig} {v : Variable} {vs : List Variable}

/-- Two configurations agree in all that is not one of some settings; the number of identities kept
track of is no setting and has to be the same. -/
def AgreeOutside (S : Setting → Prop) (c d : GeneratorConfig) : Prop :=
  (∀ s, ¬S s → s.Agrees c d) ∧
    c.rateLimit.maxTrackedIdentities = d.rateLimit.maxTrackedIdentities

variable {S T : Setting → Prop}

theorem AgreeOutside.refl (S : Setting → Prop) (c : GeneratorConfig) : AgreeOutside S c c :=
  ⟨fun s _ => .refl c s, rfl⟩

theorem AgreeOutside.trans (h : AgreeOutside S c d) (h' : AgreeOutside S d e) :
    AgreeOutside S c e :=
  ⟨fun s hs => (h.1 s hs).trans (h'.1 s hs), h.2.trans h'.2⟩

theorem AgreeOutside.mono (h : AgreeOutside S c d) (sub : ∀ s, S s → T s) : AgreeOutside T c d :=
  ⟨fun s hs => h.1 s fun hS => hs (sub s hS), h.2⟩

/-- **The settings and the number of identities make a configuration.** -/
theorem eq_of_agrees (h : ∀ s : Setting, s.Agrees c d)
    (tracked : c.rateLimit.maxTrackedIdentities = d.rateLimit.maxTrackedIdentities) : c = d := by
  have limits : c.rateLimit = d.rateLimit :=
    RateLimitConfig.mk.injEq .. ▸ ⟨h .maxRequests, h .windowSeconds, tracked⟩
  exact GeneratorConfig.mk.injEq .. ▸ ⟨h .dialect, h .securityLevel, h .enableRateLimit,
    h .enableAuditLog, limits, h .maxLimit, h .maxParameterLength, h .quoteIdentifiers⟩

/-! ## One variable -/

/-- The text that the variable of a setting holds. -/
def found (lookup : Lookup) (s : Setting) : Option String := s.variableName?.bind lookup

/-- The variable of a setting spells it, or there is none and the setting is the default. -/
def Shows (lookup : Lookup) (c : GeneratorConfig) (s : Setting) : Prop :=
  match found lookup s with
  | none => s.Agrees c {}
  | some t => IsSpelling (s.text c) t

theorem found_setting (lookup : Lookup) (hv : v ∈ allVariables) :
    found lookup v.setting = lookup v.name := by
  simp only [allVariables, List.mem_cons, List.not_mem_nil, or_false] at hv
  rcases hv with rfl | rfl | rfl | rfl | rfl | rfl | rfl <;> rfl

/-- **A variable changes its own setting and no other.** -/
theorem agreeOutside_of_assign? (hv : v ∈ allVariables) {s : String}
    (h : v.assign? s c = some d) : AgreeOutside (· = v.setting) d c := by
  simp only [allVariables, List.mem_cons, List.not_mem_nil, or_false] at hv
  rcases hv with rfl | rfl | rfl | rfl | rfl | rfl | rfl <;>
  · simp only [Option.map_eq_some_iff] at h
    obtain ⟨value, -, rfl⟩ := h
    refine ⟨fun t other => ?_, rfl⟩
    cases t <;> first | rfl | exact absurd rfl other

/-- **A variable takes its setting from every spelling of the text that shows it.** -/
theorem assign?_of_isSpelling (hv : v ∈ allVariables) {s : String}
    (requests : c.rateLimit.maxRequests < Value.wordBound32)
    (seconds : c.rateLimit.windowSeconds < Value.wordBound64)
    (h : IsSpelling (v.setting.text c) s) (d : GeneratorConfig) :
    ∃ d', v.assign? s d = some d' ∧ v.setting.Agrees d' c := by
  simp only [allVariables, List.mem_cons, List.not_mem_nil, or_false] at hv
  rcases hv with rfl | rfl | rfl | rfl | rfl | rfl | rfl
  all_goals
    simp only [Setting.text] at h
    simp only [Option.map_eq_some_iff]
  · exact ⟨_, ⟨_, Dialect.ofText?_of_isSpelling h, rfl⟩, rfl⟩
  · exact ⟨_, ⟨_, SecurityLevel.ofText?_of_isSpelling h, rfl⟩, rfl⟩
  · exact ⟨_, ⟨_, readBool?_of_isSpelling h, rfl⟩, rfl⟩
  · exact ⟨_, ⟨_, readNat?_trim_of_isSpelling h requests, rfl⟩, rfl⟩
  · exact ⟨_, ⟨_, readNat?_trim_of_isSpelling h seconds, rfl⟩, rfl⟩
  · exact ⟨_, ⟨_, readBool?_of_isSpelling h, rfl⟩, rfl⟩
  · exact ⟨_, ⟨_, readBool?_of_isSpelling h, rfl⟩, rfl⟩

/-- **What reading one variable can do.** -/
theorem readVariable_eq_ok_iff : readVariable lookup c v = .ok d ↔
    lookup v.name = none ∧ d = c ∨ ∃ s, lookup v.name = some s ∧ v.assign? s c = some d := by
  rw [readVariable]
  cases lookup v.name with
  | none => simp [eq_comm]
  | some s => cases assigned : v.assign? s c <;> simp [assigned]

/-- One variable changes nothing that is not set. -/
theorem agreeOutside_of_readVariable (hv : v ∈ allVariables)
    (h : readVariable lookup c v = .ok d) :
    AgreeOutside (fun s => found lookup s ≠ none) d c := by
  rcases readVariable_eq_ok_iff.mp h with ⟨-, rfl⟩ | ⟨s, present, assigned⟩
  · exact .refl _ _
  · refine (agreeOutside_of_assign? hv assigned).mono ?_
    rintro _ rfl
    simp [found_setting lookup hv, present]

/-- A variable that shows a setting brings it in, over the default. -/
theorem exists_readVariable (hv : v ∈ allVariables)
    (requests : c.rateLimit.maxRequests < Value.wordBound32)
    (seconds : c.rateLimit.windowSeconds < Value.wordBound64)
    (shows : Shows lookup c v.setting) (untouched : v.setting.Agrees d {}) :
    ∃ d', readVariable lookup d v = .ok d' ∧ v.setting.Agrees d' c ∧
      AgreeOutside (· = v.setting) d' d := by
  rw [Shows, found_setting lookup hv] at shows
  cases present : lookup v.name with
  | none =>
    rw [present] at shows
    exact ⟨d, readVariable_eq_ok_iff.mpr (.inl ⟨present, rfl⟩), untouched.trans shows.symm,
      .refl _ d⟩
  | some s =>
    rw [present] at shows
    obtain ⟨d', assigned, brought⟩ := assign?_of_isSpelling hv requests seconds shows d
    exact ⟨d', readVariable_eq_ok_iff.mpr (.inr ⟨s, present, assigned⟩), brought,
      agreeOutside_of_assign? hv assigned⟩

/-! ## All variables -/

/-- **The variables change nothing that is not set.** -/
theorem agreeOutside_of_foldlM (known : ∀ v ∈ vs, v ∈ allVariables)
    (h : vs.foldlM (readVariable lookup) c = .ok d) :
    AgreeOutside (fun s => found lookup s ≠ none) d c := by
  induction vs generalizing c with
  | nil =>
    cases h
    exact .refl _ _
  | cons v vs ih =>
    obtain ⟨hv, known⟩ := List.forall_mem_cons.mp known
    rw [List.foldlM_cons] at h
    obtain ⟨c', read, rest⟩ := exists_of_bind_eq_ok h
    exact (ih known rest).trans (agreeOutside_of_readVariable hv read)

/-- **Variables that show settings bring them in**, each its own. -/
theorem exists_foldlM (known : ∀ v ∈ vs, v ∈ allVariables) (distinct : (vs.map (·.setting)).Nodup)
    (requests : c.rateLimit.maxRequests < Value.wordBound32)
    (seconds : c.rateLimit.windowSeconds < Value.wordBound64)
    (shows : ∀ s, Shows lookup c s) (untouched : ∀ v ∈ vs, v.setting.Agrees d {}) :
    ∃ d', vs.foldlM (readVariable lookup) d = .ok d' ∧ (∀ v ∈ vs, v.setting.Agrees d' c) ∧
      AgreeOutside (∃ v ∈ vs, v.setting = ·) d' d := by
  induction vs generalizing d with
  | nil => exact ⟨d, rfl, by simp, .refl _ d⟩
  | cons v vs ih =>
    obtain ⟨hv, known⟩ := List.forall_mem_cons.mp known
    obtain ⟨fresh, distinct⟩ := List.nodup_cons.mp distinct
    obtain ⟨first, untouched⟩ := List.forall_mem_cons.mp untouched
    have other (w : Variable) (hw : w ∈ vs) : w.setting ≠ v.setting := fun e =>
      fresh (List.mem_map.mpr ⟨w, hw, e⟩)
    obtain ⟨d₁, read, brought, frame⟩ :=
      exists_readVariable hv requests seconds (shows v.setting) first
    obtain ⟨d', rest, later, frame'⟩ := ih known distinct fun w hw =>
      (frame.1 w.setting (other w hw)).trans (untouched w hw)
    have kept : v.setting.Agrees d' d₁ := frame'.1 v.setting fun ⟨w, hw, e⟩ => other w hw e
    refine ⟨d', ?_, List.forall_mem_cons.mpr ⟨kept.trans brought, later⟩, ?_⟩
    · rw [List.foldlM_cons, read]
      exact rest
    · refine (frame'.mono ?_).trans (frame.mono ?_)
      · exact fun s ⟨w, hw, e⟩ => ⟨w, List.mem_cons_of_mem v hw, e⟩
      · exact fun s e => ⟨v, List.mem_cons_self, e.symm⟩

/-! ## Configurations -/

/-- **What variables spell is what is read, and no more than that.** A default configuration with
other values of the settings that have variables is read back from variables that spell them,
provided it is acceptable; and whatever is read is acceptable and has the default where nothing is
set. -/
theorem variables_carry_settings (lookup : Lookup) :
    (∀ (dialect : Dialect) (securityLevel : SecurityLevel)
      (enableRateLimit enableAuditLog quoteIdentifiers : Bool) (maxRequests windowSeconds : Nat),
      let c : GeneratorConfig :=
        { dialect, securityLevel, enableRateLimit, enableAuditLog, quoteIdentifiers
          rateLimit := { maxRequests, windowSeconds } }
      maxRequests < Value.wordBound32 → windowSeconds < Value.wordBound64 → c.validate = .ok c →
        (∀ s, Shows lookup c s) → fromVariables lookup = .ok c) ∧
    ∀ c, fromVariables lookup = .ok c →
      c.validate = .ok c ∧ AgreeOutside (fun s => found lookup s ≠ none) c {} := by
  constructor
  · intro dialect securityLevel enableRateLimit enableAuditLog quoteIdentifiers maxRequests
      windowSeconds c requests seconds acceptable shows
    obtain ⟨d, read, brought, frame⟩ := exists_foldlM (fun v (hv : v ∈ allVariables) => hv)
      (by decide) requests seconds shows fun v _ => .refl {} v.setting
    have same : d = c := by
      refine eq_of_agrees (fun s => ?_) frame.2
      by_cases held : ∃ v ∈ allVariables, v.setting = s
      · obtain ⟨v, hv, rfl⟩ := held
        exact brought v hv
      · refine (frame.1 s held).trans ?_
        cases s <;> first | rfl | exact absurd (by decide) held
    rw [fromVariables, read, same]
    exact acceptable
  · intro c h
    obtain ⟨d, read, acceptable⟩ := exists_of_bind_eq_ok h
    obtain ⟨rfl, -⟩ := validate_eq_ok_iff.mp acceptable
    exact ⟨acceptable, agreeOutside_of_foldlM (fun _ hv => hv) read⟩

/-- Four variables in mixed case, one of them behind an ideographic space. -/
def mixedSpellings : Lookup := fun name =>
  [("SQLGUARD_DIALECT", "\u3000MsSql\t"), ("SQLGUARD_SECURITY_LEVEL", "STRICT\n"),
    ("SQLGUARD_RATE_LIMIT", "falsE"), ("SQLGUARD_RATE_LIMIT_WINDOW_SECONDS", " 0 ")].lookup name

theorem variables_carry_settings_sample :
    let c : GeneratorConfig :=
      { dialect := .msSql, securityLevel := .strict, enableRateLimit := false
        rateLimit := { windowSeconds := 0 } }
    (∀ s, Shows mixedSpellings c s) ∧ fromVariables mixedSpellings = .ok c ∧
      c.validate = .ok c ∧ AgreeOutside (fun s => found mixedSpellings s ≠ none) c {} := by
  intro c
  have shows : ∀ s, Shows mixedSpellings c s := by
    intro s
    have empty : ∀ x ∈ ([] : List Char), isWhiteSpace x = true := List.forall_mem_nil _
    have one {w : Char} (hw : isWhiteSpace w = true) : ∀ x ∈ [w], isWhiteSpace x = true :=
      List.forall_mem_singleton.mpr hw
    cases s with
    | dialect =>
      exact ⟨['\u3000'], "MsSql".toList, ['\t'], rfl, one rfl, one rfl, by decide +kernel⟩
    | securityLevel => exact ⟨[], "STRICT".toList, ['\n'], rfl, empty, one rfl, by decide +kernel⟩
    | enableRateLimit => exact ⟨[], "falsE".toList, [], rfl, empty, empty, by decide +kernel⟩
    | windowSeconds => exact ⟨[' '], ['0'], [' '], rfl, one rfl, one rfl, by decide +kernel⟩
    | maxRequests | enableAuditLog | quoteIdentifiers | maxLimit | maxParameterLength => rfl
  have read : fromVariables mixedSpellings = .ok c :=
    (variables_carry_settings mixedSpellings).1 .msSql .strict false true false 100 0 (by decide)
      (by decide) rfl shows
  exact ⟨shows, read, (variables_carry_settings mixedSpellings).2 c read⟩

end GeneratorConfig

end BoundSql
