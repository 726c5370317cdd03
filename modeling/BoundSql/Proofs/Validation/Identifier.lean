import BoundSql.Proofs.Text.Ascii
import BoundSql.Validation.Identifier

/-!
# Which names are identifiers

The languages of the two validators, said by what a name looks like: a segment is an ASCII letter or
underscore and then ASCII letters, digits and underscores (`IsSegment`), and a keyword is one of the
reserved words in some ASCII letter case (`IsKeyword`). A plain identifier is measured as a whole
(`IsPlain`), a qualified one part by part (`IsQualified`). The checks accept exactly these
(`check_iff_isPlain`, `checkQualified_iff_isQualified`).

Headline: **`identifiers_exact`**.
-/

namespace BoundSql.Identifier

/-! ## The languages -/

/-- An ASCII letter or an underscore. -/
def Opens (c : Char) : Prop := ('A' ≤ c ∧ c ≤ 'Z') ∨ ('a' ≤ c ∧ c ≤ 'z') ∨ c = '_'

/-- An ASCII letter, an underscore or an ASCII digit. -/
def GoesOn (c : Char) : Prop := Opens c ∨ ('0' ≤ c ∧ c ≤ '9')

/-- An ASCII letter or underscore, then ASCII letters, digits and underscores. -/
def IsSegment (s : List Char) : Prop := ∃ c rest, s = c :: rest ∧ Opens c ∧ ∀ x ∈ rest, GoesOn x

/-- A reserved keyword in some ASCII letter case. -/
def IsKeyword (s : List Char) : Prop := ∃ w ∈ reservedKeywords, Text.SameButCase s w.toList

/-- What stands between the dots of a name; the whole name if it has none. -/
def parts (name : String) : List (List Char) := Text.splitOn '.' name.toList

/-- **A plain identifier**: one segment, which is no keyword at the strict level, or at the
permissive level several with dots between them, and at most 64 characters in all. -/
def IsPlain (name : String) (level : SecurityLevel) : Prop :=
  1 ≤ name.length ∧ name.length ≤ 64 ∧
    match level with
    | .strict => IsSegment name.toList ∧ ¬ IsKeyword name.toList
    | .normal => IsSegment name.toList
    | .permissive => ∀ part ∈ parts name, IsSegment part

/-- **A qualified identifier**: one to three segments with dots between them, each of at most 64
characters, and none of them a keyword at the strict level. -/
def IsQualified (name : String) (level : SecurityLevel) : Prop :=
  1 ≤ (parts name).length ∧ (parts name).length ≤ 3 ∧
    ∀ part ∈ parts name, IsSegment part ∧ part.length ≤ 64 ∧ (level = .strict → ¬ IsKeyword part)

/-! ## Segments and keywords -/

theorem isAlpha_iff {c : Char} :
    c.isAlpha = true ↔ ('A' ≤ c ∧ c ≤ 'Z') ∨ ('a' ≤ c ∧ c ≤ 'z') := by
  have upper : c.isUpper = true ↔ 'A' ≤ c ∧ c ≤ 'Z' := decide_eq_true_iff
  have lower : c.isLower = true ↔ 'a' ≤ c ∧ c ≤ 'z' :=
    Bool.and_eq_true_iff.trans (and_congr decide_eq_true_iff decide_eq_true_iff)
  rw [← upper, ← lower]
  exact Bool.or_eq_true_iff

theorem isDigit_iff {c : Char} : c.isDigit = true ↔ '0' ≤ c ∧ c ≤ '9' :=
  Bool.and_eq_true_iff.trans (and_congr decide_eq_true_iff decide_eq_true_iff)

theorem isStart_iff {c : Char} : isStart c = true ↔ Opens c := by
  rw [isStart, Bool.or_eq_true_iff, isAlpha_iff, beq_iff_eq, or_assoc, Opens]

theorem isPart_iff {c : Char} : isPart c = true ↔ GoesOn c := by
  have alphanum : c.isAlphanum = true ↔ c.isAlpha = true ∨ c.isDigit = true := Bool.or_eq_true_iff
  rw [isPart, Bool.or_eq_true_iff, alphanum, or_right_comm, ← Bool.or_eq_true_iff (x := c.isAlpha),
    ← isStart, isStart_iff, isDigit_iff, GoesOn]

theorem checkSegment_iff {s : List Char} : checkSegment s = .ok () ↔ IsSegment s := by
  simp only [checkSegment_eq_ok_iff, isStart_iff, isPart_iff, IsSegment]

theorem isReserved_iff {s : List Char} : isReserved s = true ↔ IsKeyword s := by
  have capitals : ∀ w ∈ reservedKeywords, Text.asciiUpper w.toList = w.toList := by decide +kernel
  rw [isReserved, List.contains_iff_mem, IsKeyword]
  constructor
  · intro member
    refine ⟨_, member, Text.sameButCase_iff.mpr ?_⟩
    rw [capitals _ member, String.toList_ofList]
  · rintro ⟨w, member, same⟩
    rw [Text.sameButCase_iff.mp same, capitals w member, String.ofList_toList]
    exact member

theorem IsSegment.ne_nil {s : List Char} (h : IsSegment s) : s ≠ [] := by
  obtain ⟨c, rest, rfl, -⟩ := h
  exact List.cons_ne_nil c rest

/-! ## Plain and qualified identifiers -/

variable {name : String} {level : SecurityLevel}

theorem one_le_length_iff : 1 ≤ name.length ↔ name.toList ≠ [] := by
  rw [← String.length_toList, Nat.one_le_iff_ne_zero, ne_eq, List.length_eq_zero_iff]

theorem checkSegments_eq_ok_iff {s : List Char} :
    checkSegments level s = .ok () ↔
      if level.allowsQualifiedNames then ∀ part ∈ Text.splitOn '.' s, IsSegment part
      else IsSegment s := by
  unfold checkSegments
  split <;> simp only [judgeAll_eq_ok_iff, checkSegment_iff]

/-- **The check for plain identifiers accepts exactly these.** -/
theorem check_iff_isPlain : check level name.toList = .ok () ↔ IsPlain name level := by
  rw [check_eq_ok_iff, checkSegments_eq_ok_iff, ← one_le_length_iff, String.length_toList,
    ← Bool.not_eq_true, isReserved_iff, maxLength]
  unfold IsPlain
  cases level with
  | strict => simp [SecurityLevel.allowsQualifiedNames, SecurityLevel.rejectsReservedKeywords]
  | normal => simp [SecurityLevel.allowsQualifiedNames, SecurityLevel.rejectsReservedKeywords]
  | permissive =>
    simp [SecurityLevel.allowsQualifiedNames, SecurityLevel.rejectsReservedKeywords, parts]

/-- The parts of a qualified identifier are judged as plain ones that have no dots. -/
theorem check_undotted_iff {part : List Char} :
    check level.undotted part = .ok () ↔
      IsSegment part ∧ part.length ≤ 64 ∧ (level = .strict → ¬ IsKeyword part) := by
  rw [check_eq_ok_iff, checkSegments_eq_ok_iff, SecurityLevel.allowsQualifiedNames_undotted,
    SecurityLevel.rejectsReservedKeywords_undotted, SecurityLevel.rejectsReservedKeywords,
    beq_iff_eq, ← Bool.not_eq_true, isReserved_iff, maxLength, if_neg Bool.false_ne_true]
  constructor
  · rintro ⟨-, short, segment, unreserved⟩
    exact ⟨segment, short, unreserved⟩
  · rintro ⟨segment, short, unreserved⟩
    exact ⟨segment.ne_nil, short, segment, unreserved⟩

/-- **The check for qualified identifiers accepts exactly these.** -/
theorem checkQualified_iff_isQualified :
    checkQualified level name.toList = .ok () ↔ IsQualified name level := by
  simp only [checkQualified_eq_ok_iff, check_undotted_iff, IsQualified, maxSegments, parts]
  constructor
  · rintro ⟨-, few, segments⟩
    exact ⟨List.length_pos_iff.mpr (Text.splitOn_ne_nil _ _), few, segments⟩
  · rintro ⟨-, few, segments⟩
    refine ⟨fun empty => ?_, few, segments⟩
    rw [empty, Text.splitOn_nil] at segments
    exact (segments [] (List.mem_singleton.mpr rfl)).1.ne_nil rfl

/-- **The validators accept exactly the identifiers.** An identifier is returned as it is, and for
anything else the whole name is reported as logs may show it. -/
theorem identifiers_exact (name : String) (level : SecurityLevel) :
    (validate name level = .ok name ↔ IsPlain name level) ∧
      (¬ IsPlain name level → ∃ reason, validate name level =
        .error (.invalidIdentifier (Redaction.forLog 64 name) reason)) ∧
      (validateQualified name level = .ok name ↔ IsQualified name level) ∧
      (¬ IsQualified name level → ∃ reason, validateQualified name level =
        .error (.invalidIdentifier (Redaction.forLog 64 name) reason)) := by
  refine ⟨validate_eq_ok_iff.trans check_iff_isPlain, fun refused => ?_,
    validateQualified_eq_ok_iff.trans checkQualified_iff_isQualified, fun refused => ?_⟩
  · rw [← check_iff_isPlain] at refused
    unfold validate
    split
    · exact absurd ‹_› refused
    · exact ⟨_, rfl⟩
  · rw [← checkQualified_iff_isQualified] at refused
    unfold validateQualified
    split
    · exact absurd ‹_› refused
    · exact ⟨_, rfl⟩

end BoundSql.Identifier
