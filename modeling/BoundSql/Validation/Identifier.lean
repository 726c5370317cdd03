import BoundSql.Judgement
import BoundSql.Redaction
import BoundSql.SecurityLevel
import BoundSql.Validation.Error

/-!
# Identifiers

A segment is an ASCII letter or underscore followed by ASCII letters, digits and underscores. A
plain identifier is one segment; at the permissive level it may be several joined by dots; at the
strict level a reserved keyword is none. A qualified identifier is one to three plain identifiers
joined by dots, at every level. An accepted name is used as it stands.
-/

namespace BoundSql.Identifier

/-- The most characters of an identifier, or of each segment of a qualified one. -/
def maxLength : Nat := 64

/-- The most segments of a qualified identifier. -/
def maxSegments : Nat := 3

/-- The words that are no identifiers at the strict level. -/
def reservedKeywords : List String :=
  ["ALL", "ALTER", "AND", "ANY", "AS", "ASC", "BETWEEN", "BY", "CASE", "CAST", "CHECK",
   "COLUMN", "CONSTRAINT", "CREATE", "CROSS", "CURRENT_USER", "DECLARE", "DEFAULT", "DELETE",
   "DESC", "DISTINCT", "DROP", "ELSE", "END", "EXCEPT", "EXEC", "EXECUTE", "EXISTS", "FETCH",
   "FOREIGN", "FROM", "FULL", "GRANT", "GROUP", "HAVING", "IN", "INDEX", "INNER", "INSERT",
   "INTERSECT", "INTO", "IS", "JOIN", "KEY", "LEFT", "LIKE", "LIMIT", "MERGE", "NOT", "NULL",
   "OFFSET", "ON", "OR", "ORDER", "OUTER", "PRIMARY", "REFERENCES", "RETURNING", "REVOKE",
   "RIGHT", "SELECT", "SESSION_USER", "SET", "SYSTEM", "TABLE", "THEN", "TOP", "TRUNCATE",
   "UNION", "UNIQUE", "UPDATE", "USER", "VALUES", "WHEN", "WHERE", "WITH"]

/-- Whether a word is a reserved keyword in some ASCII letter case. -/
def isReserved (word : List Char) : Bool :=
  reservedKeywords.contains (String.ofList (Text.asciiUpper word))

/-- The characters a segment starts with. -/
def isStart (c : Char) : Bool := c.isAlpha || c == '_'

/-- The characters a segment goes on with. -/
def isPart (c : Char) : Bool := c.isAlphanum || c == '_'

/-- What keeps a name from being an identifier. -/
inductive Fault
  | empty
  | tooLong
  | emptySegment
  | badStart
  | badCharacter
  | reserved (word : String)
  | tooManySegments (count : Nat)
  deriving DecidableEq, Repr

/-- What to say of a fault. -/
def Fault.message : Fault → String
  | empty => "identifier cannot be empty"
  | tooLong => "identifier is too long (max " ++ toString maxLength ++ " characters)"
  | emptySegment => "identifier contains an empty segment"
  | badStart => "identifier must start with a letter or underscore"
  | badCharacter => "identifier may only contain letters, digits and underscores"
  | reserved word => "'" ++ word ++ "' is a reserved SQL keyword"
  | tooManySegments count =>
    "qualified name has " ++ toString count ++ " segments (max " ++ toString maxSegments ++ ")"

/-- Judges one segment. -/
def checkSegment : List Char → Except Fault Unit
  | [] => .error .emptySegment
  | c :: rest =>
    if !isStart c then .error .badStart
    else if rest.all isPart then .ok ()
    else .error .badCharacter

/-- Judges the segments of a name: all of them where dots are allowed, and else the whole name as
one segment. -/
def checkSegments (level : SecurityLevel) (name : List Char) : Except Fault Unit :=
  if level.allowsQualifiedNames then judgeAll checkSegment (Text.splitOn '.' name)
  else checkSegment name

/-- Judges a plain identifier: emptiness, length, the segments, then the keywords. -/
def check (level : SecurityLevel) (name : List Char) : Except Fault Unit :=
  if name = [] then .error .empty
  else if maxLength < name.length then .error .tooLong
  else do
    checkSegments level name
    demand (!(level.rejectsReservedKeywords && isReserved name)) (.reserved (String.ofList name))

/-- Judges a qualified identifier: emptiness, the number of segments, then each segment as a plain
identifier. -/
def checkQualified (level : SecurityLevel) (name : List Char) : Except Fault Unit :=
  if name = [] then .error .empty
  else if maxSegments < (Text.splitOn '.' name).length then
    .error (.tooManySegments (Text.splitOn '.' name).length)
  else judgeAll (check level.undotted) (Text.splitOn '.' name)

/-- The error for a name with a fault; the whole name is shown, redacted. -/
def refuse (name : String) (fault : Fault) : ValidationError :=
  .invalidIdentifier (Redaction.nameForLog name) fault.message

/-- A plain identifier, or why it is none. -/
def validate (name : String) (level : SecurityLevel) : Except ValidationError String :=
  match check level name.toList with
  | .ok () => .ok name
  | .error fault => .error (refuse name fault)

/-- A qualified identifier, or why it is none. -/
def validateQualified (name : String) (level : SecurityLevel) : Except ValidationError String :=
  match checkQualified level name.toList with
  | .ok () => .ok name
  | .error fault => .error (refuse name fault)

/-! ## Lemmas -/

/-- **What a segment is.** -/
theorem checkSegment_eq_ok_iff {s : List Char} :
    checkSegment s = .ok () ↔
      ∃ c rest, s = c :: rest ∧ isStart c = true ∧ ∀ x ∈ rest, isPart x = true := by
  cases s with
  | nil => simp [checkSegment]
  | cons c rest =>
    simp only [checkSegment, List.cons.injEq, exists_and_left, exists_eq_left', and_assoc]
    cases isStart c with
    | false => simp
    | true => simp [List.all_eq_true]

/-- **What a plain identifier is.** -/
theorem check_eq_ok_iff {level : SecurityLevel} {name : List Char} :
    check level name = .ok () ↔
      name ≠ [] ∧ name.length ≤ maxLength ∧ checkSegments level name = .ok () ∧
        (level.rejectsReservedKeywords = true → isReserved name = false) := by
  unfold check
  by_cases empty : name = []
  · simp [empty]
  · by_cases long : maxLength < name.length
    · simp only [empty, long, if_true, if_false, reduceCtorEq, false_iff]
      omega
    · simp only [empty, long, if_false, bind_eq_ok_iff, demand_eq_ok_iff, ne_eq, not_false_eq_true,
        true_and, Nat.not_lt.mp long]
      cases level.rejectsReservedKeywords <;> simp

/-- **What a qualified identifier is.** -/
theorem checkQualified_eq_ok_iff {level : SecurityLevel} {name : List Char} :
    checkQualified level name = .ok () ↔
      name ≠ [] ∧ (Text.splitOn '.' name).length ≤ maxSegments ∧
        ∀ part ∈ Text.splitOn '.' name, check level.undotted part = .ok () := by
  unfold checkQualified
  by_cases empty : name = []
  · simp [empty]
  · by_cases many : maxSegments < (Text.splitOn '.' name).length
    · simp only [empty, many, if_true, if_false, reduceCtorEq, false_iff]
      omega
    · simp only [empty, many, if_false, judgeAll_eq_ok_iff, ne_eq, not_false_eq_true, true_and,
        Nat.not_lt.mp many]

theorem validate_eq_ok_iff {name : String} {level : SecurityLevel} :
    validate name level = .ok name ↔ check level name.toList = .ok () := by
  unfold validate
  split <;> rename_i h <;> simp [h]

theorem validateQualified_eq_ok_iff {name : String} {level : SecurityLevel} :
    validateQualified name level = .ok name ↔ checkQualified level name.toList = .ok () := by
  unfold validateQualified
  split <;> rename_i h <;> simp [h]

end BoundSql.Identifier
