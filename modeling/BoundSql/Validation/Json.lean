import BoundSql.Validation.Error
import BoundSql.Value.Record

/-!
# Validation errors as JSON

An error is a record tagged with the name of its kind in small letters, which is the code of the
error (`tag_eq_code`).
-/

namespace BoundSql.ValidationError

/-- The field that holds the tag. -/
def tagName : String := "code"

/-- The name of the kind of error, in capitalised words. -/
def kind : ValidationError → String
  | invalidIdentifier .. => "InvalidIdentifier"
  | outOfRange .. => "OutOfRange"
  | tooLong .. => "TooLong"
  | malformedEmail .. => "MalformedEmail"
  | injectionDetected .. => "InjectionDetected"

/-- The tag of the record of an error. -/
def tag (e : ValidationError) : String := String.ofList (Text.snakeCase e.kind.toList)

/-- **The tag is the code.** -/
theorem tag_eq_code (e : ValidationError) : e.tag = e.code := by
  cases e <;> simp [tag, kind, code, Text.snakeCase]

/-- An error as a tagged record. -/
def toValue (e : ValidationError) : Value :=
  match e with
  | invalidIdentifier identifier reason =>
    .object [(tagName, .text e.tag), ("identifier", .text identifier), ("reason", .text reason)]
  | outOfRange value min max =>
    .object [(tagName, .text e.tag), ("max", .int max), ("min", .int min), ("value", .int value)]
  | tooLong length maxLength =>
    .object [(tagName, .text e.tag), ("length", .int length), ("max_length", .int maxLength)]
  | malformedEmail email reason =>
    .object [(tagName, .text e.tag), ("email", .text email), ("reason", .text reason)]
  | injectionDetected technique =>
    .object [("class", .text technique.name), (tagName, .text e.tag)]

/-- The error of a tagged record, if it is one. -/
def ofValue? (v : Value) : Option ValidationError := do
  let (tag, body) ← v.tagged? tagName
  match tag with
  | "invalid_identifier" =>
    let fields ← body.record? ["identifier", "reason"]
    return invalidIdentifier (← Value.required fields "identifier" Value.text?)
      (← Value.required fields "reason" Value.text?)
  | "out_of_range" =>
    let fields ← body.record? ["value", "min", "max"]
    return outOfRange (← Value.required fields "value" Value.int64?)
      (← Value.required fields "min" Value.int64?) (← Value.required fields "max" Value.int64?)
  | "too_long" =>
    let fields ← body.record? ["length", "max_length"]
    return tooLong (← Value.required fields "length" Value.word64?)
      (← Value.required fields "max_length" Value.word64?)
  | "malformed_email" =>
    let fields ← body.record? ["email", "reason"]
    return malformedEmail (← Value.required fields "email" Value.text?)
      (← Value.required fields "reason" Value.text?)
  | "injection_detected" =>
    let fields ← body.record? ["class"]
    return injectionDetected
      (← (Value.required fields "class" Value.nameInTagged?).bind InjectionClass.ofName?)
  | _ => none

/-- The numbers of an error fit the words that hold them. -/
def InWords : ValidationError → Prop
  | outOfRange value min max =>
    ∀ n ∈ [value, min, max], Value.minInt64 ≤ n ∧ n ≤ Value.maxInt64
  | tooLong length maxLength => length < Value.wordBound64 ∧ maxLength < Value.wordBound64
  | _ => True

end BoundSql.ValidationError
