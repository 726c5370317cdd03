import BoundSql.Validation.Error

/-!
# Bounds of numbers and texts

A number has to lie between two bounds, both included. A text has to stay within a number of
characters, and where screening is asked for, free of known injection techniques; screening comes
first, so a long malicious text is reported as malicious.
-/

namespace BoundSql.Bounds

/-- A number between `min` and `max`, or the error that it is not. -/
def validateInteger (value min max : Int) : Except ValidationError Int :=
  if value < min ∨ max < value then .error (.outOfRange value min max) else .ok value

/-- A text of at most `maxLength` characters, free of known injection techniques if `screened`. -/
def validateText (maxLength : Nat) (screened : Bool) (text : String) :
    Except ValidationError String :=
  match if screened then InjectionClass.firstIn? text else none with
  | some technique => .error (.injectionDetected technique)
  | none => if maxLength < text.length then .error (.tooLong text.length maxLength) else .ok text

theorem validateInteger_eq_ok_iff {value min max result : Int} :
    validateInteger value min max = .ok result ↔ result = value ∧ min ≤ value ∧ value ≤ max := by
  unfold validateInteger
  split
  · simp only [reduceCtorEq, false_iff]
    omega
  · simp only [Except.ok.injEq]
    omega

/-- **What an accepted text is.** -/
theorem validateText_eq_ok_iff {maxLength : Nat} {screened : Bool} {text result : String} :
    validateText maxLength screened text = .ok result ↔
      result = text ∧ text.length ≤ maxLength ∧
        (screened = true → InjectionClass.firstIn? text = none) := by
  unfold validateText
  split
  · rename_i technique h
    have screening : screened = true ∧ InjectionClass.firstIn? text = some technique := by
      revert h
      cases screened <;> simp
    simp [screening]
  · rename_i h
    have clean : screened = true → InjectionClass.firstIn? text = none := fun hs => by
      simpa [hs] using h
    by_cases hl : maxLength < text.length
    · simp only [hl, if_true, reduceCtorEq, false_iff]
      omega
    · simp only [hl, if_false, Except.ok.injEq]
      exact ⟨fun e => ⟨e.symm, by omega, clean⟩, fun e => e.1.symm⟩

end BoundSql.Bounds
