/-!
# Judgements

A judgement is nothing, or the first fault that was found. Judgements are made one after the other,
and over the members of a list in order; they are good exactly if every part is
(`bind_eq_ok_iff`, `judgeAll_eq_ok_iff`).
-/

namespace BoundSql

variable {ε α : Type}

/-- Judges the members of a list in order, up to the first fault. -/
def judgeAll (judge : α → Except ε Unit) : List α → Except ε Unit
  | [] => .ok ()
  | x :: xs => do
    judge x
    judgeAll judge xs

/-- A fault unless a condition holds. -/
def demand (holds : Bool) (fault : ε) : Except ε Unit := if holds then .ok () else .error fault

/-! ## Lemmas -/

/-- Two judgements in a row are good if both are. -/
theorem bind_eq_ok_iff {a : Except ε Unit} {b : Unit → Except ε Unit} :
    (a >>= b) = .ok () ↔ a = .ok () ∧ b () = .ok () := by
  cases a <;> simp [bind, Except.bind]

/-- What succeeds in two steps succeeds in the first, and goes on from its result. -/
theorem exists_of_bind_eq_ok {β : Type} {a : Except ε α} {b : α → Except ε β} {y : β}
    (h : a >>= b = .ok y) : ∃ x, a = .ok x ∧ b x = .ok y := by
  cases a with
  | error e => cases h
  | ok x => exact ⟨x, rfl, h⟩

/-- A list is judged good if all its members are. -/
theorem judgeAll_eq_ok_iff {judge : α → Except ε Unit} {xs : List α} :
    judgeAll judge xs = .ok () ↔ ∀ x ∈ xs, judge x = .ok () := by
  induction xs with
  | nil => simp [judgeAll]
  | cons x xs ih => simp [judgeAll, bind_eq_ok_iff, ih]

@[simp] theorem demand_eq_ok_iff {holds : Bool} {fault : ε} :
    demand holds fault = .ok () ↔ holds = true := by
  cases holds <;> simp [demand]

end BoundSql
