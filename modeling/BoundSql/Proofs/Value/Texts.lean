import BoundSql.Rules

/-!
# The texts inside a value

`Value.Holds s v` says that the text `s` stands somewhere in the value `v`: the value is that text,
or a member of a list or the value of a field of an object holds it. The listing `Value.texts` finds
exactly these (`mem_texts_iff`), so a value is accepted if and only if no text that it holds, at
whatever depth, offends the rules (`checkValue_eq_ok_iff`).
-/

namespace BoundSql

namespace Value

/-- The text stands in the value at some depth. -/
inductive Holds (s : String) : Value → Prop
  | text : Holds s (.text s)
  | member {v : Value} {vs : List Value} (hv : v ∈ vs) (h : Holds s v) : Holds s (.list vs)
  | field {key : String} {v : Value} {fields : List (String × Value)} (hf : (key, v) ∈ fields)
      (h : Holds s v) : Holds s (.object fields)

variable {s : String}

mutual

theorem holds_of_mem_texts (v : Value) (h : s ∈ v.texts) : v.Holds s := by
  cases v with
  | text t =>
    rw [List.mem_singleton.mp h]
    exact .text
  | list vs =>
    obtain ⟨v, hv, holds⟩ := exists_holds_of_mem_textsOfList vs h
    exact .member hv holds
  | object fields =>
    obtain ⟨_, hf, holds⟩ := exists_holds_of_mem_textsOfFields fields h
    exact .field hf holds
  | _ => exact absurd h List.not_mem_nil

theorem exists_holds_of_mem_textsOfList (vs : List Value) (h : s ∈ textsOfList vs) :
    ∃ v ∈ vs, v.Holds s := by
  cases vs with
  | nil => exact absurd h List.not_mem_nil
  | cons v vs =>
    rcases List.mem_append.mp h with h | h
    · exact ⟨v, List.mem_cons_self, holds_of_mem_texts v h⟩
    · obtain ⟨w, hw, holds⟩ := exists_holds_of_mem_textsOfList vs h
      exact ⟨w, List.mem_cons_of_mem v hw, holds⟩

theorem exists_holds_of_mem_textsOfFields (fields : List (String × Value))
    (h : s ∈ textsOfFields fields) : ∃ f ∈ fields, f.2.Holds s := by
  cases fields with
  | nil => exact absurd h List.not_mem_nil
  | cons field fields =>
    rcases List.mem_append.mp h with h | h
    · exact ⟨field, List.mem_cons_self, holds_of_mem_texts field.2 h⟩
    · obtain ⟨f, hf, holds⟩ := exists_holds_of_mem_textsOfFields fields h
      exact ⟨f, List.mem_cons_of_mem field hf, holds⟩

end

/-- **The listing finds the texts at every depth**, and no others. -/
theorem mem_texts_iff {v : Value} : s ∈ v.texts ↔ v.Holds s := by
  refine ⟨holds_of_mem_texts v, fun h => ?_⟩
  induction h with
  | text => exact List.mem_singleton.mpr rfl
  | member hv _ ih => exact mem_textsOfList.mpr ⟨_, hv, ih⟩
  | field hf _ ih => exact mem_textsOfFields.mpr ⟨_, hf, ih⟩

end Value

namespace Rules

variable {r : Rules}

/-- The text is too long to be bound, or shows an injection technique at the strict level. -/
def Offends (r : Rules) (s : String) : Prop :=
  r.maxParameterLength < s.length ∨
    r.level = .strict ∧ InjectionClass.firstIn? s ≠ none

theorem checkText_eq_ok_iff {s : String} : r.checkText s = .ok () ↔ ¬ r.Offends s := by
  have screens : r.level.screensParameters = true ↔ r.level = .strict := by
    cases r.level <;> decide
  simp only [checkText, require_eq_ok_iff, Bounds.validateText_eq_ok_iff, exists_eq_left, screens,
    Offends, not_or, not_and, ne_eq, Decidable.not_not, Nat.not_lt]

/-- **A value is accepted if no text in it offends**, however deep it stands. -/
theorem checkValue_eq_ok_iff {v : Value} :
    r.checkValue v = .ok () ↔ ∀ s, v.Holds s → ¬ r.Offends s := by
  simp only [checkValue, judgeAll_eq_ok_iff, Value.mem_texts_iff, checkText_eq_ok_iff]

end Rules

end BoundSql
