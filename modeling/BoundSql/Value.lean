/-!
# Bound values

The values a statement binds are JSON values. Numbers are kept as written: integers exactly, and
other numbers as a decimal mantissa with the count of its places. The fields of an object stand in
the order of their keys.
-/

namespace BoundSql

/-- A JSON value. -/
inductive Value
  | null
  | bool (b : Bool)
  /-- A number without a fraction. -/
  | int (n : Int)
  /-- The number `mantissa` divided by ten to the power `places`. -/
  | decimal (mantissa : Int) (places : Nat)
  | text (s : String)
  | list (vs : List Value)
  | object (fields : List (String × Value))
  deriving Repr, Inhabited, BEq

namespace Value

mutual

/-- The texts in a value at any depth, in reading order. The keys of objects are not among them. -/
def texts : Value → List String
  | text s => [s]
  | list vs => textsOfList vs
  | object fields => textsOfFields fields
  | _ => []

/-- The texts in the members of a list. -/
def textsOfList : List Value → List String
  | [] => []
  | v :: vs => texts v ++ textsOfList vs

/-- The texts in the fields of an object. -/
def textsOfFields : List (String × Value) → List String
  | [] => []
  | (_, v) :: fields => texts v ++ textsOfFields fields

end

/-! ## Lemmas -/

theorem mem_textsOfList {s : String} {vs : List Value} :
    s ∈ textsOfList vs ↔ ∃ v ∈ vs, s ∈ v.texts := by
  induction vs with
  | nil => simp [textsOfList]
  | cons v vs ih => simp [textsOfList, ih]

theorem mem_textsOfFields {s : String} {fields : List (String × Value)} :
    s ∈ textsOfFields fields ↔ ∃ f ∈ fields, s ∈ f.2.texts := by
  induction fields with
  | nil => simp [textsOfFields]
  | cons f fields ih =>
    obtain ⟨k, v⟩ := f
    simp [textsOfFields, ih]

end Value

end BoundSql
