import Mathlib.Data.List.Forall2
import BoundSql.Rules

/-!
# Shapes of values

The shape of a bound value forgets its leaves: numbers and truth values altogether, and of a text
everything but its length and the first injection technique it shows. The rules see no more than
that: values of one shape are judged alike, down to the fault they report (`checkValue_eq`).
-/

namespace BoundSql

/-- What is left of a value when leaves are forgotten: of a text its length and the first injection
technique it shows, of an object its keys. -/
inductive Shape
  | null
  | bool
  | number
  | text (length : Nat) (technique? : Option InjectionClass)
  | list (shapes : List Shape)
  | object (fields : List (String × Shape))

namespace Value

mutual

/-- The shape of a value. -/
def shape : Value → Shape
  | null => .null
  | bool _ => .bool
  | int _ => .number
  | decimal _ _ => .number
  | text s => .text s.length (InjectionClass.firstIn? s)
  | list vs => .list (shapesOfList vs)
  | object fields => .object (shapesOfFields fields)

/-- The shapes of the members of a list. -/
def shapesOfList : List Value → List Shape
  | [] => []
  | v :: vs => shape v :: shapesOfList vs

/-- The shapes of the fields of an object, with their keys. -/
def shapesOfFields : List (String × Value) → List (String × Shape)
  | [] => []
  | (key, v) :: fields => (key, shape v) :: shapesOfFields fields

end

/-- What the shape of a text keeps. -/
def textShape (s : String) : Shape := .text s.length (InjectionClass.firstIn? s)

end Value

namespace Shape

mutual

/-- The shapes of the texts in a shape at any depth, in reading order. -/
def texts : Shape → List Shape
  | text length technique? => [.text length technique?]
  | list shapes => textsOfList shapes
  | object fields => textsOfFields fields
  | _ => []

/-- The shapes of the texts in the members of a list. -/
def textsOfList : List Shape → List Shape
  | [] => []
  | x :: xs => texts x ++ textsOfList xs

/-- The shapes of the texts in the fields of an object. -/
def textsOfFields : List (String × Shape) → List Shape
  | [] => []
  | (_, x) :: fields => texts x ++ textsOfFields fields

end

end Shape

namespace Value

mutual

/-- **The shape of a value determines those of its texts.** -/
theorem texts_shape (v : Value) : v.shape.texts = v.texts.map textShape := by
  cases v with
  | list vs => exact textsOfList_shapes vs
  | object fields => exact textsOfFields_shapes fields
  | _ => rfl

theorem textsOfList_shapes (vs : List Value) :
    Shape.textsOfList (shapesOfList vs) = (textsOfList vs).map textShape := by
  cases vs with
  | nil => rfl
  | cons v vs =>
    rw [shapesOfList, Shape.textsOfList, texts_shape v, textsOfList_shapes vs, textsOfList,
      List.map_append]

theorem textsOfFields_shapes (fields : List (String × Value)) :
    Shape.textsOfFields (shapesOfFields fields) = (textsOfFields fields).map textShape := by
  cases fields with
  | nil => rfl
  | cons field fields =>
    rw [shapesOfFields, Shape.textsOfFields, texts_shape field.2, textsOfFields_shapes fields,
      textsOfFields, List.map_append]

end

end Value

/-- Lists with related members are judged alike if related members are. -/
theorem judgeAll_eq_of_forall₂ {α ε : Type} {R : α → α → Prop} {judge : α → Except ε Unit}
    {xs ys : List α} (h : List.Forall₂ R xs ys) (same : ∀ x y, R x y → judge x = judge y) :
    judgeAll judge xs = judgeAll judge ys := by
  induction h with
  | nil => rfl
  | cons hx _ ih => rw [judgeAll, judgeAll, same _ _ hx, ih]

namespace Rules

variable {r : Rules}

/-- A text is judged by its length and the technique it shows. -/
theorem checkText_eq {s t : String} (h : Value.textShape s = Value.textShape t) :
    r.checkText s = r.checkText t := by
  rw [Value.textShape, Value.textShape, Shape.text.injEq] at h
  unfold checkText Bounds.validateText
  rw [h.1, h.2]
  split
  · rfl
  · split <;> rfl

/-- **Values of one shape are judged alike.** -/
theorem checkValue_eq {v w : Value} (h : v.shape = w.shape) : r.checkValue v = r.checkValue w := by
  have texts : List.Forall₂ (fun s t => Value.textShape s = Value.textShape t) v.texts w.texts := by
    rw [← List.forall₂_map_right_iff, ← List.forall₂_map_left_iff (R := Eq),
      List.forall₂_eq_eq_eq, ← Value.texts_shape, ← Value.texts_shape, h]
  exact judgeAll_eq_of_forall₂ texts fun _ _ => checkText_eq

end Rules

end BoundSql
