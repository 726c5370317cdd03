import BoundSql.Statement.Basic

/-!
# Conditions on rows

SELECT, UPDATE and DELETE statements take conditions on rows. A condition comes behind those that
are there, and so do its operands among the values to bind. The calls that compare a column are the
same for the three kinds of statement: each adds one condition, under an operator of its own and
with as many operands as the operator takes. Only a comparison with a list leaves their number to
the caller.
-/

namespace BoundSql

/-- The statements that take conditions on rows. -/
class TakesConditions (α : Type) where
  conditionsOf : α → List Condition
  addCondition : α → Condition → α
  /-- A condition comes behind those that are there. -/
  conditionsOf_addCondition : ∀ q c, conditionsOf (addCondition q c) = conditionsOf q ++ [c]

namespace TakesConditions

variable {α : Type} [TakesConditions α]

/-- Compares a column with operands. -/
def whereColumn (operator : Operator) (q : α) (column : String) (operands : List Value) : α :=
  addCondition q { expr := .column column, operator, operands }

theorem conditionsOf_whereColumn (operator : Operator) (q : α) (column : String)
    (operands : List Value) :
    conditionsOf (whereColumn operator q column operands) =
      conditionsOf q ++ [{ expr := .column column, operator, operands }] :=
  conditionsOf_addCondition _ _

/-! ## Comparisons with one value -/

def whereEq (q : α) (column : String) (v : Value) : α := whereColumn .equal q column [v]

def whereNe (q : α) (column : String) (v : Value) : α := whereColumn .notEqual q column [v]

def whereGt (q : α) (column : String) (v : Value) : α := whereColumn .greater q column [v]

def whereGte (q : α) (column : String) (v : Value) : α := whereColumn .greaterOrEqual q column [v]

def whereLt (q : α) (column : String) (v : Value) : α := whereColumn .less q column [v]

def whereLte (q : α) (column : String) (v : Value) : α := whereColumn .lessOrEqual q column [v]

/-! ## Comparisons with a pattern, which is bound like any other text -/

def whereLike (q : α) (column pattern : String) : α := whereColumn .like q column [.text pattern]

def whereNotLike (q : α) (column pattern : String) : α :=
  whereColumn .notLike q column [.text pattern]

/-! ## Comparisons with several values -/

def whereIn (q : α) (column : String) (vs : List Value) : α := whereColumn .isIn q column vs

def whereNotIn (q : α) (column : String) (vs : List Value) : α := whereColumn .notIn q column vs

def whereBetween (q : α) (column : String) (first last : Value) : α :=
  whereColumn .between q column [first, last]

/-! ## Comparisons with nothing -/

def whereNull (q : α) (column : String) : α := whereColumn .isNull q column []

def whereNotNull (q : α) (column : String) : α := whereColumn .isNotNull q column []

end TakesConditions

end BoundSql
