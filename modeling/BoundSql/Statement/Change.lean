import BoundSql.Statement.Where

/-!
# INSERT, UPDATE and DELETE statements

The statements that change rows, and the calls that build them up.
-/

namespace BoundSql

/-- An INSERT statement of one or more rows. -/
structure Insert where
  table : String
  columnNames : List String := []
  rows : List (List Value) := []
  returned : List String := []
  deriving Repr, Inhabited

namespace Insert

/-- Adds a column and its value in the first row. -/
def set (q : Insert) (column : String) (v : Value) : Insert :=
  { q with
    columnNames := q.columnNames ++ [column]
    rows := match q.rows with
      | [] => [[v]]
      | row :: rows => (row ++ [v]) :: rows }

/-- Declares the columns. -/
def columns (q : Insert) (names : List String) : Insert := { q with columnNames := names }

/-- Adds a row. -/
def values (q : Insert) (row : List Value) : Insert := { q with rows := q.rows ++ [row] }

/-- Declares the columns to return. -/
def returning (q : Insert) (names : List String) : Insert := { q with returned := names }

end Insert

/-- An UPDATE statement. -/
structure Update where
  table : String
  assignments : List (String × Value) := []
  conditions : List Condition := []
  returned : List String := []
  deriving Repr, Inhabited

namespace Update

/-- Adds an assignment. -/
def set (q : Update) (column : String) (v : Value) : Update :=
  { q with assignments := q.assignments ++ [(column, v)] }

/-- Assigns NULL, which is bound like any other value. -/
def setNull (q : Update) (column : String) : Update := q.set column .null

/-- Adds a condition on rows. -/
def addCondition (q : Update) (c : Condition) : Update :=
  { q with conditions := q.conditions ++ [c] }

instance : TakesConditions Update where
  conditionsOf := conditions
  addCondition := addCondition
  conditionsOf_addCondition _ _ := rfl

/-- Declares the columns to return. -/
def returning (q : Update) (names : List String) : Update := { q with returned := names }

end Update

/-- A DELETE statement. -/
structure Delete where
  table : String
  conditions : List Condition := []
  returned : List String := []
  deriving Repr, Inhabited

namespace Delete

/-- Adds a condition on rows. -/
def addCondition (q : Delete) (c : Condition) : Delete :=
  { q with conditions := q.conditions ++ [c] }

instance : TakesConditions Delete where
  conditionsOf := conditions
  addCondition := addCondition
  conditionsOf_addCondition _ _ := rfl

/-- Declares the columns to return. -/
def returning (q : Delete) (names : List String) : Delete := { q with returned := names }

/-- Whether every row is deleted. -/
def isUnbounded (q : Delete) : Bool := q.conditions.isEmpty

end Delete

end BoundSql
