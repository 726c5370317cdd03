import BoundSql.Statement.Where
import BoundSql.Value.Record

/-!
# SELECT statements

A SELECT statement and the calls that build it up. Limits and offsets are numbers of signed words
of 64 bits; the offset of a page is computed with saturation, so that no page wraps around.
-/

namespace BoundSql

/-- A SELECT statement. -/
structure Select where
  isDistinct : Bool := false
  items : List SelectItem := []
  tables : List TableRef := []
  joins : List Join := []
  conditions : List Condition := []
  groups : List String := []
  groupConditions : List Condition := []
  orders : List (String × Direction) := []
  rowLimit : Option Int := none
  rowOffset : Option Int := none
  deriving Repr, Inhabited

namespace Select

/-- Adds the items of a comma-separated text. -/
def select (q : Select) (fields : String) : Select :=
  { q with items := q.items ++ SelectItem.listOfText fields }

/-- Drops repeated rows. -/
def distinct (q : Select) : Select := { q with isDistinct := true }

/-- Adds the items of a comma-separated text, and drops repeated rows. -/
def selectDistinct (q : Select) (fields : String) : Select := q.distinct.select fields

/-- Adds an expression, named or not. -/
def selectExpr (q : Select) (e : Expr) (as? : Option String) : Select :=
  { q with items := q.items ++ [.expr e as?] }

/-- Adds a column under a name. -/
def selectAs (q : Select) (column name : String) : Select :=
  q.selectExpr (.column column) (some name)

/-- Adds an aggregate over a column, named or not. -/
def selectAggregate (q : Select) (f : Aggregate) (column : String) (as? : Option String) : Select :=
  q.selectExpr (.aggregate f false (some column)) as?

/-- Adds the number of rows. -/
def selectCountAll (q : Select) (as? : Option String) : Select :=
  q.selectExpr (.aggregate .count false none) as?

def selectCount (q : Select) (column : String) (as? : Option String) : Select :=
  q.selectAggregate .count column as?

def selectSumAs (q : Select) (column name : String) : Select :=
  q.selectAggregate .sum column (some name)

def selectAvgAs (q : Select) (column name : String) : Select :=
  q.selectAggregate .avg column (some name)

def selectMinAs (q : Select) (column name : String) : Select :=
  q.selectAggregate .min column (some name)

def selectMaxAs (q : Select) (column name : String) : Select :=
  q.selectAggregate .max column (some name)

/-- Reads from one table, given as text, and no other. -/
def fromTable (q : Select) (table : String) : Select := { q with tables := [.ofText table] }

/-- Reads from one more table, given as text. -/
def alsoFrom (q : Select) (table : String) : Select :=
  { q with tables := q.tables ++ [.ofText table] }

/-- Joins a table, given as text, on pairs of equal columns. -/
def join (q : Select) (kind : JoinKind) (table : String) (pairs : List (String × String)) :
    Select :=
  { q with joins := q.joins ++ [{ kind, table := .ofText table, pairs }] }

/-- Joins a table where two columns are equal. -/
def innerJoin (q : Select) (table left right : String) : Select :=
  q.join .inner table [(left, right)]

/-- Joins a table where two columns are equal, and keeps the rows without a partner. -/
def leftJoin (q : Select) (table left right : String) : Select := q.join .left table [(left, right)]

/-- Adds a condition on rows. -/
def addCondition (q : Select) (c : Condition) : Select :=
  { q with conditions := q.conditions ++ [c] }

instance : TakesConditions Select where
  conditionsOf := conditions
  addCondition := addCondition
  conditionsOf_addCondition _ _ := rfl

/-- Groups by one more column. -/
def groupBy (q : Select) (column : String) : Select := { q with groups := q.groups ++ [column] }

/-- Adds a condition on groups. -/
def having (q : Select) (c : Condition) : Select :=
  { q with groupConditions := q.groupConditions ++ [c] }

/-- Orders by one more column. -/
def orderBy (q : Select) (column : String) (d : Direction) : Select :=
  { q with orders := q.orders ++ [(column, d)] }

/-- Orders by one more column, the greatest values first. -/
def orderByDesc (q : Select) (column : String) : Select := q.orderBy column .descending

/-- Limits the number of rows. -/
def limit (q : Select) (count : Int) : Select := { q with rowLimit := some count }

/-- Skips rows. -/
def offset (q : Select) (count : Int) : Select := { q with rowOffset := some count }

/-- The nearest number that fits a signed word of 64 bits. -/
def saturate (n : Int) : Int := max Value.minInt64 (min Value.maxInt64 n)

/-- The rows before a page, where pages count from one and earlier ones stand for the first. -/
def pageOffset (perPage page : Int) : Int := saturate (max (saturate (page - 1)) 0 * perPage)

/-- Limits to one page. -/
def paginate (q : Select) (perPage page : Int) : Select :=
  (q.limit perPage).offset (pageOffset perPage page)

/-- The table read from first; its name stands for the statement in records. -/
def tableName (q : Select) : String :=
  match q.tables with
  | [] => ""
  | t :: _ => t.name

/-- Whether an item of a select list is the star alone. -/
def isBareStar : SelectItem → Bool
  | .wildcard none => true
  | _ => false

/-- Whether all columns of all tables are selected. -/
def selectsEverything (q : Select) : Bool := q.items.isEmpty || q.items.any isBareStar

end Select

end BoundSql
