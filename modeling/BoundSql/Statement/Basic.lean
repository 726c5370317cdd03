import BoundSql.Text.Case
import BoundSql.Text.Split
import BoundSql.Value

/-!
# The parts of statements

Expressions, operators, conditions, tables and joins: what the five kinds of statement are made
of. Two of them are also given as text: a table, with or without an alias, and an item of a select
list.
-/

namespace BoundSql

/-- The kinds of statements. -/
inductive StatementKind
  | select
  | insert
  | update
  | delete
  | createTable
  deriving DecidableEq, Repr, Inhabited

/-- The words a statement of the kind starts with. -/
def StatementKind.text : StatementKind → String
  | select => "SELECT"
  | insert => "INSERT"
  | update => "UPDATE"
  | delete => "DELETE"
  | createTable => "CREATE TABLE"

/-! ## Operators -/

/-- The operator of a condition. -/
inductive Operator
  | equal
  | notEqual
  | greater
  | greaterOrEqual
  | less
  | lessOrEqual
  | like
  | notLike
  | isIn
  | notIn
  | isNull
  | isNotNull
  | between
  deriving DecidableEq, Repr, Inhabited

namespace Operator

/-- All operators. -/
def all : List Operator :=
  [equal, notEqual, greater, greaterOrEqual, less, lessOrEqual, like, notLike, isIn, notIn, isNull,
    isNotNull, between]

/-- An operator as it is written. -/
def text : Operator → String
  | equal => "="
  | notEqual => "!="
  | greater => ">"
  | greaterOrEqual => ">="
  | less => "<"
  | lessOrEqual => "<="
  | like => "LIKE"
  | notLike => "NOT LIKE"
  | isIn => "IN"
  | notIn => "NOT IN"
  | isNull => "IS NULL"
  | isNotNull => "IS NOT NULL"
  | between => "BETWEEN"

/-- The operator that is written so. -/
def ofText? (s : String) : Option Operator := all.find? (·.text == s)

/-- The number of operands an operator takes, if it is fixed; otherwise it takes one or more. -/
def arity? : Operator → Option Nat
  | isNull | isNotNull => some 0
  | isIn | notIn => none
  | between => some 2
  | _ => some 1

theorem ofText?_text (op : Operator) : ofText? op.text = some op := by
  cases op <;> rfl

end Operator

/-! ## Expressions and conditions -/

/-- An aggregate function. -/
inductive Aggregate
  | count
  | sum
  | avg
  | min
  | max
  deriving DecidableEq, Repr, Inhabited

/-- An aggregate function as it is written. -/
def Aggregate.text : Aggregate → String
  | count => "COUNT"
  | sum => "SUM"
  | avg => "AVG"
  | min => "MIN"
  | max => "MAX"

/-- A column, or an aggregate over a column or over whole rows. -/
inductive Expr
  | column (name : String)
  | aggregate (function : Aggregate) (distinct : Bool) (column : Option String)
  deriving DecidableEq, Repr, Inhabited

/-- A condition: an expression, an operator and the operands to bind, in this order. -/
structure Condition where
  expr : Expr
  operator : Operator
  operands : List Value
  deriving Repr, Inhabited

/-! ## Select lists -/

/-- An item of a select list. -/
inductive SelectItem
  /-- All columns, of one table if it is named. -/
  | wildcard (qualifier : Option String)
  | expr (e : Expr) (as? : Option String)
  deriving DecidableEq, Repr, Inhabited

namespace SelectItem

/-- The item a text stands for: a star, a qualifier with a dot and a star, or a column. Every dot
before the star belongs to the separator. -/
def ofText (s : List Char) : SelectItem :=
  if s = ['*'] then wildcard none
  else if ['.', '*'].isSuffixOf s then
    wildcard (some (String.ofList (Text.dropTrailing (· == '.') s.dropLast)))
  else expr (.column (String.ofList s)) none

/-- The items of a text: its parts between commas without white space around them, where they are
not empty. -/
def listOfText (fields : String) : List SelectItem :=
  (((Text.splitOn ',' fields.toList).map Text.trim).filter (!·.isEmpty)).map ofText

end SelectItem

/-! ## Tables and joins -/

/-- A table, with an alias or without. -/
structure TableRef where
  name : String
  as? : Option String := none
  deriving DecidableEq, Repr, Inhabited

/-- The table a text names: a name, a name and an alias, or the two with AS between them. Any other
text is taken as a name whole, which no rule for names accepts. -/
def TableRef.ofText (s : String) : TableRef :=
  match Text.words s.toList with
  | [name] => { name := String.ofList name }
  | [name, other] => { name := String.ofList name, as? := some (String.ofList other) }
  | [name, word, other] =>
    if Text.asciiLower word = ['a', 's'] then
      { name := String.ofList name, as? := some (String.ofList other) }
    else { name := s }
  | _ => { name := s }

/-- The kinds of joins. -/
inductive JoinKind
  | inner
  | left
  | right
  | full
  deriving DecidableEq, Repr, Inhabited

/-- A kind of join as it is written. -/
def JoinKind.text : JoinKind → String
  | inner => "INNER JOIN"
  | left => "LEFT JOIN"
  | right => "RIGHT JOIN"
  | full => "FULL JOIN"

/-- A join with a table on pairs of equal columns. -/
structure Join where
  kind : JoinKind
  table : TableRef
  pairs : List (String × String)
  deriving DecidableEq, Repr, Inhabited

/-- The directions of an ordering. -/
inductive Direction
  | ascending
  | descending
  deriving DecidableEq, Repr, Inhabited

/-- A direction as it is written. -/
def Direction.text : Direction → String
  | ascending => "ASC"
  | descending => "DESC"

end BoundSql
