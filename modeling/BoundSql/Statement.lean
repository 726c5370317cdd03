import BoundSql.Statement.Change
import BoundSql.Statement.CreateTable
import BoundSql.Statement.Select

/-!
# Statements

A statement of any kind, with what is recorded of it (its kind and its table) and the values it
binds (`boundValues`), in the order in which their placeholders are written.
-/

namespace BoundSql

/-- A statement of one of the five kinds. -/
inductive Statement
  | select (q : Select)
  | insert (q : Insert)
  | update (q : Update)
  | delete (q : Delete)
  | createTable (q : CreateTable)
  deriving Repr, Inhabited

namespace Statement

/-- The kind of a statement. -/
def kind : Statement → StatementKind
  | select _ => .select
  | insert _ => .insert
  | update _ => .update
  | delete _ => .delete
  | createTable _ => .createTable

/-- The table a statement is about. -/
def tableName : Statement → String
  | select q => q.tableName
  | insert q => q.table
  | update q => q.table
  | delete q => q.table
  | createTable q => q.table

/-- The operands of conditions, in order. -/
def operandsOf (conditions : List Condition) : List Value := conditions.flatMap (·.operands)

/-- The values a statement binds: operands on rows, then on groups; the rows one after the other;
assigned values, then operands. -/
def boundValues : Statement → List Value
  | select q => operandsOf q.conditions ++ operandsOf q.groupConditions
  | insert q => q.rows.flatten
  | update q => q.assignments.map (·.2) ++ operandsOf q.conditions
  | delete q => operandsOf q.conditions
  | createTable _ => []

end Statement

end BoundSql
