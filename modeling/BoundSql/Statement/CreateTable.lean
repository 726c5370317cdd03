import BoundSql.Statement.Basic

/-!
# CREATE TABLE statements

A table with its columns and keys, and the calls that build it up. Types and defaults are written
into the statement, so a default is one of a closed set of literals.
-/

namespace BoundSql

/-- The literal a column defaults to. -/
inductive ColumnDefault
  | null
  | integer (n : Int)
  | boolean (b : Bool)
  | currentTimestamp
  | currentDate
  | text (s : String)
  deriving DecidableEq, Repr, Inhabited

/-- A column of a table. -/
structure ColumnDefinition where
  name : String
  dataType : String
  notNull : Bool := false
  default? : Option ColumnDefault := none
  deriving DecidableEq, Repr, Inhabited

/-- A column whose values are found in a column of another table. -/
structure ForeignKey where
  column : String
  referencedTable : String
  referencedColumn : String
  deriving DecidableEq, Repr, Inhabited

/-- A CREATE TABLE statement. -/
structure CreateTable where
  table : String
  unlessExists : Bool := false
  columns : List ColumnDefinition := []
  keyColumns : List String := []
  foreignKeys : List ForeignKey := []
  deriving DecidableEq, Repr, Inhabited

namespace CreateTable

/-- Leaves a table alone that is there already. -/
def ifNotExists (q : CreateTable) : CreateTable := { q with unlessExists := true }

/-- Adds a column. -/
def column (q : CreateTable) (c : ColumnDefinition) : CreateTable :=
  { q with columns := q.columns ++ [c] }

/-- Declares the columns of the primary key. -/
def primaryKey (q : CreateTable) (names : List String) : CreateTable :=
  { q with keyColumns := names }

/-- Adds a foreign key. -/
def foreignKey (q : CreateTable) (key : ForeignKey) : CreateTable :=
  { q with foreignKeys := q.foreignKeys ++ [key] }

/-- Whether a name is that of a column. -/
def declares (q : CreateTable) (name : String) : Bool := q.columns.any (·.name == name)

end CreateTable

end BoundSql
