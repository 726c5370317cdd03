import BoundSql.Config.Error
import BoundSql.SecurityError
import BoundSql.Statement.Basic
import BoundSql.Validation.Error

/-!
# Query errors

Why a statement was not written. Errors fall into two families that never meet: validation, for
input that is malformed, and security, for input that looks malicious and callers that ask too
often. Configuration errors are in neither.
-/

namespace BoundSql

/-- What is missing from a statement or does not fit together. Names that were not accepted before
are held as logs may show them. -/
inductive Malformation
  | noTable (kind : StatementKind)
  | aggregateOfRows (function : Aggregate) (distinct : Bool)
  | operandCount (operator : Operator) (expected found : Nat)
  | noOperands (operator : Operator)
  | joinWithoutPairs (kind : JoinKind) (table : String)
  | offsetWithoutLimit
  | insertWithoutColumns
  | insertWithoutRows
  /-- The row at a position, counted from one, has another number of values than there are
  columns. -/
  | rowWidth (position found columns : Nat)
  | updateWithoutAssignments
  | ifNotExistsUnsupported (dialect : String)
  | createWithoutColumns
  | columnType (column dataType : String)
  | undeclaredPrimaryKey (column : String)
  | undeclaredForeignKey (column : String)
  deriving DecidableEq, Repr

/-- What to say to a reader. -/
def Malformation.message : Malformation → String
  | noTable .select => "SELECT requires at least one table"
  | noTable kind => kind.text ++ " requires a table"
  | aggregateOfRows function distinct =>
    function.text ++ (if distinct then " DISTINCT" else "") ++ "(*) is not a valid aggregate"
  | operandCount operator expected found =>
    operator.text ++ " takes " ++ toString expected ++ " value(s), got " ++ toString found
  | noOperands operator => operator.text ++ " requires at least one value"
  | joinWithoutPairs kind table =>
    kind.text ++ " on '" ++ table ++ "' needs at least one ON column pair"
  | offsetWithoutLimit => "OFFSET requires a LIMIT"
  | insertWithoutColumns => "INSERT requires at least one column"
  | insertWithoutRows => "INSERT requires at least one row of values"
  | rowWidth position found columns =>
    "row " ++ toString position ++ " has " ++ toString found ++ " value(s) for " ++
      toString columns ++ " column(s)"
  | updateWithoutAssignments => "UPDATE requires at least one SET column"
  | ifNotExistsUnsupported dialect => dialect ++ " does not support CREATE TABLE IF NOT EXISTS"
  | createWithoutColumns => "CREATE TABLE requires at least one column"
  | columnType column dataType => "invalid type for column '" ++ column ++ "': " ++ dataType
  | undeclaredPrimaryKey column => "primary key column '" ++ column ++ "' is not declared"
  | undeclaredForeignKey column => "foreign key column '" ++ column ++ "' is not declared"

/-- Why a statement was not written. -/
inductive QueryError
  /-- An input was refused. -/
  | validation (e : ValidationError)
  /-- The statement is incomplete or does not fit together. -/
  | malformed (m : Malformation)
  /-- The input looks malicious, or the caller asks too often. -/
  | security (e : SecurityError)
  | config (e : ConfigError)
  deriving DecidableEq, Repr

namespace QueryError

/-- A refusal of an input as a query error; a suspected injection is of the security family. -/
def ofValidation : ValidationError → QueryError
  | .injectionDetected technique => security (.injectionDetected technique)
  | e => validation e

/-- The name of the kind of error. -/
def code : QueryError → String
  | validation e => e.code
  | malformed _ => "malformed_query"
  | security e => e.code
  | config _ => "invalid_config"

/-- What to say to a reader. -/
def message : QueryError → String
  | validation e => "Validation error: " ++ e.message
  | malformed m => "Malformed query: " ++ m.message
  | security e => "Security violation: " ++ e.message
  | config e => "Configuration error: " ++ e.message

/-- Whether an error is of the security family. -/
def isSecurity : QueryError → Bool
  | security _ => true
  | _ => false

/-- Whether an error is of the validation family. -/
def isValidation : QueryError → Bool
  | validation _ | malformed _ => true
  | _ => false

end QueryError

end BoundSql
