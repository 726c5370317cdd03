import BoundSql.SecurityLevel

/-!
# Dialects

The five database families. What sets them apart is one profile each: how placeholders are
spelled, how identifiers are quoted, how a row limit is written, and what is supported at all.
-/

namespace BoundSql

/-- A database family. -/
inductive Dialect
  | postgres
  | mySql
  | sqlite
  | msSql
  | oracle
  deriving DecidableEq, Repr, Inhabited

/-- How a bound value is referred to in the text of a statement. -/
inductive PlaceholderStyle
  /-- A dollar sign and the position. -/
  | numbered
  /-- A question mark. -/
  | questionMark
  /-- A name after an at sign. -/
  | atNamed
  /-- A name after a colon. -/
  | colonNamed
  deriving DecidableEq, Repr, Inhabited

/-- How the number of rows is limited. -/
inductive LimitSyntax
  /-- LIMIT and OFFSET at the end. -/
  | limitOffset
  /-- TOP behind SELECT, or OFFSET and FETCH NEXT at the end when rows are skipped. -/
  | top
  /-- OFFSET and FETCH FIRST at the end. -/
  | fetchFirst
  deriving DecidableEq, Repr, Inhabited

/-- What sets a dialect apart. -/
structure DialectProfile where
  name : String
  placeholderStyle : PlaceholderStyle
  /-- The quote before an identifier. -/
  openQuote : Char
  /-- The quote after an identifier. -/
  closeQuote : Char
  limitSyntax : LimitSyntax
  supportsReturning : Bool
  supportsIfNotExists : Bool
  supportsBooleanLiterals : Bool
  deriving DecidableEq, Repr

namespace Dialect

/-- All dialects. -/
def all : List Dialect := [postgres, mySql, sqlite, msSql, oracle]

/-- The profile of a dialect. -/
def profile : Dialect → DialectProfile
  | postgres =>
    { name := "postgresql", placeholderStyle := .numbered, openQuote := '"', closeQuote := '"'
      limitSyntax := .limitOffset, supportsReturning := true, supportsIfNotExists := true
      supportsBooleanLiterals := true }
  | mySql =>
    { name := "mysql", placeholderStyle := .questionMark, openQuote := '\x60', closeQuote := '\x60'
      limitSyntax := .limitOffset, supportsReturning := false, supportsIfNotExists := true
      supportsBooleanLiterals := true }
  | sqlite =>
    { name := "sqlite", placeholderStyle := .questionMark, openQuote := '"', closeQuote := '"'
      limitSyntax := .limitOffset, supportsReturning := true, supportsIfNotExists := true
      supportsBooleanLiterals := true }
  | msSql =>
    { name := "mssql", placeholderStyle := .atNamed, openQuote := '[', closeQuote := ']'
      limitSyntax := .top, supportsReturning := false, supportsIfNotExists := false
      supportsBooleanLiterals := false }
  | oracle =>
    { name := "oracle", placeholderStyle := .colonNamed, openQuote := '"', closeQuote := '"'
      limitSyntax := .fetchFirst, supportsReturning := false, supportsIfNotExists := false
      supportsBooleanLiterals := false }

/-- The name of a dialect as shown to readers. -/
def name (d : Dialect) : String := d.profile.name

/-- The name of a dialect in configuration records. -/
def recordName : Dialect → String
  | postgres => "postgres"
  | mySql => "mysql"
  | sqlite => "sqlite"
  | msSql => "mssql"
  | oracle => "oracle"

/-- The dialect of a name in configuration records. -/
def ofRecordName? (s : String) : Option Dialect := all.find? (·.recordName == s)

/-- The dialect a text names, if it names one: by its name or by one of its synonyms. -/
def ofText? (s : String) : Option Dialect :=
  match Text.configWord s with
  | "postgres" | "postgresql" | "pg" => some postgres
  | "mysql" | "mariadb" => some mySql
  | "sqlite" | "sqlite3" => some sqlite
  | "mssql" | "sqlserver" | "sql_server" => some msSql
  | "oracle" => some oracle
  | _ => none

/-! ## Lemmas -/

theorem mem_all (d : Dialect) : d ∈ all := by
  cases d <;> decide

/-- Every dialect is read back from its name. -/
theorem ofText?_name (d : Dialect) : ofText? d.name = some d := by
  cases d <;> rfl

/-- Every dialect is read back from its name in records. -/
theorem ofRecordName?_recordName (d : Dialect) : ofRecordName? d.recordName = some d := by
  cases d <;> rfl

end Dialect

end BoundSql
