import BoundSql.Dialect.Basic
import BoundSql.Judgement
import BoundSql.QueryError
import BoundSql.Statement
import BoundSql.Validation.Bounds
import BoundSql.Validation.Identifier

/-!
# Rules for statements

Everything a caller supplies is judged before anything is written: names, operands, bounds, and
how the parts of a statement fit together. Judging stops at the first fault. Main statements: an
accepted condition has as many operands as its operator takes (`fits_of_checkCondition`), and a
comparison is judged by itself, whatever was there (`checkConditions_whereColumn_eq_ok_iff`).
-/

namespace BoundSql

/-- What one statement is judged by. -/
structure Rules where
  level : SecurityLevel
  maxLimit : Int
  maxParameterLength : Nat
  profile : DialectProfile

namespace Rules

/-- Nothing, or the first fault. -/
abbrev Judgement := Except QueryError Unit

/-- A malformation unless a condition holds. -/
def needs (holds : Bool) (m : Malformation) : Judgement := demand holds (.malformed m)

/-- A judgement from what a validator answers. -/
def require {α : Type} : Except ValidationError α → Judgement
  | .ok _ => .ok ()
  | .error e => .error (.ofValidation e)

/-! ## Names -/

def checkTable (r : Rules) (name : String) : Judgement := require (Identifier.validate name r.level)

/-- Columns may be qualified at every level. -/
def checkColumn (r : Rules) (name : String) : Judgement :=
  require (Identifier.validateQualified name r.level)

/-- Names that are given to something are never qualified. -/
def checkAlias (r : Rules) (name : String) : Judgement :=
  require (Identifier.validate name r.level.undotted)

def checkColumns (r : Rules) (names : List String) : Judgement := judgeAll r.checkColumn names

/-- A name that need not be given. -/
def checkOptionalAlias (r : Rules) : Option String → Judgement
  | none => .ok ()
  | some name => r.checkAlias name

def checkTableRef (r : Rules) (t : TableRef) : Judgement := do
  r.checkTable t.name
  r.checkOptionalAlias t.as?

/-! ## Expressions, values and conditions -/

/-- Of the aggregates only a plain count is one of whole rows. -/
def checkExpr (r : Rules) : Expr → Judgement
  | .column name => r.checkColumn name
  | .aggregate _ _ (some name) => r.checkColumn name
  | .aggregate function distinct none =>
    needs (function == .count && !distinct) (.aggregateOfRows function distinct)

/-- A bound text is limited in length and, at the strict level, screened for injection. -/
def checkText (r : Rules) (s : String) : Judgement :=
  require (Bounds.validateText r.maxParameterLength r.level.screensParameters s)

/-- The texts in a bound value are judged at any depth. -/
def checkValue (r : Rules) (v : Value) : Judgement := judgeAll r.checkText v.texts

def checkValues (r : Rules) (vs : List Value) : Judgement := judgeAll r.checkValue vs

/-- The number of operands has to be that which the operator takes. -/
def checkArity (operator : Operator) (count : Nat) : Judgement :=
  match operator.arity? with
  | some expected => needs (expected == count) (.operandCount operator expected count)
  | none => needs (count != 0) (.noOperands operator)

def checkCondition (r : Rules) (c : Condition) : Judgement := do
  r.checkExpr c.expr
  checkArity c.operator c.operands.length
  r.checkValues c.operands

def checkConditions (r : Rules) (cs : List Condition) : Judgement := judgeAll r.checkCondition cs

/-! ## SELECT -/

def checkItem (r : Rules) : SelectItem → Judgement
  | .wildcard none => .ok ()
  | .wildcard (some qualifier) => r.checkColumn qualifier
  | .expr e as? => do
    r.checkExpr e
    r.checkOptionalAlias as?

def checkPair (r : Rules) (pair : String × String) : Judgement := do
  r.checkColumn pair.1
  r.checkColumn pair.2

def checkJoin (r : Rules) (j : Join) : Judgement := do
  r.checkTableRef j.table
  needs (!j.pairs.isEmpty) (.joinWithoutPairs j.kind (Redaction.nameForLog j.table.name))
  judgeAll r.checkPair j.pairs

def checkLimit (r : Rules) (limit : Int) : Judgement :=
  require (Bounds.validateInteger limit 1 r.maxLimit)

def checkOffset (offset : Int) : Judgement :=
  require (Bounds.validateInteger offset 0 Value.maxInt64)

/-- Rows are skipped only under a limit. -/
def checkRowRange (r : Rules) : Option Int → Option Int → Judgement
  | none, none => .ok ()
  | none, some _ => .error (.malformed .offsetWithoutLimit)
  | some limit, none => r.checkLimit limit
  | some limit, some offset => do
    r.checkLimit limit
    checkOffset offset

/-- What is selected: there is a table to select from, and the items are in order. -/
def checkSelection (r : Rules) (q : Select) : Judgement := do
  needs (!q.tables.isEmpty) (.noTable .select)
  judgeAll r.checkItem q.items

/-- What is selected from, and how. -/
def checkClauses (r : Rules) (q : Select) : Judgement := do
  judgeAll r.checkTableRef q.tables
  judgeAll r.checkJoin q.joins
  r.checkConditions q.conditions
  r.checkColumns q.groups
  r.checkConditions q.groupConditions
  r.checkColumns (q.orders.map (·.1))
  r.checkRowRange q.rowLimit q.rowOffset

def checkSelect (r : Rules) (q : Select) : Judgement := do
  r.checkSelection q
  r.checkClauses q

/-! ## INSERT, UPDATE and DELETE -/

/-- The table of a statement that is about one table. -/
def checkTarget (r : Rules) (kind : StatementKind) (table : String) : Judgement := do
  needs (!table.isEmpty) (.noTable kind)
  r.checkTable table

/-- The rows from a position on each have one value per column. -/
def checkRows (r : Rules) (columns : Nat) : Nat → List (List Value) → Judgement
  | _, [] => .ok ()
  | position, row :: rows => do
    needs (row.length == columns) (.rowWidth position row.length columns)
    r.checkValues row
    r.checkRows columns (position + 1) rows

def checkInsert (r : Rules) (q : Insert) : Judgement := do
  r.checkTarget .insert q.table
  needs (!q.columnNames.isEmpty) .insertWithoutColumns
  r.checkColumns q.columnNames
  needs (!q.rows.isEmpty) .insertWithoutRows
  r.checkRows q.columnNames.length 1 q.rows
  r.checkColumns q.returned

def checkAssignment (r : Rules) (assignment : String × Value) : Judgement := do
  r.checkColumn assignment.1
  r.checkValue assignment.2

def checkUpdate (r : Rules) (q : Update) : Judgement := do
  r.checkTarget .update q.table
  needs (!q.assignments.isEmpty) .updateWithoutAssignments
  judgeAll r.checkAssignment q.assignments
  r.checkConditions q.conditions
  r.checkColumns q.returned

def checkDelete (r : Rules) (q : Delete) : Judgement := do
  r.checkTarget .delete q.table
  r.checkConditions q.conditions
  r.checkColumns q.returned

/-! ## CREATE TABLE -/

/-- The most characters of a text that a column defaults to. -/
def maxTextDefaultLength : Nat := 255

open Pattern in
/-- The form of a column type: words of letters, digits and underscores with single spaces between
them, then one or two lengths in parentheses or none. -/
def columnType : Pattern :=
  let word := seq (one .asciiLetter) (many .identifierPart)
  let second := cat [blank, char ',', blank, run .digit]
  let lengths := cat [char '(', run .digit, opt second, char ')']
  cat [start, word, star (seq (char ' ') word), opt lengths, stop]

/-- A text that a column defaults to is limited in length and screened at every level. -/
def checkDefault : Option ColumnDefault → Judgement
  | some (.text s) => require (Bounds.validateText maxTextDefaultLength true s)
  | _ => .ok ()

def checkColumnDefinition (r : Rules) (c : ColumnDefinition) : Judgement := do
  r.checkAlias c.name
  needs (columnType.occursIn c.dataType.toList)
    (.columnType c.name (Redaction.nameForLog c.dataType))
  checkDefault c.default?

def checkKeyColumn (q : CreateTable) (name : String) : Judgement :=
  needs (q.declares name) (.undeclaredPrimaryKey (Redaction.nameForLog name))

def checkForeignKey (r : Rules) (q : CreateTable) (key : ForeignKey) : Judgement := do
  needs (q.declares key.column) (.undeclaredForeignKey (Redaction.nameForLog key.column))
  r.checkTable key.referencedTable
  r.checkAlias key.referencedColumn

def checkCreateTable (r : Rules) (q : CreateTable) : Judgement := do
  r.checkTarget .createTable q.table
  needs (!q.unlessExists || r.profile.supportsIfNotExists)
    (.ifNotExistsUnsupported r.profile.name)
  needs (!q.columns.isEmpty) .createWithoutColumns
  judgeAll r.checkColumnDefinition q.columns
  judgeAll (checkKeyColumn q) q.keyColumns
  judgeAll (r.checkForeignKey q) q.foreignKeys

/-! ## Statements -/

/-- Judges a statement. -/
def check (r : Rules) : Statement → Judgement
  | .select q => r.checkSelect q
  | .insert q => r.checkInsert q
  | .update q => r.checkUpdate q
  | .delete q => r.checkDelete q
  | .createTable q => r.checkCreateTable q

/-! ## Lemmas -/

@[simp] theorem require_eq_ok_iff {α : Type} {e : Except ValidationError α} :
    require e = .ok () ↔ ∃ a, e = .ok a := by
  cases e <;> simp [require]

@[simp] theorem needs_eq_ok_iff {holds : Bool} {m : Malformation} :
    needs holds m = .ok () ↔ holds = true := demand_eq_ok_iff

/-- An operator takes so many operands. -/
def Fits (operator : Operator) (count : Nat) : Prop :=
  match operator.arity? with
  | some expected => count = expected
  | none => 0 < count

theorem checkArity_eq_ok_iff {operator : Operator} {count : Nat} :
    checkArity operator count = .ok () ↔ Fits operator count := by
  unfold checkArity Fits
  cases operator.arity? with
  | none => simp [Nat.pos_iff_ne_zero]
  | some expected => simpa using eq_comm

/-- **An accepted condition has the operands its operator takes.** -/
theorem fits_of_checkCondition {r : Rules} {c : Condition} (h : r.checkCondition c = .ok ()) :
    Fits c.operator c.operands.length := by
  simp only [checkCondition, bind_eq_ok_iff] at h
  exact checkArity_eq_ok_iff.mp h.2.1

open TakesConditions in
/-- **A comparison is judged by itself**: its column, the number of its operands, and these. -/
theorem checkConditions_whereColumn_eq_ok_iff {α : Type} [TakesConditions α] {r : Rules} {q : α}
    {operator : Operator} {column : String} {operands : List Value} :
    r.checkConditions (conditionsOf (whereColumn operator q column operands)) = .ok () ↔
      r.checkConditions (conditionsOf q) = .ok () ∧ r.checkColumn column = .ok () ∧
        Fits operator operands.length ∧ r.checkValues operands = .ok () := by
  have last : ∀ c, r.checkConditions (conditionsOf q ++ [c]) = .ok () ↔
      r.checkConditions (conditionsOf q) = .ok () ∧ r.checkCondition c = .ok () := fun c => by
    simp only [checkConditions, judgeAll_eq_ok_iff, List.forall_mem_append,
      List.forall_mem_singleton]
  rw [conditionsOf_whereColumn, last, checkCondition]
  simp only [bind_eq_ok_iff, checkArity_eq_ok_iff, checkExpr]

end Rules

end BoundSql
