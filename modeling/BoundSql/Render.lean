import BoundSql.Statement
import BoundSql.Writer

/-!
# Statements as pieces

How each statement is written, as pieces in order. Of the dialect only the profile matters, and
only where rows are limited, rows are returned, or a truth value is a default.
-/

namespace BoundSql

open Piece

/-! ## Expressions and conditions -/

/-- An expression. -/
def Expr.pieces : Expr → List Piece
  | column name => [ident name]
  | aggregate function distinct column? =>
    [text function.text, text "("] ++ (if distinct then [text "DISTINCT "] else []) ++
      (match column? with
        | some name => [ident name]
        | none => [text "*"]) ++ [text ")"]

/-- The positions of the operands that the text of a condition refers to. -/
def Operator.slots (count : Nat) : Operator → List Nat
  | isNull | isNotNull => []
  | isIn | notIn => List.range count
  | between => [0, 1]
  | _ => [0]

namespace Condition

/-- The operands that the text of a condition refers to. -/
def referred (c : Condition) : List Value :=
  (c.operator.slots c.operands.length).filterMap (c.operands[·]?)

/-- What follows the operator of a condition. -/
def operandPieces (c : Condition) : List Piece :=
  let bound := c.referred.map fun v => [bind v]
  match c.operator with
  | .isNull | .isNotNull => []
  | .isIn | .notIn => [text " ("] ++ listed bound ++ [text ")"]
  | _ => [text " "] ++ separated " AND " bound

/-- A condition. -/
def pieces (c : Condition) : List Piece :=
  c.expr.pieces ++ [text " ", text c.operator.text] ++ c.operandPieces

/-- A keyword and conditions that all have to hold, if there are any. -/
def clause (keyword : String) (conditions : List Condition) : List Piece :=
  if conditions.isEmpty then []
  else [text " ", text keyword, text " "] ++ separated " AND " (conditions.map pieces)

end Condition

/-- A name given with a keyword or a space before it, if one is given. -/
def aliasPieces (introduction : String) : Option String → List Piece
  | none => []
  | some name => [text introduction, ident name]

/-- A table. -/
def TableRef.pieces (t : TableRef) : List Piece := ident t.name :: aliasPieces " " t.as?

/-- The returned columns, if there are any and the dialect can return them. -/
def returningPieces (p : DialectProfile) (columns : List String) : List Piece :=
  if columns.isEmpty || !p.supportsReturning then [] else text " RETURNING " :: idents columns

/-! ## SELECT -/

namespace Select

/-- An item of a select list. -/
def itemPieces : SelectItem → List Piece
  | .wildcard none => [text "*"]
  | .wildcard (some qualifier) => [ident qualifier, text ".*"]
  | .expr e as? => e.pieces ++ aliasPieces " AS " as?

/-- The select list; without items it is a star. -/
def itemsPieces (items : List SelectItem) : List Piece :=
  if items.isEmpty then [text "*"] else listed (items.map itemPieces)

/-- A pair of equal columns. -/
def pairPieces (pair : String × String) : List Piece := [ident pair.1, text " = ", ident pair.2]

/-- A join. -/
def joinPieces (j : Join) : List Piece :=
  [text " ", text j.kind.text, text " "] ++ j.table.pieces ++ [text " ON "] ++
    separated " AND " (j.pairs.map pairPieces)

/-- The grouping columns, if there are any. -/
def groupPieces (groups : List String) : List Piece :=
  if groups.isEmpty then [] else text " GROUP BY " :: idents groups

/-- The ordering columns, if there are any. -/
def orderPieces (orders : List (String × Direction)) : List Piece :=
  if orders.isEmpty then []
  else text " ORDER BY " ::
    listed (orders.map fun o => [ident o.1, text " ", text o.2.text])

/-- The row limit where it stands in front of the select list. -/
def limitHead (limits : LimitSyntax) (q : Select) : List Piece :=
  match limits, q.rowLimit, q.rowOffset with
  | .top, some n, none => [text ("TOP " ++ toString n ++ " ")]
  | _, _, _ => []

/-- The row limit where it stands at the end. Where rows are fetched behind an offset, an ordering
has to be written even if none is asked for. -/
def limitTail (limits : LimitSyntax) (q : Select) : List Piece :=
  match limits, q.rowLimit, q.rowOffset with
  | _, none, _ => []
  | .limitOffset, some n, none => [text (" LIMIT " ++ toString n)]
  | .limitOffset, some n, some m => [text (" LIMIT " ++ toString n ++ " OFFSET " ++ toString m)]
  | .top, some _, none => []
  | .top, some n, some m =>
    (if q.orders.isEmpty then [text " ORDER BY (SELECT NULL)"] else []) ++
      [text (" OFFSET " ++ toString m ++ " ROWS FETCH NEXT " ++ toString n ++ " ROWS ONLY")]
  | .fetchFirst, some n, none => [text (" FETCH FIRST " ++ toString n ++ " ROWS ONLY")]
  | .fetchFirst, some n, some m =>
    [text (" OFFSET " ++ toString m ++ " ROWS"),
      text (" FETCH FIRST " ++ toString n ++ " ROWS ONLY")]

/-- What comes before the select list, but for a row limit. -/
def opening (q : Select) : List Piece :=
  text "SELECT " :: if q.isDistinct then [text "DISTINCT "] else []

/-- The select list and what follows it, but for a row limit. -/
def body (q : Select) : List Piece :=
  itemsPieces q.items ++ [text " FROM "] ++ listed (q.tables.map TableRef.pieces) ++
    q.joins.flatMap joinPieces ++ Condition.clause "WHERE" q.conditions ++ groupPieces q.groups ++
    Condition.clause "HAVING" q.groupConditions ++ orderPieces q.orders

/-- A SELECT statement. -/
def pieces (p : DialectProfile) (q : Select) : List Piece :=
  q.opening ++ limitHead p.limitSyntax q ++ q.body ++ limitTail p.limitSyntax q

end Select

/-! ## INSERT, UPDATE and DELETE -/

/-- A row of values. -/
def Insert.rowPieces (row : List Value) : List Piece :=
  [text "("] ++ listed (row.map fun v => [bind v]) ++ [text ")"]

/-- An INSERT statement. -/
def Insert.pieces (p : DialectProfile) (q : Insert) : List Piece :=
  [text "INSERT INTO ", ident q.table, text " ("] ++ idents q.columnNames ++
    [text ") VALUES "] ++ listed (q.rows.map rowPieces) ++ returningPieces p q.returned

/-- An assignment. -/
def Update.assignmentPieces (assignment : String × Value) : List Piece :=
  [ident assignment.1, text " = ", bind assignment.2]

/-- An UPDATE statement. -/
def Update.pieces (p : DialectProfile) (q : Update) : List Piece :=
  [text "UPDATE ", ident q.table, text " SET "] ++ listed (q.assignments.map assignmentPieces) ++
    Condition.clause "WHERE" q.conditions ++ returningPieces p q.returned

/-- A DELETE statement. -/
def Delete.pieces (p : DialectProfile) (q : Delete) : List Piece :=
  [text "DELETE FROM ", ident q.table] ++ Condition.clause "WHERE" q.conditions ++
    returningPieces p q.returned

/-! ## CREATE TABLE -/

/-- A default. A text stands between single quotes, with every single quote inside written twice. -/
def ColumnDefault.literal (booleanLiterals : Bool) : ColumnDefault → String
  | null => "NULL"
  | integer n => toString n
  | boolean true => if booleanLiterals then "TRUE" else "1"
  | boolean false => if booleanLiterals then "FALSE" else "0"
  | currentTimestamp => "CURRENT_TIMESTAMP"
  | currentDate => "CURRENT_DATE"
  | .text s => "'" ++ String.ofList (Text.doubling '\'' s.toList) ++ "'"

/-- A column. -/
def ColumnDefinition.pieces (p : DialectProfile) (c : ColumnDefinition) : List Piece :=
  [ident c.name, text " ", text c.dataType] ++ (if c.notNull then [text " NOT NULL"] else []) ++
    match c.default? with
    | none => []
    | some d => [text " DEFAULT ", text (d.literal p.supportsBooleanLiterals)]

/-- A foreign key. -/
def ForeignKey.pieces (key : ForeignKey) : List Piece :=
  [text ", FOREIGN KEY (", ident key.column, text ") REFERENCES ", ident key.referencedTable,
    text "(", ident key.referencedColumn, text ")"]

/-- The primary key, if there is one. -/
def CreateTable.keyPieces (columns : List String) : List Piece :=
  if columns.isEmpty then [] else [text ", PRIMARY KEY ("] ++ idents columns ++ [text ")"]

/-- A CREATE TABLE statement. -/
def CreateTable.pieces (p : DialectProfile) (q : CreateTable) : List Piece :=
  [text "CREATE TABLE "] ++ (if q.unlessExists then [text "IF NOT EXISTS "] else []) ++
    [ident q.table, text " ("] ++ listed (q.columns.map (·.pieces p)) ++
    keyPieces q.keyColumns ++ q.foreignKeys.flatMap ForeignKey.pieces ++ [text ")"]

/-! ### The parts of a table -/

namespace ColumnDefinition

/-- What a column writes in front of its default. -/
def headPieces (c : ColumnDefinition) : List Piece :=
  [ident c.name, text " ", text c.dataType] ++ if c.notNull then [text " NOT NULL"] else []

/-- The default of a column. -/
def defaultPieces (p : DialectProfile) (c : ColumnDefinition) : List Piece :=
  match c.default? with
  | none => []
  | some d => [text " DEFAULT ", text (d.literal p.supportsBooleanLiterals)]

theorem pieces_eq (p : DialectProfile) (c : ColumnDefinition) :
    c.pieces p = c.headPieces ++ c.defaultPieces p := rfl

end ColumnDefinition

namespace CreateTable

/-- What stands in front of the columns. -/
def headPieces (q : CreateTable) : List Piece :=
  [text "CREATE TABLE "] ++ (if q.unlessExists then [text "IF NOT EXISTS "] else []) ++
    [ident q.table, text " ("]

/-- What stands behind the columns. -/
def tailPieces (q : CreateTable) : List Piece :=
  keyPieces q.keyColumns ++ q.foreignKeys.flatMap ForeignKey.pieces ++ [text ")"]

theorem pieces_eq (p : DialectProfile) (q : CreateTable) :
    q.pieces p = q.headPieces ++ listed (q.columns.map (·.pieces p)) ++ q.tailPieces := by
  simp only [pieces, headPieces, tailPieces, List.append_assoc]

end CreateTable

/-! ## Statements -/

namespace Statement

/-- The pieces of a statement. -/
def pieces (p : DialectProfile) : Statement → List Piece
  | select q => q.pieces p
  | insert q => q.pieces p
  | update q => q.pieces p
  | delete q => q.pieces p
  | createTable q => q.pieces p

/-- A statement as a dialect writes it. -/
def render (d : Dialect) (quotesIdentifiers : Bool) (s : Statement) : GeneratedQuery :=
  ((Writer.new d quotesIdentifiers).write (s.pieces d.profile)).finish

end Statement

end BoundSql
