import BoundSql.Dialect.Quoting

/-!
# Advice on raw SQL text

Two lists of remarks on a text: security warnings and performance suggestions. Each remark has a
pattern or a few that call for it; nothing is parsed and nothing is rewritten, and an empty list
says only that no pattern occurred.
-/

namespace BoundSql.Analysis

open Pattern

/-! ## The WHERE clause -/

/-- The keyword WHERE. -/
def whereKeyword : Pattern := wholeWord (keyword "where")

/-- The text behind the first WHERE, if there is one. -/
def whereTail? (sql : List Char) : Option (List Char) := whereKeyword.tailAfter? sql

/-! ## Security warnings -/

/-- A remark on a text. -/
inductive Warning
  | stringConcatenation
  | literalComparison
  | destructive
  | union
  | trailingComment
  | severalStatements
  | everyRow
  deriving DecidableEq, Repr

namespace Warning

/-- The warnings in the order in which they are given. -/
def all : List Warning :=
  [stringConcatenation, literalComparison, destructive, union, trailingComment, severalStatements,
    everyRow]

/-- What to say to a reader. -/
def message : Warning → String
  | stringConcatenation =>
    "String concatenation with literals detected; bind values as parameters instead"
  | literalComparison =>
    "WHERE clause compares against literals without placeholders; use parameterized values"
  | destructive => "Destructive operation (DROP/TRUNCATE) detected"
  | union => "UNION detected; verify it is not built from untrusted input"
  | trailingComment => "Trailing SQL comment detected; possible truncation attack"
  | severalStatements => "Multiple statements detected; execute one statement per call"
  | everyRow => "UPDATE/DELETE without WHERE affects every row in the table"

end Warning

/-- A placeholder of any style. A colon is one only where it follows neither a colon nor a word. -/
def placeholder : Pattern :=
  let name := seq (one .identifierStart) (many .word)
  oneOf (seq (char '$') (run .digit))
    [char '?', seq (char '@') name,
     cat [alt start (one (.except (.either (.only ':') .word))), char ':', name]]

/-- An operator that joins texts. -/
def joinOperator : Pattern := alt (char '+') (literal "||")

/-- A text joined to a literal, before or after it, or a call that joins one. -/
def concatenation : Pattern :=
  oneOf (cat [Quoted.plain '\'' '\'', blank, joinOperator])
    [cat [joinOperator, blank, char '\''],
     cat [boundary, keyword "concat", blank, char '(', many (.except (.only ')')), char '\'']]

/-- A comparison with a literal text or number. -/
def comparison : Pattern :=
  cat [oneOf (char '=') [literal "<>", literal "!=", char '<', char '>', wholeWord (keyword "like"),
      cat [boundary, keyword "in", blank, char '(']],
    blank, alt (char '\'') (seq (opt (char '-')) (one .digit))]

/-- A statement that destroys a table or its rows. -/
def destruction : Pattern := wholeWord (keywords ["drop", "truncate"])

/-- The keyword UNION. -/
def unionKeyword : Pattern := wholeWord (keyword "union")

/-- A comment that reaches to the end of the text. -/
def finalComment : Pattern :=
  cat [oneOf (literal "--") [char '#', literal "/*"], many .inLine, blank, stop]

/-- A statement terminator with more than white space behind it. -/
def furtherStatement : Pattern := cat [char ';', blank, one (.except .space)]

/-- A text that starts as an UPDATE or a DELETE. -/
def rowChange : Pattern := cat [start, blank, keywords ["update", "delete"], boundary]

/-- A text without its quoted parts. -/
def unquoted (sql : List Char) : List Char := Quoted.span.replaceAll (fun _ => []) sql

/-- Whether a warning is called for. -/
def Warning.holds (sql : List Char) : Warning → Bool
  | stringConcatenation => concatenation.occursIn sql
  | literalComparison =>
    (whereTail? sql).any fun tail =>
      !placeholder.occursIn (unquoted tail) && comparison.occursIn tail
  | destructive => destruction.occursIn sql
  | union => unionKeyword.occursIn sql
  | trailingComment => finalComment.occursIn sql
  | severalStatements => furtherStatement.occursIn sql
  | everyRow => rowChange.occursIn sql && !whereKeyword.occursIn sql

/-- The security warnings on a text. -/
def warnings (sql : String) : List Warning := Warning.all.filter (·.holds sql.toList)

/-! ## Performance suggestions -/

/-- A suggestion on a text. -/
inductive Suggestion
  | listColumns
  | indexGroups
  | indexOrder
  | boundRows
  | leadingWildcard
  | orConditions
  | redundantDistinct
  | subqueryMembership
  | functionOnColumn
  | indexJoins
  deriving DecidableEq, Repr

namespace Suggestion

/-- The suggestions in the order in which they are made. -/
def all : List Suggestion :=
  [listColumns, indexGroups, indexOrder, boundRows, leadingWildcard, orConditions,
    redundantDistinct, subqueryMembership, functionOnColumn, indexJoins]

/-- What to say to a reader. -/
def message : Suggestion → String
  | listColumns => "Avoid SELECT *; list only the columns you need"
  | indexGroups => "Ensure GROUP BY columns are indexed"
  | indexOrder => "Ensure ORDER BY columns are indexed"
  | boundRows => "Add LIMIT to bound the size of sorted results"
  | leadingWildcard => "LIKE patterns starting with % cannot use an index"
  | orConditions => "OR conditions in WHERE may prevent index use; consider IN or UNION"
  | redundantDistinct => "DISTINCT is redundant with GROUP BY"
  | subqueryMembership => "IN (SELECT ...) may perform better as a JOIN or EXISTS"
  | functionOnColumn => "Functions applied to columns in WHERE prevent index use"
  | indexJoins => "Ensure JOIN columns are indexed"

end Suggestion

/-- A star behind SELECT or SELECT DISTINCT. -/
def selectStar : Pattern :=
  cat [boundary, keyword "select", gap, opt (seq (keyword "distinct") gap), char '*']

/-- SELECT DISTINCT. -/
def selectDistinct : Pattern :=
  cat [boundary, keyword "select", gap, keyword "distinct", boundary]

/-- A text that starts as a SELECT. -/
def leadingSelect : Pattern := cat [start, blank, keyword "select", boundary]

/-- GROUP BY. -/
def groupBy : Pattern := cat [boundary, keyword "group", gap, keyword "by", boundary]

/-- ORDER BY. -/
def orderBy : Pattern := cat [boundary, keyword "order", gap, keyword "by", boundary]

/-- A keyword that limits the rows. -/
def rowBound : Pattern := wholeWord (keywords ["limit", "fetch", "top"])

/-- A comparison with a text that starts with a wildcard. -/
def wildcardLike : Pattern := cat [boundary, keyword "like", gap, literal "'%"]

/-- The keyword OR. -/
def orKeyword : Pattern := wholeWord (keyword "or")

/-- Membership in the rows of a subquery. -/
def inSubquery : Pattern :=
  cat [boundary, keyword "in", blank, char '(', blank, keyword "select", boundary]

/-- A function of a column. The letter is matched in any case. -/
def columnFunction : Pattern :=
  cat [boundary, keywords ["lower", "upper", "date", "year", "month", "trim", "substr", "substring",
      "coalesce", "cast"],
    blank, char '(', blank, one (.folded .identifierStart)]

/-- The keyword JOIN. -/
def joinKeyword : Pattern := wholeWord (keyword "join")

/-- Whether a suggestion is called for. -/
def Suggestion.holds (sql : List Char) : Suggestion → Bool
  | listColumns => selectStar.occursIn sql
  | indexGroups => groupBy.occursIn sql
  | indexOrder => orderBy.occursIn sql
  | boundRows => orderBy.occursIn sql && leadingSelect.occursIn sql && !rowBound.occursIn sql
  | leadingWildcard => wildcardLike.occursIn sql
  | orConditions => (whereTail? sql).any orKeyword.occursIn
  | redundantDistinct => selectDistinct.occursIn sql && groupBy.occursIn sql
  | subqueryMembership => inSubquery.occursIn sql
  | functionOnColumn => (whereTail? sql).any columnFunction.occursIn
  | indexJoins => joinKeyword.occursIn sql

/-- The performance suggestions on a text. -/
def suggestions (sql : String) : List Suggestion := Suggestion.all.filter (·.holds sql.toList)

/-- A text as it is, with the performance suggestions on it. -/
def optimize (sql : String) : String × List Suggestion := (sql, suggestions sql)

end BoundSql.Analysis
