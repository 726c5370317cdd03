import BoundSql.Pattern.Search

/-!
# Injection techniques

Known injection techniques, each with a pattern that gives it away, in a fixed order. A text is
suspicious if one of the patterns occurs in it; the first such technique is the one reported. This
is a second line of defence behind the binding of values.
-/

namespace BoundSql

/-- A known injection technique. -/
inductive InjectionClass
  /-- A closing quote followed by a comment or a statement terminator. -/
  | quoteEscape
  /-- A comparison that always holds. -/
  | tautology
  /-- A terminator followed by another statement. -/
  | stackedStatement
  /-- A second result set joined to the first. -/
  | unionSelect
  /-- A call that delays the answer. -/
  | timingAttack
  /-- A call of a system procedure. -/
  | privilegedProcedure
  deriving DecidableEq, Repr, Inhabited

namespace InjectionClass

open Pattern

/-- The techniques in the order in which they are tried. -/
def all : List InjectionClass :=
  [quoteEscape, tautology, stackedStatement, unionSelect, timingAttack, privilegedProcedure]

/-- The name of a technique. -/
def name : InjectionClass → String
  | quoteEscape => "quote_escape"
  | tautology => "tautology"
  | stackedStatement => "stacked_statement"
  | unionSelect => "union_select"
  | timingAttack => "timing_attack"
  | privilegedProcedure => "privileged_procedure"

/-- The technique of a name. -/
def ofName? (s : String) : Option InjectionClass := all.find? (·.name == s)

/-- The pattern of a technique in the usual notation for regular expressions. -/
def notationText : InjectionClass → String
  | quoteEscape => "(?i)'\\s*(--|/\\*|#|;)"
  | tautology =>
    "(?i)\\b(or|and)\\s+\\d+\\s*=\\s*\\d+\\b|\\bor\\s+'[^']*'\\s*=\\s*'[^']*'?|'\\s*(or|and)\\s+'"
  | stackedStatement => "(?i);\\s*(select|insert|update|delete|drop|create|alter|truncate" ++
    "|exec|execute|grant|revoke|merge)\\b"
  | unionSelect => "(?i)\\bunion(\\s+all)?(\\s|/\\*.*?\\*/)+select\\b"
  | timingAttack => "(?i)\\b(pg_)?sleep\\s*\\(|\\bwaitfor\\s+delay\\b|\\bbenchmark\\s*\\("
  | privilegedProcedure =>
    "(?i)\\bexec(ute)?\\s+(master\\.\\.|dbo\\.)?(xp|sp)_\\w+|\\b(xp|sp)_\\w+\\s*\\("

/-! ## The patterns -/

/-- Text between single quotes, without any inside. -/
def quotedRun : Pattern := cat [char '\'', many (.except (.only '\'')), char '\'']

/-- A comment between a slash with a star and a star with a slash, on one line, as short as
possible first. -/
def lineComment : Pattern := cat [literal "/*", few .inLine, literal "*/"]

/-- The name of an extended or system procedure. -/
def procedureName : Pattern := cat [keywords ["xp", "sp"], char '_', run .word]

/-- The pattern that gives a technique away. -/
def pattern : InjectionClass → Pattern
  | quoteEscape =>
    cat [char '\'', blank, oneOf (literal "--") [literal "/*", char '#', char ';']]
  | tautology =>
    oneOf
      (cat [boundary, keywords ["or", "and"], gap, run .digit, blank, char '=', blank, run .digit,
        boundary])
      [cat [boundary, keyword "or", gap, quotedRun, blank, char '=', blank, char '\'',
        many (.except (.only '\'')), opt (char '\'')],
       cat [char '\'', blank, keywords ["or", "and"], gap, char '\'']]
  | stackedStatement =>
    cat [char ';', blank, keywords ["select", "insert", "update", "delete", "drop", "create",
      "alter", "truncate", "exec", "execute", "grant", "revoke", "merge"], boundary]
  | unionSelect =>
    cat [boundary, keyword "union", opt (seq gap (keyword "all")),
      plus (alt (one .space) lineComment), keyword "select", boundary]
  | timingAttack =>
    oneOf
      (cat [boundary, opt (keyword "pg_"), keyword "sleep", blank, char '('])
      [cat [boundary, keyword "waitfor", gap, keyword "delay", boundary],
       cat [boundary, keyword "benchmark", blank, char '(']]
  | privilegedProcedure =>
    oneOf
      (cat [boundary, keyword "exec", opt (keyword "ute"), gap,
        opt (oneOf (keyword "master..") [keyword "dbo."]), procedureName])
      [cat [boundary, procedureName, blank, char '(']]

/-! ## Screening -/

/-- The techniques whose patterns occur in a text, in order. -/
def allIn (text : String) : List InjectionClass :=
  all.filter fun c => c.pattern.occursIn text.toList

/-- The first technique whose pattern occurs in a text. -/
def firstIn? (text : String) : Option InjectionClass :=
  all.find? fun c => c.pattern.occursIn text.toList

/-- Whether a text shows any known technique. -/
def suspects (text : String) : Bool := (firstIn? text).isSome

/-! ## Lemmas -/

/-- Every technique is read back from its name. -/
theorem ofName?_name (c : InjectionClass) : ofName? c.name = some c := by
  cases c <;> rfl

theorem mem_all (c : InjectionClass) : c ∈ all := by
  cases c <;> decide

/-- A technique shows in a text if its pattern occurs there. -/
theorem mem_allIn {c : InjectionClass} {text : String} :
    c ∈ allIn text ↔ c.pattern.occursIn text.toList = true := by
  rw [allIn, List.mem_filter, and_iff_right (mem_all c)]

end InjectionClass

end BoundSql
