import BoundSql.Dialect.Basic
import BoundSql.Pattern.Search

/-!
# Quoting

An identifier is quoted segment by segment: each segment between the quotes of the dialect, with
every closing quote inside written twice, so that nothing in a segment can end it. `Quoted.span`
is the pattern of quoted text of any kind, in which nothing counts as SQL.
-/

namespace BoundSql

namespace DialectProfile

/-- A segment between quotes. -/
def quoteSegment (p : DialectProfile) (segment : List Char) : List Char :=
  p.openQuote :: Text.doubling p.closeQuote segment ++ [p.closeQuote]

/-- An identifier with every segment between its dots quoted. -/
def quoteIdentifier (p : DialectProfile) (identifier : String) : String :=
  String.ofList (['.'].intercalate ((Text.splitOn '.' identifier.toList).map p.quoteSegment))

end DialectProfile

namespace Quoted

open Pattern

/-- Text between two quotes, where a quote inside is written twice. -/
def doubled (q : Char) : Pattern :=
  cat [char q, star (alt (one (.except (.only q))) (seq (char q) (char q))), char q]

/-- Text between an opening quote and the next closing quote. -/
def plain (openQuote closeQuote : Char) : Pattern :=
  cat [char openQuote, many (.except (.only closeQuote)), char closeQuote]

/-- Quoted text of any kind: a string literal, or an identifier in one of three quotes. -/
def span : Pattern := oneOf (doubled '\'') [doubled '"', plain '\x60' '\x60', plain '[' ']']

/-- The characters that open quoted text. -/
def openers : List Char := ['\'', '"', '\x60', '[']

/-- Whether a text starts like quoted text. -/
def startsQuoted (s : List Char) : Bool := s.head?.any openers.contains

end Quoted

end BoundSql
