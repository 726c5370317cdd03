import BoundSql.Pattern.CharClass

/-!
# Patterns

Patterns describe texts by the ordered choices a reader has: an alternative is tried before the
next one, a greedy repetition tries its longest run first. The order decides which match is found
when several start at the same place.

Besides the constructors this module holds the usual shorthands: concatenation of a list (`cat`),
choice among a list (`oneOf`), repetition (`star`, `times`, `upTo`), and literal text with
case (`literal`) and without (`keyword`).
-/

namespace BoundSql

/-- A pattern over texts. -/
inductive Pattern
  /-- The empty text. -/
  | empty
  /-- One character of the class. -/
  | one (k : CharClass)
  /-- Any number of characters of the class, as many as possible first. -/
  | many (k : CharClass)
  /-- Any number of characters of the class, as few as possible first. -/
  | few (k : CharClass)
  /-- The start of the text. -/
  | start
  /-- The end of the text. -/
  | stop
  /-- A place between a word character and something else. -/
  | boundary
  /-- The first pattern, then the second. -/
  | seq (p q : Pattern)
  /-- The first pattern, or else the second. -/
  | alt (p q : Pattern)
  /-- The pattern, or else nothing. -/
  | opt (p : Pattern)
  /-- The pattern once or more often, as often as possible first. Each time it takes at least one
  character. -/
  | plus (p : Pattern)
  deriving DecidableEq, Repr

namespace Pattern

/-- The patterns of the list one after the other. -/
def cat : List Pattern → Pattern
  | [] => empty
  | [p] => p
  | p :: ps => seq p (cat ps)

/-- The patterns of the list, the earlier ones first. -/
def oneOf (p : Pattern) : List Pattern → Pattern
  | [] => p
  | q :: qs => alt p (oneOf q qs)

/-- One or more characters of the class, as many as possible first. -/
def run (k : CharClass) : Pattern := seq (one k) (many k)

/-- The pattern any number of times, as often as possible first. -/
def star (p : Pattern) : Pattern := opt (plus p)

/-- The pattern `n` times. -/
def times : Nat → Pattern → Pattern
  | 0, _ => empty
  | n + 1, p => seq p (times n p)

/-- The pattern at most `n` times, as often as possible first. -/
def upTo : Nat → Pattern → Pattern
  | 0, _ => empty
  | n + 1, p => opt (seq p (upTo n p))

/-- The character itself. -/
def char (c : Char) : Pattern := one (.only c)

/-- The text itself. -/
def literal (s : String) : Pattern := cat (s.toList.map char)

/-- A word given in small letters, in any case. -/
def keyword (s : String) : Pattern := cat (s.toList.map fun c => one (.letter c))

/-- One of several words given in small letters, in any case. -/
def keywords : List String → Pattern
  | [] => empty
  | w :: ws => oneOf (keyword w) (ws.map keyword)

/-- White space or nothing. -/
def blank : Pattern := many .space

/-- At least one white-space character. -/
def gap : Pattern := run .space

/-- A whole word in any case. -/
def wholeWord (p : Pattern) : Pattern := cat [boundary, p, boundary]

end Pattern

end BoundSql
