import BoundSql.Dialect.Quoting
import BoundSql.Value

/-!
# Placeholders

A placeholder is a token that stands for a bound value. Positions count from one and follow the
order of binding, so the tokens of a statement and its parameters line up. `tokens` finds the
placeholders of a text again, passing over quoted text.
-/

namespace BoundSql

namespace PlaceholderStyle

open Pattern

/-- The token of a position. -/
def token : PlaceholderStyle → Nat → String
  | numbered, position => "$" ++ toString position
  | questionMark, _ => "?"
  | atNamed, position => "@param" ++ toString position
  | colonNamed, position => ":param" ++ toString position

/-- The pattern of the tokens of a style. -/
def tokenPattern : PlaceholderStyle → Pattern
  | numbered => seq (char '$') (run .digit)
  | questionMark => char '?'
  | atNamed => cat [literal "@param", run .digit, boundary]
  | colonNamed => cat [literal ":param", run .digit, boundary]

/-- Quoted text, or a token. Quoted text comes first, so that what looks like a token inside of it
is passed over. -/
def scanner (style : PlaceholderStyle) : Pattern := alt Quoted.span style.tokenPattern

/-- The placeholder tokens of a text outside of quoted text, from left to right. -/
def tokens (style : PlaceholderStyle) (sql : String) : List String :=
  ((style.scanner.matchesIn sql.toList).filter (!Quoted.startsQuoted ·)).map String.ofList

end PlaceholderStyle

/-- The values bound so far in one statement. -/
structure Placeholders where
  style : PlaceholderStyle
  parameters : List Value := []
  deriving Repr

namespace Placeholders

/-- Binds a value: its token, and the placeholders with the value as the last one. -/
def bind (p : Placeholders) (v : Value) : String × Placeholders :=
  (p.style.token (p.parameters.length + 1), { p with parameters := p.parameters ++ [v] })

/-- The number of bound values. -/
def size (p : Placeholders) : Nat := p.parameters.length

/-- Whether no value is bound. -/
def isEmpty (p : Placeholders) : Bool := p.parameters.isEmpty

@[simp] theorem parameters_bind (p : Placeholders) (v : Value) :
    (p.bind v).2.parameters = p.parameters ++ [v] := rfl

end Placeholders

end BoundSql
