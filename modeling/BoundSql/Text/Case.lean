/-!
# Letter case

Keywords are compared after the ASCII letters are brought to one case. Patterns that ignore case
compare letters after simple case folding, which maps two letters beyond ASCII onto ASCII ones: the
long s and the Kelvin sign.
-/

namespace BoundSql.Text

/-- The text with its ASCII letters in upper case. -/
def asciiUpper (s : List Char) : List Char := s.map Char.toUpper

/-- The text with its ASCII letters in lower case. -/
def asciiLower (s : List Char) : List Char := s.map Char.toLower

/-- Simple case folding as far as it reaches ASCII: ASCII letters become small, the long s is an
`s` and the Kelvin sign a `k`. -/
def caseFold (c : Char) : Char :=
  if c = '\u017f' then 's' else if c = '\u212a' then 'k' else c.toLower

/-- A run of capitalised words as small words with an underscore between two of them. -/
def snakeCase : List Char → List Char
  | [] => []
  | c :: rest =>
    c.toLower :: rest.flatMap fun x => if x.isUpper then ['_', x.toLower] else [x.toLower]

/-- Two texts are the same but for the case of their ASCII letters. -/
def SameButCase (s t : List Char) : Prop := asciiLower s = asciiLower t

instance (s t : List Char) : Decidable (SameButCase s t) :=
  inferInstanceAs (Decidable (asciiLower s = asciiLower t))

end BoundSql.Text
