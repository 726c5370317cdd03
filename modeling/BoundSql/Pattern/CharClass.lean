import BoundSql.Text.Case
import BoundSql.Text.DecimalDigit
import BoundSql.Text.WhiteSpace
import BoundSql.Text.WordChar

/-!
# Character classes

A class is a description of a set of characters; `has` decides membership. Classes that ignore
case are written over small ASCII letters under `folded`, so a folded class also holds the two
letters beyond ASCII that fold onto an ASCII letter.
-/

namespace BoundSql

/-- A set of characters, as patterns name it. -/
inductive CharClass
  /-- The listed characters. -/
  | among (cs : List Char)
  /-- The characters from `first` to `last`. -/
  | between (first last : Char)
  /-- White space. -/
  | space
  /-- Decimal digits of any script. -/
  | digit
  /-- Word characters. -/
  | word
  /-- The characters whose case folding is in the class. -/
  | folded (k : CharClass)
  /-- The characters of either class. -/
  | either (a b : CharClass)
  /-- The characters outside the class. -/
  | except (k : CharClass)
  deriving DecidableEq, Repr

namespace CharClass

/-- Membership in a class. -/
def has : CharClass → Char → Bool
  | among cs, c => cs.contains c
  | between first last, c => decide (first ≤ c) && decide (c ≤ last)
  | space, c => Text.isWhiteSpace c
  | digit, c => Text.isDecimalDigit c
  | word, c => Text.isWordChar c
  | folded k, c => k.has (Text.caseFold c)
  | either a b, c => a.has c || b.has c
  | except k, c => !k.has c

/-- One character. -/
def only (c : Char) : CharClass := among [c]

/-- A letter in any case; `c` is given small. -/
def letter (c : Char) : CharClass := folded (only c)

/-- Every character but the newline. -/
def inLine : CharClass := except (only '\n')

/-- The ASCII letters. -/
def asciiLetter : CharClass := either (between 'A' 'Z') (between 'a' 'z')

/-- The ASCII letters and the underscore. -/
def identifierStart : CharClass := either asciiLetter (only '_')

/-- The ASCII letters, the ASCII digits and the underscore. -/
def identifierPart : CharClass := either identifierStart (between '0' '9')

/-! ## Membership, class by class -/

@[simp] theorem has_among (cs : List Char) (c : Char) : (among cs).has c = cs.contains c := rfl

@[simp] theorem has_only (d c : Char) : (only d).has c = (c == d) := by
  simp only [only, has_among, List.contains_cons, List.contains_nil, Bool.or_false]

@[simp] theorem has_except (k : CharClass) (c : Char) : (except k).has c = !k.has c := rfl

@[simp] theorem has_either (a b : CharClass) (c : Char) :
    (either a b).has c = (a.has c || b.has c) := rfl

@[simp] theorem has_folded (k : CharClass) (c : Char) :
    (folded k).has c = k.has (Text.caseFold c) := rfl

theorem has_letter (d c : Char) : (letter d).has c = (Text.caseFold c == d) := by
  simp [letter]

end CharClass

end BoundSql
