import BoundSql.Pattern.Basic

/-!
# Where a pattern can end

A `Cursor` is a place in a text. `Pattern.ends p c` lists the places where a match of `p` that
starts at `c` can end, in the order in which they are preferred; the first one is the match that is
found. A repetition of a whole pattern visits each place once, so the list of ends never grows
beyond the places of the text.
-/

namespace BoundSql

/-- A place in a text: how many characters lie before it, the last of them, and what follows. -/
structure Cursor where
  pos : Nat
  prev : Option Char
  rest : List Char
  deriving DecidableEq, Repr

namespace Cursor

/-- The place before the whole text. -/
def start (text : List Char) : Cursor := ⟨0, none, text⟩

/-- The places from the given one to the end of the text. -/
def onwards : Nat → Option Char → List Char → List Cursor
  | pos, prev, [] => [⟨pos, prev, []⟩]
  | pos, prev, c :: rest => ⟨pos, prev, c :: rest⟩ :: onwards (pos + 1) (some c) rest

/-- All places of a text, in order. -/
def places (text : List Char) : List Cursor := onwards 0 none text

/-- The places reached over characters of the class, the nearest first. -/
def along (k : CharClass) : Nat → Option Char → List Char → List Cursor
  | pos, prev, [] => [⟨pos, prev, []⟩]
  | pos, prev, c :: rest =>
    ⟨pos, prev, c :: rest⟩ :: if k.has c then along k (pos + 1) (some c) rest else []

/-- The places after one character of the class. -/
def step (k : CharClass) : Cursor → List Cursor
  | ⟨_, _, []⟩ => []
  | ⟨pos, _, c :: rest⟩ => if k.has c then [⟨pos + 1, some c, rest⟩] else []

/-- Whether exactly one side of the place is a word character. -/
def atBoundary (c : Cursor) : Bool :=
  c.prev.any Text.isWordChar != c.rest.head?.any Text.isWordChar

end Cursor

namespace Pattern

/-- The places visited so far, the last one first, and a number whose binary digits mark their
positions. -/
structure Visited where
  marks : Nat := 0
  places : List Cursor := []

/-- Visits a place and those that repeated steps lead to from it, unless it was visited before. A
place comes after those its steps lead to. -/
def visit (next : Cursor → List Cursor) : Nat → Visited → Cursor → Visited
  | 0, seen, _ => seen
  | fuel + 1, seen, c =>
    if seen.marks.testBit c.pos then seen
    else
      let inner := (next c).foldl (visit next fuel) seen
      { marks := inner.marks ||| 1 <<< c.pos, places := c :: inner.places }

/-- The places that one or more steps lead to, the most steps first. A step that stays in place is
none; the others go on to later places, so the text that is left bounds their number. -/
def repeated (next : Cursor → List Cursor) (c : Cursor) : List Cursor :=
  let onwards := fun d => (next d).filter (d.pos < ·.pos)
  ((onwards c).foldl (visit onwards c.rest.length) {}).places.reverse

/-- The places where a match that starts at the given place can end, in order of preference. -/
def ends : Pattern → Cursor → List Cursor
  | empty, c => [c]
  | one k, c => c.step k
  | many k, c => (Cursor.along k c.pos c.prev c.rest).reverse
  | few k, c => Cursor.along k c.pos c.prev c.rest
  | start, c => if c.prev.isNone then [c] else []
  | stop, c => if c.rest.isEmpty then [c] else []
  | boundary, c => if c.atBoundary then [c] else []
  | seq p q, c => (p.ends c).flatMap q.ends
  | alt p q, c => p.ends c ++ q.ends c
  | opt p, c => p.ends c ++ [c]
  | plus p, c => repeated p.ends c

end Pattern

end BoundSql
