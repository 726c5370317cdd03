import BoundSql.Pattern.Match

/-!
# Searching a text

A search goes through the places of a text from left to right and takes, at the first place where
the pattern matches, the preferred match. Going on behind each match cuts the text into `Segment`s:
matches, and single characters outside of every match. Replacing and listing matches are read off
the segments, and the segments always spell the text again (`spell_segments`).
-/

namespace BoundSql

/-- A piece of a searched text. -/
inductive Segment
  /-- A character outside of every match. -/
  | plain (c : Char)
  /-- A match. -/
  | hit (s : List Char)
  deriving DecidableEq, Repr

namespace Segment

/-- The text of a segment. -/
def text : Segment → List Char
  | plain c => [c]
  | hit s => s

/-- The match, if the segment is one. -/
def hit? : Segment → Option (List Char)
  | plain _ => none
  | hit s => some s

/-- The text of a segment, a match being replaced by what `f` makes of it. -/
def rewritten (f : List Char → List Char) : Segment → List Char
  | plain c => [c]
  | hit s => f s

end Segment

namespace Pattern

/-- Whether the pattern matches somewhere in the text. -/
def occursIn (p : Pattern) (text : List Char) : Bool :=
  (Cursor.places text).any fun c => !(p.ends c).isEmpty

/-- The text behind the first match. -/
def tailAfter? (p : Pattern) (text : List Char) : Option (List Char) :=
  (Cursor.places text).findSome? fun c => (p.ends c).head?.map (·.rest)

/-- The number of characters of the preferred match at a place. -/
def matchLength? (p : Pattern) (c : Cursor) : Option Nat :=
  (p.ends c).head?.map (·.pos - c.pos)

/-- The segments of the text from a place on, of which the first `skip` characters belong to a
match already taken. Empty matches are passed over. -/
def segmentsFrom (p : Pattern) : Nat → Option Char → Nat → List Char → List Segment
  | _, _, _, [] => []
  | pos, _, skip + 1, c :: rest => segmentsFrom p (pos + 1) (some c) skip rest
  | pos, prev, 0, c :: rest =>
    match p.matchLength? ⟨pos, prev, c :: rest⟩ with
    | some (n + 1) => .hit ((c :: rest).take (n + 1)) :: segmentsFrom p (pos + 1) (some c) n rest
    | _ => .plain c :: segmentsFrom p (pos + 1) (some c) 0 rest

/-- The segments of a text: its matches, taken from left to right without overlap, and the
characters between them. -/
def segments (p : Pattern) (text : List Char) : List Segment := p.segmentsFrom 0 none 0 text

/-- The matches of a text, from left to right without overlap. -/
def matchesIn (p : Pattern) (text : List Char) : List (List Char) :=
  (p.segments text).filterMap Segment.hit?

/-- The text with every match replaced by what `f` makes of it. -/
def replaceAll (p : Pattern) (f : List Char → List Char) (text : List Char) : List Char :=
  (p.segments text).flatMap (·.rewritten f)

/-! ## Lemmas -/

theorem spell_segmentsFrom (p : Pattern) (pos : Nat) (prev : Option Char) (skip : Nat)
    (text : List Char) :
    (p.segmentsFrom pos prev skip text).flatMap Segment.text = text.drop skip := by
  induction text generalizing pos prev skip with
  | nil => simp [segmentsFrom]
  | cons c rest ih =>
    cases skip with
    | succ skip => simp [segmentsFrom, ih]
    | zero =>
      simp only [segmentsFrom]
      split <;> simp [Segment.text, ih]

/-- **The segments spell the text.** -/
theorem spell_segments (p : Pattern) (text : List Char) :
    (p.segments text).flatMap Segment.text = text := by
  simp [segments, spell_segmentsFrom]

end Pattern

end BoundSql
