import BoundSql.Proofs.Pattern.Relabelled

/-!
# Characters that a pattern does not tell apart

A pattern is *blind* to a change of characters if none of its classes, nor the class of word
characters, tells a character from what it is changed into. Such a pattern has the same matches in a
text and in the changed text, in the same order (`ends_changed`); so it occurs in both or in neither
(`occursIn_map`), what is behind its first match is changed like the text (`tailAfter?_map`), and
so is what a replacement leaves (`replaceAll_map`).
-/

namespace BoundSql

/-- The place in a text whose characters are changed. -/
def Cursor.changed (f : Char → Char) (c : Cursor) : Cursor := ⟨c.pos, c.prev.map f, c.rest.map f⟩

/-- The segment of a text whose characters are changed. -/
def Segment.changed (f : Char → Char) : Segment → Segment
  | plain c => plain (f c)
  | hit s => hit (s.map f)

namespace Pattern

open Text

/-- The pattern does not see the change. -/
structure Blind (f : Char → Char) (p : Pattern) : Prop where
  word : ∀ x, isWordChar (f x) = isWordChar x
  has : ∀ k ∈ p.classes, ∀ x, k.has (f x) = k.has x

variable {f : Char → Char} {p q : Pattern} {c : Cursor} {pos : Nat} {prev : Option Char}
  {text : List Char}

theorem Blind.mono (classes : q.classes ⊆ p.classes) (h : p.Blind f) : q.Blind f :=
  ⟨h.word, fun k hk => h.has k (classes hk)⟩

theorem along_changed {k : CharClass} (h : ∀ x, k.has (f x) = k.has x) (pos : Nat)
    (prev : Option Char) (rest : List Char) :
    Cursor.along k pos (prev.map f) (rest.map f) =
      (Cursor.along k pos prev rest).map (Cursor.changed f) := by
  induction rest generalizing pos prev with
  | nil => rfl
  | cons x rest ih =>
    rw [List.map_cons, Cursor.along, Cursor.along, List.map_cons, h, ← Option.map_some, ih,
      apply_ite (List.map _)]
    rfl

theorem atBoundary_changed (h : ∀ x, isWordChar (f x) = isWordChar x) (c : Cursor) :
    (c.changed f).atBoundary = c.atBoundary := by
  have same (o : Option Char) : (o.map f).any isWordChar = o.any isWordChar := by
    cases o with
    | none => rfl
    | some x => exact h x
  rw [Cursor.atBoundary, Cursor.atBoundary, Cursor.changed, List.head?_map, same, same]

/-! ## Matches -/

theorem relabels_changed (f : Char → Char) : Relabels (Cursor.changed f) id where
  length _ := List.length_map f
  later _ _ := Iff.rfl
  unmarked := rfl
  marked _ _ := rfl
  marking _ _ := rfl

/-- **A pattern has the same matches in a text and after a change it does not see.** -/
theorem ends_changed (h : p.Blind f) (c : Cursor) :
    p.ends (c.changed f) = (p.ends c).map (Cursor.changed f) := by
  induction p generalizing c with
  | empty => rfl
  | one k =>
    obtain ⟨pos, prev, rest⟩ := c
    cases rest with
    | nil => rfl
    | cons x rest =>
      rw [Cursor.changed, List.map_cons, ends_one_cons, ends_one_cons,
        h.has k List.mem_cons_self, apply_ite (List.map _)]
      rfl
  | many k =>
    rw [ends, ends, List.map_reverse]
    exact congrArg _ (along_changed (h.has k List.mem_cons_self) c.pos c.prev c.rest)
  | few k => exact along_changed (h.has k List.mem_cons_self) c.pos c.prev c.rest
  | start =>
    rw [ends, ends, apply_ite (List.map _), Cursor.changed, Option.isNone_map]
    rfl
  | stop =>
    rw [ends, ends, apply_ite (List.map _), Cursor.changed, List.isEmpty_map]
    rfl
  | boundary =>
    rw [ends, ends, apply_ite (List.map _), atBoundary_changed h.word]
    rfl
  | seq p q ihp ihq =>
    rw [ends, ends, ihp (h.mono (List.subset_append_left ..)), List.flatMap_map, List.map_flatMap]
    exact List.flatMap_congr fun d _ => ihq (h.mono (List.subset_append_right ..)) d
  | alt p q ihp ihq =>
    rw [ends, ends, List.map_append, ihp (h.mono (List.subset_append_left ..)),
      ihq (h.mono (List.subset_append_right ..))]
  | opt p ih =>
    rw [ends, ends, List.map_append, ih ⟨h.word, h.has⟩]
    rfl
  | plus p ih => exact repeated_relabelled (relabels_changed f) (ih ⟨h.word, h.has⟩) c

theorem onwards_changed (f : Char → Char) (pos : Nat) (prev : Option Char) (text : List Char) :
    Cursor.onwards pos (prev.map f) (text.map f) =
      (Cursor.onwards pos prev text).map (Cursor.changed f) := by
  induction text generalizing pos prev with
  | nil => rfl
  | cons x text ih =>
    rw [List.map_cons, Cursor.onwards, Cursor.onwards, List.map_cons, ← Option.map_some, ih]
    rfl

theorem places_map (f : Char → Char) (text : List Char) :
    Cursor.places (text.map f) = (Cursor.places text).map (Cursor.changed f) :=
  onwards_changed f 0 none text

/-- **A change that is not seen lets a pattern occur where it did.** -/
theorem occursIn_map (h : p.Blind f) (text : List Char) :
    p.occursIn (text.map f) = p.occursIn text := by
  rw [occursIn, occursIn, places_map, List.any_map]
  simp only [Function.comp_def, ends_changed h, List.isEmpty_map]

/-- What is behind the first match is changed like the text. -/
theorem tailAfter?_map (h : p.Blind f) (text : List Char) :
    p.tailAfter? (text.map f) = (p.tailAfter? text).map (List.map f) := by
  rw [tailAfter?, tailAfter?, places_map, List.findSome?_map, List.map_findSome?]
  congr 1
  funext c
  rw [Function.comp_apply, ends_changed h, List.head?_map, Option.map_map, Function.comp_apply,
    Option.map_map]
  rfl

/-! ## Replacement -/

theorem matchLength?_changed (h : p.Blind f) (c : Cursor) :
    p.matchLength? (c.changed f) = p.matchLength? c := by
  rw [matchLength?, matchLength?, ends_changed h, List.head?_map, Option.map_map]
  rfl

theorem segmentsFrom_changed (h : p.Blind f) (pos : Nat) (prev : Option Char) (skip : Nat)
    (text : List Char) :
    p.segmentsFrom pos (prev.map f) skip (text.map f) =
      (p.segmentsFrom pos prev skip text).map (Segment.changed f) := by
  induction text generalizing pos prev skip with
  | nil => rw [List.map_nil, segmentsFrom_nil, segmentsFrom_nil, List.map_nil]
  | cons x text ih =>
    rw [List.map_cons]
    cases skip with
    | succ skip => rw [segmentsFrom, segmentsFrom, ← Option.map_some, ih]
    | zero =>
      have same : p.matchLength? ⟨pos, prev.map f, f x :: text.map f⟩ =
          p.matchLength? ⟨pos, prev, x :: text⟩ :=
        matchLength?_changed h ⟨pos, prev, x :: text⟩
      rw [segmentsFrom, segmentsFrom, same, ← Option.map_some]
      split
      · rw [ih, ← List.map_cons, ← List.map_take, List.map_cons]
        rfl
      · rw [ih, List.map_cons]
        rfl

/-- **What a replacement leaves is changed like the text**, if what it puts in is. -/
theorem replaceAll_map {g : List Char → List Char} (h : p.Blind f)
    (hg : ∀ s, g (s.map f) = (g s).map f) (text : List Char) :
    p.replaceAll g (text.map f) = (p.replaceAll g text).map f := by
  have rewritten (seg : Segment) : (seg.changed f).rewritten g = (seg.rewritten g).map f := by
    cases seg with
    | plain x => rfl
    | hit s => exact hg s
  have cut : p.segments (text.map f) = (p.segments text).map (Segment.changed f) :=
    segmentsFrom_changed h 0 none 0 text
  rw [replaceAll, replaceAll, cut, List.flatMap_map, List.map_flatMap]
  exact List.flatMap_congr fun seg _ => rewritten seg

end Pattern

end BoundSql
