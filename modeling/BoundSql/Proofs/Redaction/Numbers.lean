import BoundSql.Proofs.Pattern.Segmented
import BoundSql.Proofs.Text.Classes
import BoundSql.Redaction

/-!
# Redacted numbers

Card and social security numbers are digits, each with one space or hyphen before it at most, that
stand as a word of their own. All that is told of their redaction follows from that
(`NumberPattern`). A replacement masks numbers (`Masks`) if words end around its matches, and what
takes their place neither holds a digit nor starts with a character of a number. It leaves no number
that was not there before (`not_occursIn_replaceAll`).
-/

namespace BoundSql

open Text

namespace Redaction

open Pattern

variable {p q : Pattern} {c d : Cursor} {s t : List Char} {x : Char} {n : Nat}
  {f : List Char → List Char}

/-! ## Numbers -/

/-- Digits, each with one space or hyphen before it at most. -/
inductive Grouped : List Char → Prop
  | nil : Grouped []
  | digit {x : Char} {s : List Char} (digit : isDecimalDigit x = true) (rest : Grouped s) :
      Grouped (x :: s)
  | separated {x y : Char} {s : List Char} (separator : x ∈ [' ', '-'])
      (digit : isDecimalDigit y = true) (rest : Grouped s) : Grouped (x :: y :: s)

/-- A digit and more of them, grouped. -/
def Number (s : List Char) : Prop := ∃ x t, s = x :: t ∧ isDecimalDigit x = true ∧ Grouped t

/-- The characters of numbers. -/
def numberPart : CharClass := .either .digit (.among [' ', '-'])

namespace Grouped

theorem append (hs : Grouped s) (ht : Grouped t) : Grouped (s ++ t) := by
  induction hs with
  | nil => exact ht
  | digit digit _ ih => exact .digit digit ih
  | separated separator digit _ ih => exact .separated separator digit ih

theorem forall_mem (h : Grouped s) : ∀ x ∈ s, numberPart.has x = true := by
  have part {x : Char} (digit : isDecimalDigit x = true) : numberPart.has x = true :=
    Bool.or_eq_true_iff.mpr (.inl digit)
  induction h with
  | nil => exact fun x hx => absurd hx List.not_mem_nil
  | digit digit _ ih => exact List.forall_mem_cons.mpr ⟨part digit, ih⟩
  | separated separator digit _ ih =>
    have between : numberPart.has _ = true :=
      Bool.or_eq_true_iff.mpr (.inr (List.contains_iff_mem.mpr separator))
    exact List.forall_mem_cons.mpr ⟨between, List.forall_mem_cons.mpr ⟨part digit, ih⟩⟩

/-- The last character is a digit. -/
theorem getLast? (h : Grouped s) : ∀ x ∈ s.getLast?, isDecimalDigit x = true := by
  have last {y : Char} {s : List Char} (digit : isDecimalDigit y = true)
      (ih : ∀ x ∈ s.getLast?, isDecimalDigit x = true) :
      ∀ x ∈ (y :: s).getLast?, isDecimalDigit x = true := by
    intro x hx
    cases s with
    | nil => exact Option.some.inj hx ▸ digit
    | cons z s => exact ih x hx
  induction h with
  | nil => exact fun x hx => nomatch hx
  | digit digit _ ih => exact last digit ih
  | separated _ digit _ ih =>
    intro x hx
    rw [List.getLast?_cons_cons] at hx
    exact last digit ih x hx

/-- Behind a space or hyphen stands a digit. -/
theorem digit_of_append (h : Grouped (s ++ x :: t)) (hx : isDecimalDigit x = false) :
    ∃ y ∈ t.head?, isDecimalDigit y = true := by
  generalize hu : s ++ x :: t = u at h
  induction h generalizing s with
  | nil => cases s <;> cases hu
  | digit digit _ ih =>
    cases s with
    | nil =>
      obtain ⟨rfl, -⟩ := List.cons.inj hu
      exact absurd digit (Bool.eq_false_iff.mp hx)
    | cons z s => exact ih (List.cons.inj hu).2
  | @separated w y _ separator digit _ ih =>
    cases s with
    | nil =>
      obtain ⟨-, rfl⟩ := List.cons.inj hu
      exact ⟨y, rfl, digit⟩
    | cons z s =>
      cases s with
      | nil =>
        obtain ⟨rfl, -⟩ := List.cons.inj (List.cons.inj hu).2
        exact absurd digit (Bool.eq_false_iff.mp hx)
      | cons z' s => exact ih (List.cons.inj (List.cons.inj hu).2).2

end Grouped

namespace Number

theorem grouped (h : Number s) : Grouped s := by
  obtain ⟨x, t, rfl, digit, rest⟩ := h
  exact .digit digit rest

theorem append (hs : Number s) (ht : Grouped t) : Number (s ++ t) := by
  obtain ⟨x, s, rfl, digit, rest⟩ := hs
  exact ⟨x, s ++ t, rfl, digit, rest.append ht⟩

theorem separated (hx : x ∈ [' ', '-']) (h : Number s) : Grouped (x :: s) := by
  obtain ⟨y, t, rfl, digit, rest⟩ := h
  exact .separated hx digit rest

theorem head? (h : Number s) : ∃ x ∈ s.head?, isDecimalDigit x = true := by
  obtain ⟨x, t, rfl, digit, -⟩ := h
  exact ⟨x, rfl, digit⟩

theorem getLast? (h : Number s) : ∃ x ∈ s.getLast?, isDecimalDigit x = true := by
  obtain ⟨x, last⟩ : ∃ x, s.getLast? = some x := by
    obtain ⟨y, t, rfl, -⟩ := h
    exact ⟨_, List.getLast?_eq_some_getLast (List.cons_ne_nil y t)⟩
  exact ⟨x, last, h.grouped.getLast? x last⟩

end Number

/-! ## Patterns for numbers -/

theorem grouped_of_spells_times (hp : ∀ s, p.Spells s → Grouped s) (n : Nat)
    (h : (times n p).Spells s) : Grouped s := by
  induction n generalizing s with
  | zero => exact h ▸ .nil
  | succ n ih =>
    obtain ⟨a, b, ha, hb, rfl⟩ := h
    exact (hp a ha).append (ih hb)

theorem grouped_of_spells_upTo (hp : ∀ s, p.Spells s → Grouped s) (n : Nat)
    (h : (upTo n p).Spells s) : Grouped s := by
  induction n generalizing s with
  | zero => exact h ▸ .nil
  | succ n ih =>
    rcases h with ⟨a, b, ha, hb, rfl⟩ | rfl
    · exact (hp a ha).append (ih hb)
    · exact .nil

theorem grouped_of_spells_digit (h : (one .digit).Spells s) : Grouped s := by
  obtain ⟨x, hx, rfl⟩ := h
  exact .digit hx .nil

theorem grouped_of_spells_groupedDigit (h : groupedDigit.Spells s) : Grouped s := by
  obtain ⟨a, b, separator, ⟨y, hy, rfl⟩, rfl⟩ := h
  rcases separator with ⟨x, hx, rfl⟩ | rfl
  · exact .separated (List.contains_iff_mem.mp hx) hy .nil
  · exact .digit hy .nil

theorem number_of_spells_times (h : (times (n + 1) (one .digit)).Spells s) : Number s := by
  obtain ⟨a, b, ⟨x, hx, rfl⟩, hb, rfl⟩ := h
  exact ⟨x, b, rfl, hx, grouped_of_spells_times (fun _ => grouped_of_spells_digit) n hb⟩

/-- A pattern for numbers that stand as words of their own, wherever they do. -/
structure NumberPattern (p : Pattern) : Prop where
  simple : p.loopless = true
  number : ∀ s, p.Spells s → Number s
  avoids : ∀ x, numberPart.has x = false → p.Avoids x
  bare : ∀ c, ∀ d ∈ p.ends c, Bare c.prev ∧ Bare d.rest.head?
  found : ∀ s, p.Spells s → ∀ pos prev t, Bare prev → Bare t.head? →
    p.ends ⟨pos, prev, s ++ t⟩ ≠ []

/-- **What spells numbers and asks nothing about the place gives a pattern for numbers.** -/
theorem numberPattern_standing (ps : List Pattern) (simple : (standing ps).loopless = true)
    (placeless : (cat ps).placeless = true) (number : ∀ s, (cat ps).Spells s → Number s)
    (avoids : ∀ x, numberPart.has x = false → (standing ps).Avoids x) :
    NumberPattern (standing ps) := by
  have wordy : (cat ps).Wordy := fun s spells =>
    ⟨(number s spells).head?.imp fun x h => ⟨h.1, isWordChar_of_isDecimalDigit h.2⟩,
      (number s spells).getLast?.imp fun x h => ⟨h.1, isWordChar_of_isDecimalDigit h.2⟩⟩
  refine ⟨simple, fun s spells => number s (spells_standing.mp spells), avoids, ?_, ?_⟩
  · intro c d hd
    obtain ⟨s, -, -, bare⟩ :=
      spells_of_mem_ends_wholeWord wordy (ends_standing ps c ▸ hd)
    exact bare
  · intro s spells pos prev t before behind
    rw [ends_standing]
    exact List.ne_nil_of_mem (mem_ends_wholeWord_of_spells placeless wordy
      (spells_standing.mp spells) pos before behind)

theorem avoids_of_classes (h : p.classes ⊆ [.digit, .among [' ', '-'], .only '-'])
    (hx : numberPart.has x = false) : p.Avoids x := by
  obtain ⟨digit, separator⟩ := Bool.or_eq_false_iff.mp hx
  intro k hk
  have := h hk
  simp only [List.mem_cons, List.not_mem_nil, or_false] at this
  rcases this with rfl | rfl | rfl
  · exact digit
  · exact separator
  · simp_all

theorem numberPattern_card : NumberPattern card := by
  refine numberPattern_standing [one .digit, times 12 groupedDigit, upTo 6 groupedDigit]
    rfl rfl ?_ fun x => avoids_of_classes (by decide)
  rintro s ⟨_, _, ⟨x, hx, rfl⟩, ⟨a, b, ha, hb, rfl⟩, rfl⟩
  have groups : Grouped (a ++ b) :=
    (grouped_of_spells_times (fun _ => grouped_of_spells_groupedDigit) 12 ha).append
      (grouped_of_spells_upTo (fun _ => grouped_of_spells_groupedDigit) 6 hb)
  exact ⟨x, a ++ b, rfl, hx, groups⟩

theorem numberPattern_ssn : NumberPattern ssn := by
  refine numberPattern_standing [times 3 (one .digit), char '-', times 2 (one .digit),
    char '-', times 4 (one .digit)] rfl rfl ?_ fun x => avoids_of_classes (by decide)
  have hyphen {s : List Char} (h : (char '-').Spells s) : s = ['-'] := by
    obtain ⟨x, hx, rfl⟩ := h
    rw [CharClass.has_only, beq_iff_eq] at hx
    rw [hx]
  rintro s ⟨a, _, ha, ⟨_, _, first, ⟨b, _, hb, ⟨_, c, second, hc, rfl⟩, rfl⟩, rfl⟩, rfl⟩
  rw [hyphen first, hyphen second]
  have inner : Grouped ('-' :: b ++ ('-' :: c)) :=
    (Number.separated (by decide) (number_of_spells_times hb)).append
      (Number.separated (by decide) (number_of_spells_times hc))
  exact (number_of_spells_times ha).append inner

/-! ## Marks in place of matches -/

/-- Words end around the matches of the pattern, and what takes their place neither holds a digit
nor starts with a character of a number. -/
structure Masks (p : Pattern) (f : List Char → List Char) : Prop where
  full : ¬ p.Spells []
  bare : ∀ c d, (p.ends c).head? = some d → Bare c.prev ∧ Bare d.rest.head?
  head : ∀ s, p.Spells s → ∃ x ∈ (f s).head?, numberPart.has x = false
  digitless : ∀ s, p.Spells s → ∀ x ∈ f s, isDecimalDigit x = false

theorem NumberPattern.full (hp : NumberPattern p) : ¬ p.Spells [] := by
  intro spells
  obtain ⟨x, t, split, -⟩ := hp.number [] spells
  cases split

theorem NumberPattern.masks (hp : NumberPattern p) {mark : List Char}
    (head : ∃ x ∈ mark.head?, numberPart.has x = false)
    (digitless : ∀ x ∈ mark, isDecimalDigit x = false) : Masks p fun _ => mark where
  full := hp.full
  bare c d h := hp.bare c d (List.mem_of_head? h)
  head _ _ := head
  digitless _ _ := digitless

theorem masks_card : Masks card fun _ => cardMark.toList :=
  numberPattern_card.masks ⟨'[', rfl, by decide⟩ (forall_mem_of_all (by decide))

theorem masks_ssn : Masks ssn fun _ => ssnMark.toList :=
  numberPattern_ssn.masks ⟨'[', rfl, by decide⟩ (forall_mem_of_all (by decide))

section

variable {segs segs' : List Segment}

/-- Words end around a match. -/
theorem Masks.bare_of_hit (hp : Masks p f) (h : p.Segmented c (segs ++ .hit s :: segs')) :
    Bare ((segs.flatMap Segment.text).getLast?.or c.prev) ∧
      Bare (segs'.flatMap Segment.text).head? := by
  obtain ⟨-, t, split, first, -⟩ := h.drop.of_hit_cons
  obtain ⟨before, behind⟩ := hp.bare _ _ first
  rw [List.flatMap_cons, Segment.text] at split
  rw [List.append_cancel_left split]
  exact ⟨before, behind⟩

/-- In front of a word character a text ends as it did before the replacement, as to words. -/
theorem Masks.bare_getLast? (hp : Masks p f) (h : p.Segmented c (segs ++ .plain x :: segs'))
    (word : isWordChar x = true) (bare : Bare (segs.flatMap (·.rewritten f)).getLast?) :
    Bare (segs.flatMap Segment.text).getLast? := by
  rcases List.eq_nil_or_concat' segs with rfl | ⟨segs, seg, rfl⟩
  · exact bare
  · cases seg with
    | plain y => simpa [Segment.text, Segment.rewritten] using bare
    | hit s =>
      rw [List.append_assoc, List.singleton_append] at h
      have nonword : isWordChar x = false := (hp.bare_of_hit h).2 x rfl
      exact absurd word (Bool.eq_false_iff.mp nonword)

/-- Behind a word character a text starts as it did before the replacement, as to words. -/
theorem Masks.bare_head? (hp : Masks p f) (h : p.Segmented c (segs ++ segs'))
    (hx : x ∈ (segs.flatMap Segment.text).getLast?) (word : isWordChar x = true)
    (bare : Bare (segs'.flatMap (·.rewritten f)).head?) :
    Bare (segs'.flatMap Segment.text).head? := by
  cases segs' with
  | nil => exact bare
  | cons seg segs' =>
    cases seg with
    | plain y => exact bare
    | hit s =>
      have nonword : isWordChar x = false := (hp.bare_of_hit h).1 x (by rw [hx]; rfl)
      exact absurd word (Bool.eq_false_iff.mp nonword)

/-- **A number among replaced matches is one of the text**, with the same segments around it. -/
theorem Masks.exists_number (hp : Masks p f) (h : p.Segmented c segs) {a b : List Char}
    (number : Number s) (split : segs.flatMap (·.rewritten f) = a ++ (s ++ b))
    (before : Bare a.getLast?) (behind : Bare b.head?) :
    ∃ sa sb, segs = sa ++ (s.map .plain ++ sb) ∧ Bare (sa.flatMap Segment.text).getLast? ∧
      Bare (sb.flatMap Segment.text).head? := by
  obtain ⟨z, hz, digitz⟩ := number.getLast?
  obtain ⟨x, t, rfl, digit, grouped⟩ := number
  -- The first digit is no part of what replaces a match, and none of those starts behind it.
  obtain ⟨sa, sb, rfl, rfl, split'⟩ := exists_plain_of_rewritten
    (fun s hs hx => absurd digit (Bool.eq_false_iff.mp (hp.digitless s (h.spells_of_mem hs) x hx)))
    split
  obtain ⟨sb, rfl, rfl⟩ : ∃ behind, sb = t.map .plain ++ behind ∧
      behind.flatMap (·.rewritten f) = b := by
    rcases plain_or_hit_of_rewritten split' with ends | ⟨u, v, s, segs, rfl, hv, rfl, mark⟩
    · exact ends
    · obtain ⟨y, hy, other⟩ := hp.head s (h.spells_of_mem (by simp))
      obtain ⟨w, v, rfl⟩ := List.exists_cons_of_ne_nil hv
      have same : w = y := by
        have := congrArg List.head? mark
        rw [List.head?_append, hy] at this
        exact (Option.some.inj this).symm
      have part : numberPart.has w = true :=
        grouped.forall_mem w (List.mem_append_right u List.mem_cons_self)
      rw [same, other] at part
      cases part
  refine ⟨sa, sb, rfl, hp.bare_getLast? h (isWordChar_of_isDecimalDigit digit) before, ?_⟩
  rw [← List.cons_append, ← List.append_assoc] at h
  refine hp.bare_head? h ?_ (isWordChar_of_isDecimalDigit digitz) behind
  rw [← List.map_cons, List.flatMap_append, spell_map_plain, List.getLast?_append, hz]
  rfl

end

/-- **Where matches are masked, no number occurs that did not occur before**; and where numbers are
masked, none occurs. -/
theorem not_occursIn_replaceAll {text : List Char} (hq : NumberPattern q) (hp : Masks p f)
    (none : q = p ∨ q.occursIn text = false) : q.occursIn (p.replaceAll f text) = false := by
  rw [Bool.eq_false_iff]
  intro occurs
  obtain ⟨a, c, d, split, prev, hd⟩ := exists_mem_ends_of_occursIn occurs
  obtain ⟨before, behind⟩ := hq.bare c d hd
  obtain ⟨s, spells, rest, -⟩ := exists_spells_of_mem_ends hd
  rw [rest] at split
  have segmented := segmented_segments hp.full text
  obtain ⟨sa, sb, segs, before, behind⟩ :=
    hp.exists_number segmented (hq.number s spells) split (prev ▸ before) behind
  -- The number stands in the text as well, and outside of matches.
  have here : q.ends ⟨(sa.flatMap Segment.text).length, (sa.flatMap Segment.text).getLast?,
      s ++ sb.flatMap Segment.text⟩ ≠ [] := hq.found s spells _ _ _ before behind
  have text_eq : text = sa.flatMap Segment.text ++ (s ++ sb.flatMap Segment.text) := by
    rw [← spell_segments p text, segs, List.flatMap_append, List.flatMap_append, spell_map_plain]
  rcases none with rfl | none
  · obtain ⟨x, t, rfl, -⟩ := hq.number s spells
    rw [segs] at segmented
    obtain ⟨nowhere, -⟩ := segmented.drop.of_plain_cons
    rw [Cursor.start, Nat.zero_add, Option.or_none, List.flatMap_append, spell_map_plain] at nowhere
    exact here nowhere
  · rw [text_eq, occursIn_of_mem_ends here] at none
    cases none

end Redaction

end BoundSql
