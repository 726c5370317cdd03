import BoundSql.Proofs.Pattern.Preferred
import BoundSql.Proofs.Pattern.Spelled
import BoundSql.Proofs.Text.Ascii
import BoundSql.Proofs.Text.WholeWords

/-!
# Where a pattern occurs

A pattern occurs in a text where one of its matches does, so the text is what lies before the match,
what the match spells, and the rest (`exists_mem_ends_of_occursIn`); and it occurs if it matches
anywhere (`occursIn_of_mem_ends`). A pattern that starts at the start and stops at the stop spells
the whole text (`spells_of_occursIn`). Two ways to see that a pattern does not occur come from this:
none of the characters it cannot do without is there (`not_occursIn_of_needs`), or none of the whole
words is the one it looks for (`exists_mem_wholeWords_of_occursIn`).
-/

namespace BoundSql

namespace Pattern

variable {p : Pattern} {c d : Cursor} {text : List Char}

/-! ## Places and matches -/

theorem reads_of_mem_onwards {pos : Nat} {prev : Option Char}
    (h : c ∈ Cursor.onwards pos prev text) : ∃ before, Reads ⟨pos, prev, text⟩ before c := by
  induction text generalizing pos prev with
  | nil =>
    rw [Cursor.onwards, List.mem_singleton] at h
    exact ⟨[], h ▸ .nil _⟩
  | cons x text ih =>
    rw [Cursor.onwards] at h
    rcases List.mem_cons.mp h with rfl | h
    · exact ⟨[], .nil _⟩
    · obtain ⟨before, reads⟩ := ih h
      exact ⟨x :: before, reads.cons⟩

theorem mem_onwards (before rest : List Char) (pos : Nat) (prev : Option Char) :
    (⟨pos + before.length, before.getLast?.or prev, rest⟩ : Cursor) ∈
      Cursor.onwards pos prev (before ++ rest) := by
  induction before generalizing pos prev with
  | nil =>
    cases rest with
    | nil => exact List.mem_singleton.mpr rfl
    | cons x rest => exact List.mem_cons_self
  | cons x before ih =>
    rw [← behind_cons pos prev]
    exact List.mem_cons_of_mem _ (ih (pos + 1) (some x))

/-- **A pattern that occurs has a match**: a place, and an end of a match from there. -/
theorem exists_mem_ends_of_occursIn (h : p.occursIn text = true) :
    ∃ before c d, text = before ++ c.rest ∧ c.prev = before.getLast? ∧ d ∈ p.ends c := by
  obtain ⟨c, place, found⟩ := List.any_eq_true.mp h
  obtain ⟨before, rest, prev⟩ := reads_of_mem_onwards place
  rw [Bool.not_eq_true', List.isEmpty_eq_false_iff_exists_mem] at found
  obtain ⟨d, hd⟩ := found
  exact ⟨before, c, d, rest, prev.trans Option.or_none, hd⟩

/-- **A pattern that matches at a place of a text occurs in it.** -/
theorem occursIn_of_mem_ends {before rest : List Char}
    (h : p.ends ⟨before.length, before.getLast?, rest⟩ ≠ []) :
    p.occursIn (before ++ rest) = true := by
  refine List.any_eq_true.mpr ⟨_, mem_onwards before rest 0 none, ?_⟩
  rw [Nat.zero_add, Option.or_none, Bool.not_eq_true', List.isEmpty_eq_false_iff]
  exact h

/-- What is spelled by a match lies in the text. -/
theorem exists_infix_of_occursIn (h : p.occursIn text = true) : ∃ s, p.Spells s ∧ s <:+: text := by
  obtain ⟨before, c, d, rfl, -, hd⟩ := exists_mem_ends_of_occursIn h
  obtain ⟨s, hs, rest, -⟩ := exists_spells_of_mem_ends hd
  exact ⟨s, hs, before, d.rest, by rw [rest, List.append_assoc]⟩

/-- What follows the first match is the end of the text. -/
theorem isSuffix_of_tailAfter? {tail : List Char} (h : p.tailAfter? text = some tail) :
    tail <:+ text := by
  obtain ⟨c, place, found⟩ := List.exists_of_findSome?_eq_some h
  obtain ⟨before, rest, -⟩ := reads_of_mem_onwards place
  obtain ⟨d, hd, rfl⟩ := Option.map_eq_some_iff.mp found
  obtain ⟨s, -, rest', -⟩ := exists_spells_of_mem_ends (List.mem_of_head? hd)
  exact ⟨before ++ s, by rw [List.append_assoc, ← rest', ← rest]⟩

theorem mem_ends_start : d ∈ start.ends c ↔ d = c ∧ c.prev = none := by
  rw [ends]
  split <;> simp_all

theorem mem_ends_seq {q : Pattern} : d ∈ (seq p q).ends c ↔ ∃ e ∈ p.ends c, d ∈ q.ends e := by
  rw [ends, List.mem_flatMap]

theorem mem_ends_oneOf {ps : List Pattern} :
    d ∈ (oneOf p ps).ends c ↔ ∃ q ∈ p :: ps, d ∈ q.ends c := by
  induction ps generalizing p with
  | nil => simp [oneOf]
  | cons q ps ih => simp only [oneOf, ends, List.mem_append, ih, List.mem_cons, exists_eq_or_imp]

/-! ## Patterns for whole texts -/

/-- **A pattern that starts at the start matches from there.** -/
theorem exists_mem_ends_of_start (h : (seq start p).occursIn text = true) :
    ∃ c d, c.rest = text ∧ d ∈ p.ends c := by
  obtain ⟨before, c, d, split, prev, found⟩ := exists_mem_ends_of_occursIn h
  obtain ⟨e, he, hd⟩ := mem_ends_seq.mp found
  obtain ⟨rfl, first⟩ := mem_ends_start.mp he
  rw [List.getLast?_eq_none_iff.mp (prev.symm.trans first), List.nil_append] at split
  exact ⟨e, d, split.symm, hd⟩

/-- All matches of the pattern end where the text does. -/
def Stops (p : Pattern) : Prop := ∀ c, ∀ d ∈ p.ends c, d.rest = []

theorem stops_stop : Stops stop := by
  intro c d h
  rw [ends] at h
  split at h
  · rename_i hc
    rw [List.mem_singleton.mp h]
    exact List.isEmpty_iff.mp hc
  · exact absurd h List.not_mem_nil

theorem Stops.seq {q : Pattern} (hq : q.Stops) (p : Pattern) : Stops (.seq p q) := by
  intro c d h
  obtain ⟨e, -, hd⟩ := mem_ends_seq.mp h
  exact hq e d hd

/-- **A pattern that starts at the start and stops at the stop spells the whole text.** -/
theorem spells_of_occursIn (hp : p.Stops) (h : (seq start p).occursIn text = true) :
    p.Spells text := by
  obtain ⟨c, d, rfl, hd⟩ := exists_mem_ends_of_start h
  obtain ⟨s, hs, rest, -⟩ := exists_spells_of_mem_ends hd
  rwa [rest, hp c d hd, List.append_nil]

/-! ## Characters a pattern cannot do without -/

/-- Every match has one of the characters. -/
def needs (cs : List Char) : Pattern → Bool
  | one (.among ds) => ds.all cs.contains
  | seq p q => needs cs p || needs cs q
  | alt p q => needs cs p && needs cs q
  | _ => false

theorem exists_mem_of_needs {cs s : List Char} (h : p.needs cs = true) (spells : p.Spells s) :
    ∃ x ∈ s, x ∈ cs := by
  induction p generalizing s with
  | one k =>
    cases k with
    | among ds =>
      obtain ⟨x, hx, rfl⟩ := spells
      rw [CharClass.has_among, List.contains_iff_mem] at hx
      exact ⟨x, List.mem_singleton.mpr rfl, List.contains_iff_mem.mp (List.all_eq_true.mp h x hx)⟩
    | _ => cases h
  | seq p q ihp ihq =>
    obtain ⟨a, b, ha, hb, rfl⟩ := spells
    rcases Bool.or_eq_true_iff.mp h with h | h
    · obtain ⟨x, hx, hc⟩ := ihp h ha
      exact ⟨x, List.mem_append_left b hx, hc⟩
    · obtain ⟨x, hx, hc⟩ := ihq h hb
      exact ⟨x, List.mem_append_right a hx, hc⟩
  | alt p q ihp ihq =>
    obtain ⟨hp, hq⟩ := Bool.and_eq_true_iff.mp h
    rcases spells with spells | spells
    · exact ihp hp spells
    · exact ihq hq spells
  | _ => cases h

/-- **Without the characters it needs a pattern does not occur.** -/
theorem not_occursIn_of_needs {cs : List Char} (h : p.needs cs = true) (none : ∀ x ∈ text, x ∉ cs) :
    p.occursIn text = false := by
  rw [Bool.eq_false_iff]
  intro occurs
  obtain ⟨s, spells, within⟩ := exists_infix_of_occursIn occurs
  obtain ⟨x, hx, hc⟩ := exists_mem_of_needs h spells
  exact none x (within.subset hx) hc

/-- Every match ends with one of the characters. -/
def closes (cs : List Char) : Pattern → Bool
  | one (.among ds) => ds.all cs.contains
  | seq _ q => closes cs q
  | alt p q => closes cs p && closes cs q
  | _ => false

theorem exists_last_of_closes {cs s : List Char} (h : p.closes cs = true) (spells : p.Spells s) :
    ∃ x ∈ s.getLast?, x ∈ cs := by
  induction p generalizing s with
  | one k =>
    cases k with
    | among ds =>
      obtain ⟨x, hx, rfl⟩ := spells
      rw [CharClass.has_among, List.contains_iff_mem] at hx
      exact ⟨x, rfl, List.contains_iff_mem.mp (List.all_eq_true.mp h x hx)⟩
    | _ => cases h
  | seq p q _ ihq =>
    obtain ⟨a, b, -, hb, rfl⟩ := spells
    obtain ⟨x, hx, hc⟩ := ihq h hb
    refine ⟨x, ?_, hc⟩
    rw [List.getLast?_append, Option.mem_def.mp hx]
    rfl
  | alt p q ihp ihq =>
    obtain ⟨hp, hq⟩ := Bool.and_eq_true_iff.mp h
    rcases spells with spells | spells
    · exact ihp hp spells
    · exact ihq hq spells
  | _ => cases h

/-! ## Keywords -/

theorem spells_run {k : CharClass} {s : List Char} :
    (run k).Spells s ↔ s ≠ [] ∧ ∀ x ∈ s, k.has x = true := by
  constructor
  · rintro ⟨_, b, ⟨x, hx, rfl⟩, hb, rfl⟩
    exact ⟨List.cons_ne_nil x b, List.forall_mem_cons.mpr ⟨hx, hb⟩⟩
  · rintro ⟨full, all⟩
    obtain ⟨x, s, rfl⟩ := List.exists_cons_of_ne_nil full
    obtain ⟨first, rest⟩ := List.forall_mem_cons.mp all
    exact ⟨[x], s, ⟨x, first, rfl⟩, rest, rfl⟩

theorem spells_cat_cons {ps : List Pattern} {s : List Char} :
    (cat (p :: ps)).Spells s ↔ ∃ a b, p.Spells a ∧ (cat ps).Spells b ∧ s = a ++ b := by
  cases ps with
  | nil => simp [cat, Spells]
  | cons q ps => rfl

theorem spells_oneOf {ps : List Pattern} {s : List Char} :
    (oneOf p ps).Spells s ↔ ∃ q ∈ p :: ps, q.Spells s := by
  induction ps generalizing p with
  | nil => simp [oneOf]
  | cons q ps ih =>
    simp only [oneOf, Spells, ih, List.mem_cons, exists_eq_or_imp]

/-- Literal text is spelled by itself. -/
theorem spells_literal {word : String} {s : List Char} :
    (literal word).Spells s ↔ s = word.toList := by
  rw [literal]
  induction word.toList generalizing s with
  | nil => simp [cat, Spells]
  | cons x xs ih =>
    rw [List.map_cons, spells_cat_cons]
    simp [ih, char, Spells]

/-- **A keyword is spelled by what folds to it.** -/
theorem spells_keyword {word : String} {s : List Char} :
    (keyword word).Spells s ↔ s.map Text.caseFold = word.toList := by
  rw [keyword]
  induction word.toList generalizing s with
  | nil => simp [cat, Spells]
  | cons x xs ih =>
    rw [List.map_cons, spells_cat_cons]
    simp only [ih]
    constructor
    · rintro ⟨a, b, ⟨y, hy, rfl⟩, hb, rfl⟩
      rw [CharClass.letter, CharClass.has, CharClass.has_only, beq_iff_eq] at hy
      rw [List.map_append, hb, List.map_singleton, hy, List.singleton_append]
    · intro h
      cases s with
      | nil => cases h
      | cons y s =>
        rw [List.map_cons, List.cons.injEq] at h
        exact ⟨[y], s, ⟨y, by simp [CharClass.letter, h.1], rfl⟩, h.2, rfl⟩

theorem spells_keywords {word : String} {words : List String} {s : List Char} :
    (keywords (word :: words)).Spells s ↔ ∃ w ∈ word :: words, s.map Text.caseFold = w.toList := by
  rw [keywords, spells_oneOf, ← List.map_cons]
  simp only [List.mem_map, exists_exists_and_eq_and, spells_keyword]

/-! ## Whole words -/

theorem mem_ends_boundary : d ∈ boundary.ends c ↔ d = c ∧ c.atBoundary = true := by
  rw [ends]
  split <;> simp [*]

/-- A boundary in front of a word character has none before it. -/
theorem not_isWordChar_prev {x : Char} (h : c.atBoundary = true) (hx : x ∈ c.rest.head?)
    (word : Text.isWordChar x = true) : ∀ y ∈ c.prev, Text.isWordChar y = false := by
  intro y hy
  rw [Option.mem_def] at hx hy
  simpa [Cursor.atBoundary, hx, hy, word] using h

/-- A boundary behind a word character has none behind it. -/
theorem not_isWordChar_head? {x : Char} (h : c.atBoundary = true) (hx : x ∈ c.prev)
    (word : Text.isWordChar x = true) : ∀ y ∈ c.rest.head?, Text.isWordChar y = false := by
  intro y hy
  rw [Option.mem_def] at hx hy
  simpa [Cursor.atBoundary, hx, hy, word] using h

theorem mem_ends_wholeWord :
    d ∈ (wholeWord p).ends c ↔ c.atBoundary = true ∧ d ∈ p.ends c ∧ d.atBoundary = true := by
  simp only [wholeWord, cat, mem_ends_seq, mem_ends_boundary]
  constructor
  · rintro ⟨_, ⟨rfl, opens⟩, _, match_, rfl, closes⟩
    exact ⟨opens, match_, closes⟩
  · rintro ⟨opens, match_, closes⟩
    exact ⟨c, ⟨rfl, opens⟩, d, match_, rfl, closes⟩

/-- **What occurs as a whole word in a text is one of its whole words.** -/
theorem exists_mem_wholeWords_of_occursIn
    (word : ∀ s, p.Spells s → s ≠ [] ∧ ∀ x ∈ s, Text.isWordChar x = true)
    (h : (wholeWord p).occursIn text = true) : ∃ w ∈ Text.wholeWords text, p.Spells w := by
  obtain ⟨before, c, d, rfl, prev, hd⟩ := exists_mem_ends_of_occursIn h
  obtain ⟨opens, match_, closes⟩ := mem_ends_wholeWord.mp hd
  obtain ⟨w, spells, rest, last⟩ := exists_spells_of_mem_ends match_
  obtain ⟨nonempty, letters⟩ := word w spells
  obtain ⟨x, hx⟩ := Option.ne_none_iff_exists'.mp (mt List.head?_eq_none_iff.mp nonempty)
  obtain ⟨z, hz⟩ := Option.ne_none_iff_exists'.mp (mt List.getLast?_eq_none_iff.mp nonempty)
  refine ⟨w, ?_, spells⟩
  rw [rest, ← List.append_assoc]
  refine Text.mem_wholeWords nonempty letters ?_ ?_
  · rw [← prev]
    refine not_isWordChar_prev opens ?_ (letters x (List.mem_of_head? hx))
    rw [rest, List.head?_append, hx]
    rfl
  · refine not_isWordChar_head? closes ?_ (letters z (List.mem_of_getLast? hz))
    rw [last, hz]
    rfl

/-- **A keyword that occurs as a whole word is one of the whole words.** -/
theorem exists_mem_wholeWords_of_keywords {word : String} {words : List String}
    (small : ∀ w ∈ word :: words, w ≠ "" ∧ w.toList.all Char.isLower = true)
    (h : (wholeWord (keywords (word :: words))).occursIn text = true) :
    ∃ w ∈ Text.wholeWords text, ∃ k ∈ word :: words, w.map Text.caseFold = k.toList := by
  have spelled : ∀ s, (keywords (word :: words)).Spells s →
      s ≠ [] ∧ ∀ x ∈ s, Text.isWordChar x = true := by
    intro s spells
    obtain ⟨k, hk, folds⟩ := spells_keywords.mp spells
    obtain ⟨nonempty, letters⟩ := small k hk
    constructor
    · rintro rfl
      exact nonempty (String.toList_eq_nil_iff.mp folds.symm)
    · intro x hx
      exact Text.isWordChar_of_caseFold
        (List.all_eq_true.mp letters _ (folds ▸ List.mem_map_of_mem hx))
  obtain ⟨w, hw, spells⟩ := exists_mem_wholeWords_of_occursIn spelled h
  exact ⟨w, hw, spells_keywords.mp spells⟩

end Pattern

end BoundSql
