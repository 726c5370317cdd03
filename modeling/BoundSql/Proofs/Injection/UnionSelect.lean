import BoundSql.Injection
import BoundSql.Proofs.Pattern.Surrounded
import BoundSql.Proofs.Text.Classes

/-!
# UNION SELECT

Between the two words of a UNION SELECT stand separators: white space and comments. The pattern
passes white space and comments on one line (`exists_mem_ends_behindUnion`), and no comment with a
line break in it (`Before.step`), unless it gets into the middle of one: the star that opens a
comment can be taken for the end of an earlier one, if a slash comes behind it (`Separator.Breaks`).
So a UNION SELECT is seen if its comments are on one line, and with a line break in a comment it is
seen only if there is another UNION.

Headline: **`union_select_caught`**.
-/

namespace BoundSql

open Text Pattern

/-! ## Separators -/

/-- What separates two words: a white-space character, or a comment, which goes on up to the first
star with a slash behind it. -/
inductive Separator
  | blank (x : Char) (white : isWhiteSpace x = true)
  | comment (body : List Char) (open' : ¬ ['*', '/'] <:+: body)

namespace Separator

/-- A comment that holds a line break and nothing else. -/
def lineBreak : Separator :=
  .comment ['\n'] fun h => absurd h.length_le (by simp)

/-- How a separator is written. -/
def text : Separator → List Char
  | blank x _ => [x]
  | comment body _ => '/' :: '*' :: (body ++ ['*', '/'])

/-- A comment has no line break. -/
def OnOneLine : Separator → Prop
  | blank _ _ => True
  | comment body _ => '\n' ∉ body

/-- A comment in the row has a line break, and up to it no comment that stands behind another one
starts with a slash; `behind` says that a comment stands in front of the row. -/
def Breaks : Bool → List Separator → Prop
  | _, [] => False
  | behind, blank _ _ :: seps => Breaks behind seps
  | behind, comment body _ :: seps =>
    (behind = true → body.head? ≠ some '/') ∧ ('\n' ∈ body ∨ Breaks true seps)

/-- A row of separators. -/
def spelled (seps : List Separator) : String := String.ofList (seps.map text).flatten

theorem text_ne_nil (sep : Separator) : sep.text ≠ [] := by
  cases sep <;> exact List.cons_ne_nil _ _

/-- Where no comment stands in front, less is asked of the first one. -/
theorem Breaks.anywhere {seps : List Separator} (h : Breaks true seps) : Breaks false seps := by
  induction seps with
  | nil => cases h
  | cons sep seps ih =>
    cases sep with
    | blank x white => exact ih h
    | comment body open' => exact ⟨fun behind => absurd behind Bool.false_ne_true, h.2⟩

/-- A row in which a line break stands starts outside of words. -/
theorem Breaks.bare {seps : List Separator} {behind : Bool} (h : Breaks behind seps)
    (t : List Char) : Bare ((seps.map text).flatten ++ t).head? := by
  cases seps with
  | nil => cases h
  | cons sep seps =>
    cases sep with
    | blank x white =>
      rintro _ ⟨⟩
      exact not_isWordChar_of_isWhiteSpace white
    | comment body open' =>
      rintro _ ⟨⟩
      decide

end Separator

/-! ## The pattern -/

namespace InjectionClass

variable {c d e : Cursor} {s t t' body : List Char}

/-- What the pattern takes for a separator. -/
def separating : Pattern := alt (one .space) lineComment

/-- What the pattern asks for behind the UNION. -/
def behindUnion : Pattern :=
  seq (opt (seq gap (keyword "all"))) (seq (plus separating) (seq (keyword "select") boundary))

theorem pattern_unionSelect :
    unionSelect.pattern = seq boundary (seq (keyword "union") behindUnion) := rfl

/-- What folds to a keyword in small letters is a word of word characters. -/
theorem word_of_map_caseFold {u : List Char} {w : String} (h : u.map caseFold = w.toList)
    (small : w.toList.all Char.isLower = true) : ∀ x ∈ u, isWordChar x = true := fun _ hx =>
  isWordChar_of_caseFold (List.all_eq_true.mp small _ (h ▸ List.mem_map_of_mem hx))

theorem ne_nil_of_map_caseFold {u : List Char} {w : String} (h : u.map caseFold = w.toList)
    (full : w.toList ≠ []) : u ≠ [] := by
  rintro rfl
  exact full h.symm

/-- A keyword in small letters is a word of word characters. -/
theorem exists_word_of_mem_ends_keyword {w : String} (small : w.toList.all Char.isLower = true)
    (full : w.toList ≠ []) (h : d ∈ (keyword w).ends c) :
    ∃ s, s.map caseFold = w.toList ∧ Reads c s d ∧ s ≠ [] ∧ ∀ x ∈ s, isWordChar x = true := by
  obtain ⟨s, spells, reads⟩ := exists_spells_of_mem_ends h
  have folds : s.map caseFold = w.toList := spells_keyword.mp spells
  exact ⟨s, folds, reads, ne_nil_of_map_caseFold folds full, word_of_map_caseFold folds small⟩

/-- No keyword is where no word starts. -/
theorem ends_keyword_of_bare {w : String} (small : w.toList.all Char.isLower = true)
    (full : w.toList ≠ []) (bare : Bare c.rest.head?) : d ∉ (keyword w).ends c := by
  intro h
  obtain ⟨s, -, reads, nonempty, word⟩ := exists_word_of_mem_ends_keyword small full h
  obtain ⟨x, s, rfl⟩ := List.exists_cons_of_ne_nil nonempty
  have out : isWordChar x = false := bare x (by rw [reads.1]; rfl)
  rw [word x List.mem_cons_self] at out
  cases out

theorem spells_lineComment :
    lineComment.Spells s ↔ ∃ body, '\n' ∉ body ∧ s = '/' :: '*' :: (body ++ ['*', '/']) := by
  have line (body : List Char) : (few .inLine).Spells body ↔ '\n' ∉ body := by
    simp only [Spells, CharClass.inLine, CharClass.has_except, CharClass.has_only,
      Bool.not_eq_true', beq_eq_false_iff_ne]
    exact ⟨fun h hn => h _ hn rfl, fun h x hx same => h (same ▸ hx)⟩
  rw [lineComment, spells_cat_cons]
  constructor
  · rintro ⟨opening, _, hopening, ⟨body, closing, hbody, hclosing, rfl⟩, rfl⟩
    rw [spells_literal.mp hopening, spells_literal.mp hclosing]
    exact ⟨body, (line body).mp hbody, rfl⟩
  · rintro ⟨body, hbody, rfl⟩
    exact ⟨['/', '*'], body ++ ['*', '/'], spells_literal.mpr rfl,
      ⟨body, ['*', '/'], (line body).mpr hbody, spells_literal.mpr rfl, rfl⟩, rfl⟩

/-- What separates words on one line the pattern takes for a separator. -/
theorem spells_separating {sep : Separator} (h : sep.OnOneLine) : separating.Spells sep.text := by
  cases sep with
  | blank x white => exact .inl ⟨x, white, rfl⟩
  | comment body _ => exact .inr (spells_lineComment.mpr ⟨body, h, rfl⟩)

/-- A separator starts outside of words. -/
theorem bare_of_mem_ends_separating (h : d ∈ separating.ends c) : Bare c.rest.head? := by
  obtain ⟨s, spells, rest, -⟩ := exists_spells_of_mem_ends h
  rcases spells with ⟨x, white, rfl⟩ | comment
  · rw [rest]
    rintro _ ⟨⟩
    exact not_isWordChar_of_isWhiteSpace white
  · obtain ⟨body, -, rfl⟩ := spells_lineComment.mp comment
    rw [rest]
    rintro _ ⟨⟩
    decide

/-- What the pattern asks for behind the UNION does not go on with the word. -/
theorem bare_of_mem_ends_behindUnion (h : d ∈ behindUnion.ends c) : Bare c.rest.head? := by
  obtain ⟨e, he, hd⟩ := mem_ends_seq.mp h
  rcases List.mem_append.mp he with all | here
  · obtain ⟨e', hgap, -⟩ := mem_ends_seq.mp all
    obtain ⟨s, spells, rest, -⟩ := exists_spells_of_mem_ends hgap
    obtain ⟨full, white⟩ := spells_run.mp spells
    obtain ⟨x, s, rfl⟩ := List.exists_cons_of_ne_nil full
    rw [rest]
    rintro _ ⟨⟩
    exact not_isWordChar_of_isWhiteSpace (white x List.mem_cons_self)
  · rw [List.mem_singleton] at here
    subst here
    obtain ⟨e', steps, -⟩ := mem_ends_seq.mp hd
    obtain ⟨_, first, -⟩ := Relation.TransGen.head'_iff.mp (mem_ends_plus.mp steps)
    exact bare_of_mem_ends_separating first.1

/-! ## Behind a line break -/

/-- A comment ends at its first star with a slash behind it. What is taken for a comment ends there
too, or goes on behind it. -/
theorem comment_cases (open' : ¬ ['*', '/'] <:+: body)
    (h : body ++ '*' :: '/' :: t = s ++ '*' :: '/' :: t') :
    s = body ∧ t' = t ∨ ∃ m, s = body ++ '*' :: '/' :: m ∧ t = m ++ '*' :: '/' :: t' := by
  rcases List.append_eq_append_iff.mp h with ⟨m, rfl, rest⟩ | ⟨m, rfl, rest⟩
  · match m, rest with
    | [], rest => exact .inl ⟨List.append_nil body, by simpa using rest.symm⟩
    | [_], rest => simp at rest
    | _ :: _ :: m, rest =>
      obtain ⟨rfl, rfl, rfl⟩ : '*' = _ ∧ '/' = _ ∧ t = m ++ '*' :: '/' :: t' := by simpa using rest
      exact .inr ⟨m, rfl, rfl⟩
  · match m, rest with
    | [], rest => exact .inl ⟨(List.append_nil s).symm, by simpa using rest⟩
    | [_], rest => simp at rest
    | _ :: _ :: m, rest =>
      obtain ⟨rfl, rfl, -⟩ : '*' = _ ∧ '/' = _ ∧ t' = m ++ '*' :: '/' :: t := by simpa using rest
      exact absurd ⟨s, m, by simp⟩ open'

/-- The text `r` is a row of separators in which a line break stands, and then `t`. -/
def Before (behind : Bool) (t r : List Char) : Prop :=
  ∃ seps, Separator.Breaks behind seps ∧ r = (seps.map Separator.text).flatten ++ t

theorem Before.bare {behind : Bool} (h : Before behind t s) : Bare s.head? := by
  obtain ⟨seps, breaks, rfl⟩ := h
  exact breaks.bare t

/-- What goes on behind a comment ends within the row, if what goes on behind its end does. -/
theorem before_of_comment {seps : List Separator} (open' : ¬ ['*', '/'] <:+: body)
    (breaks : '\n' ∈ body ∨ Separator.Breaks true seps) (line : '\n' ∉ s)
    (h : body ++ '*' :: '/' :: ((seps.map Separator.text).flatten ++ t) = s ++ '*' :: '/' :: t')
    (behind : ∀ m, '\n' ∉ m → Separator.Breaks true seps →
      (seps.map Separator.text).flatten ++ t = m ++ '*' :: '/' :: t' → Before true t t') :
    Before true t t' := by
  rcases comment_cases open' h with ⟨rfl, rfl⟩ | ⟨m, rfl, rest⟩
  · exact ⟨seps, breaks.resolve_left line, rfl⟩
  · rw [List.mem_append, List.mem_cons, List.mem_cons, not_or, not_or, not_or] at line
    exact behind m line.2.2.2 (breaks.resolve_left line.1) rest

/-- What goes on in one line from a comment to the end of another ends within the row. -/
theorem before_of_closes {seps : List Separator} (breaks : Separator.Breaks true seps)
    (line : '\n' ∉ s) (h : (seps.map Separator.text).flatten ++ t = s ++ '*' :: '/' :: t') :
    Before true t t' := by
  induction seps generalizing s with
  | nil => cases breaks
  | cons sep seps ih =>
    cases sep with
    | blank x white =>
      cases s with
      | nil =>
        obtain ⟨rfl, -⟩ := List.cons.inj h
        exact absurd white (by decide)
      | cons y s => exact ih breaks (mt (List.mem_cons_of_mem y) line) (List.cons.inj h).2
    | comment body open' =>
      have row : '/' :: '*' :: (body ++ '*' :: '/' :: ((seps.map Separator.text).flatten ++ t)) =
          s ++ '*' :: '/' :: t' := by
        rw [← h]
        simp [Separator.text]
      match s, row with
      | [], row => simp at row
      | [_], row =>
        -- The star of the opening cannot close the comment: no slash stands behind it.
        obtain ⟨rfl, slash⟩ : '/' = _ ∧ body ++ _ = '/' :: t' := by simpa using row
        cases body with
        | nil => simp at slash
        | cons x body =>
          obtain ⟨rfl, -⟩ := List.cons.inj slash
          exact absurd rfl (breaks.1 rfl)
      | _ :: _ :: s, row =>
        obtain ⟨rfl, rfl, inside⟩ : '/' = _ ∧ '*' = _ ∧ body ++ _ = s ++ '*' :: '/' :: t' := by
          simpa using row
        rw [List.mem_cons, List.mem_cons, not_or, not_or] at line
        exact before_of_comment open' breaks.2 line.2.2 inside fun m line breaks => ih breaks line

/-- **A separator does not lead past the line break.** -/
theorem Before.step (h : Before false t c.rest) (step : d ∈ separating.ends c) :
    Before false t d.rest := by
  obtain ⟨seps, breaks, here⟩ := h
  obtain ⟨s, spells, rest, -⟩ := exists_spells_of_mem_ends step
  rw [here] at rest
  cases seps with
  | nil => cases breaks
  | cons sep seps =>
    rcases spells with ⟨y, white', rfl⟩ | comment
    · cases sep with
      | blank x white => exact ⟨seps, breaks, (List.cons.inj rest).2.symm⟩
      | comment body open' =>
        obtain ⟨rfl, -⟩ := List.cons.inj rest
        exact absurd white' (by decide)
    · obtain ⟨s, line, rfl⟩ := spells_lineComment.mp comment
      cases sep with
      | blank x white =>
        obtain ⟨rfl, -⟩ := List.cons.inj rest
        exact absurd white (by decide)
      | comment body open' =>
        have inside : body ++ '*' :: '/' :: ((seps.map Separator.text).flatten ++ t) =
            s ++ '*' :: '/' :: d.rest := by simpa [Separator.text] using rest
        obtain ⟨seps', breaks', rest'⟩ := before_of_comment open' breaks.2 line inside
          fun m line breaks => before_of_closes breaks line
        exact ⟨seps', breaks'.anywhere, rest'⟩

/-- White space does not lead past the line break. -/
theorem Before.white (h : Before false t c.rest) (hs : ∀ x ∈ s, isWhiteSpace x = true)
    (rest : c.rest = s ++ d.rest) : Before false t d.rest := by
  obtain ⟨seps, breaks, here⟩ := h
  rw [here] at rest
  clear here
  induction s generalizing seps with
  | nil => exact ⟨seps, breaks, rest.symm⟩
  | cons x s ih =>
    cases seps with
    | nil => cases breaks
    | cons sep seps =>
      cases sep with
      | blank y white =>
        exact ih (fun z hz => hs z (List.mem_cons_of_mem x hz)) seps (List.cons.inj rest).2 breaks
      | comment body open' =>
        obtain ⟨rfl, -⟩ := List.cons.inj rest
        exact absurd (hs '/' List.mem_cons_self) (by decide)

theorem Before.steps (h : Before false t c.rest) (steps : d ∈ (plus separating).ends c) :
    Before false t d.rest := by
  have path : Relation.TransGen separating.Advances c d := mem_ends_plus.mp steps
  clear steps
  induction path with
  | single step => exact h.step step.1
  | tail _ step ih => exact ih.step step.1

/-- **Behind a UNION nothing matches if a line break stands in the row of separators.** -/
theorem Before.not_mem_ends (h : Before false t c.rest) : d ∉ behindUnion.ends c := by
  intro found
  obtain ⟨e, he, hd⟩ := mem_ends_seq.mp found
  rcases List.mem_append.mp he with all | here
  · obtain ⟨e', hgap, hall⟩ := mem_ends_seq.mp all
    obtain ⟨s, spells, rest, -⟩ := exists_spells_of_mem_ends hgap
    have before : Before false t e'.rest := h.white (spells_run.mp spells).2 rest
    exact ends_keyword_of_bare (by decide) (by decide) before.bare hall
  · rw [List.mem_singleton] at here
    subst here
    obtain ⟨e', steps, hd⟩ := mem_ends_seq.mp hd
    obtain ⟨e'', hselect, -⟩ := mem_ends_seq.mp hd
    exact ends_keyword_of_bare (by decide) (by decide) (h.steps steps).bare hselect

/-! ## The words -/

/-- **Where the pattern occurs there is a UNION, a word of its own.** -/
theorem exists_union_of_occursIn {text : List Char}
    (h : unionSelect.pattern.occursIn text = true) :
    ∃ a u c, text = a ++ (u ++ c.rest) ∧ u.map caseFold = "union".toList ∧ u ≠ [] ∧
      (∀ x ∈ u, isWordChar x = true) ∧ Bare a.getLast? ∧ ∃ d, d ∈ behindUnion.ends c := by
  obtain ⟨a, c, d, rfl, prev, hd⟩ := exists_mem_ends_of_occursIn h
  rw [pattern_unionSelect] at hd
  obtain ⟨c', here, rest⟩ := mem_ends_seq.mp hd
  obtain ⟨rfl, border⟩ := mem_ends_boundary.mp here
  obtain ⟨e, union, behind⟩ := mem_ends_seq.mp rest
  obtain ⟨u, folds, reads, full, word⟩ :=
    exists_word_of_mem_ends_keyword (by decide) (by decide) union
  refine ⟨a, u, e, by rw [reads.1], folds, full, word, ?_, d, behind⟩
  obtain ⟨x, u, rfl⟩ := List.exists_cons_of_ne_nil full
  rw [← prev]
  exact not_isWordChar_prev border (by rw [reads.1]; rfl) (word x List.mem_cons_self)

theorem exists_mem_ends_select {w : List Char} (hw : w.map caseFold = "select".toList)
    (behind : Bare t.head?) (pos : Nat) (prev : Option Char) :
    ∃ d, d ∈ (seq (keyword "select") boundary).ends ⟨pos, prev, w ++ t⟩ := by
  have select := mem_ends_of_spells (p := keyword "select") (by decide) (spells_keyword.mpr hw) pos
    prev t
  refine ⟨_, mem_ends_seq.mpr ⟨_, select, mem_ends_boundary.mpr ⟨rfl, ?_⟩⟩⟩
  have full : w ≠ [] := ne_nil_of_map_caseFold hw (by decide)
  obtain ⟨z, hz⟩ := Option.ne_none_iff_exists'.mp (mt List.getLast?_eq_none_iff.mp full)
  have letter : isWordChar z = true :=
    word_of_map_caseFold hw (by decide) z (List.mem_of_getLast? hz)
  exact atBoundary_of_prev (by rw [hz]; rfl) letter behind

theorem exists_mem_ends_behindUnion {w : List Char} {seps : List Separator} (full : seps ≠ [])
    (line : ∀ sep ∈ seps, sep.OnOneLine) (hw : w.map caseFold = "select".toList)
    (behind : Bare t.head?) (pos : Nat) (prev : Option Char) :
    ∃ d, d ∈ behindUnion.ends
      ⟨pos, prev, (seps.map Separator.text).flatten ++ (w ++ t)⟩ := by
  have parts : ∀ s ∈ seps.map Separator.text, separating.Spells s ∧ s ≠ [] :=
    List.forall_mem_map.mpr fun sep hsep => ⟨spells_separating (line sep hsep), sep.text_ne_nil⟩
  have separated := mem_ends_plus_of_spells (p := separating) (by decide)
    (mt List.map_eq_nil_iff.mp full) parts pos prev (w ++ t)
  obtain ⟨d, select⟩ := exists_mem_ends_select hw behind
    (pos + (seps.map Separator.text).flatten.length)
    ((seps.map Separator.text).flatten.getLast?.or prev)
  exact ⟨d, mem_ends_seq.mpr ⟨_, List.mem_append_right _ (List.mem_singleton.mpr rfl),
    mem_ends_seq.mpr ⟨_, separated, select⟩⟩⟩

/-- **The pattern matches the two words with separators on one line between them.** -/
theorem ends_unionSelect_ne_nil {u w : List Char} {seps : List Separator} {prev : Option Char}
    (hu : u.map caseFold = "union".toList) (hw : w.map caseFold = "select".toList)
    (full : seps ≠ []) (line : ∀ sep ∈ seps, sep.OnOneLine) (before : Bare prev)
    (behind : Bare t.head?) (pos : Nat) :
    unionSelect.pattern.ends ⟨pos, prev, u ++ ((seps.map Separator.text).flatten ++ (w ++ t))⟩ ≠
      [] := by
  have union := mem_ends_of_spells (p := keyword "union") (by decide) (spells_keyword.mpr hu) pos
    prev ((seps.map Separator.text).flatten ++ (w ++ t))
  obtain ⟨d, rest⟩ := exists_mem_ends_behindUnion full line hw behind (pos + u.length)
    (u.getLast?.or prev)
  obtain ⟨x, v, rfl⟩ := List.exists_cons_of_ne_nil (ne_nil_of_map_caseFold hu (by decide))
  have letter : isWordChar x = true := word_of_map_caseFold hu (by decide) x List.mem_cons_self
  rw [pattern_unionSelect]
  refine List.ne_nil_of_mem (mem_ends_seq.mpr ⟨_, mem_ends_boundary.mpr ⟨rfl, ?_⟩,
    mem_ends_seq.mpr ⟨_, union, rest⟩⟩ : d ∈ _)
  exact atBoundary_of_head? rfl letter before

/-- **If a line break stands in the row of separators, a UNION is seen only if there is another
one.** -/
theorem exists_other_union {p u rest : List Char} {seps : List Separator}
    (before : Bare p.getLast?) (hu : u.map caseFold = "union".toList)
    (breaks : Separator.Breaks false seps)
    (separated : rest = (seps.map Separator.text).flatten ++ t)
    (occurs : unionSelect.pattern.occursIn (p ++ (u ++ rest)) = true) :
    ∃ w ∈ wholeWords p ++ wholeWords rest, w.map caseFold = "union".toList := by
  obtain ⟨a, v, c, split, folds, nonempty, word, border, d, found⟩ :=
    exists_union_of_occursIn occurs
  have bare : Bare c.rest.head? := bare_of_mem_ends_behindUnion found
  rcases eq_or_mem_wholeWords split (word_of_map_caseFold hu (by decide)) nonempty word before
    border bare with same | member | member
  · -- It is this UNION, and behind it stands the row with the line break.
    rw [same] at split
    have length : u.length = v.length := by rw [← List.length_map, hu, ← folds, List.length_map]
    obtain ⟨-, here⟩ := List.append_inj (List.append_cancel_left split) length
    have behind : Before false t c.rest := ⟨seps, breaks, here.symm.trans separated⟩
    exact absurd found behind.not_mem_ends
  · exact ⟨v, List.mem_append_left _ member, folds⟩
  · exact ⟨v, List.mem_append_right _ member, folds⟩

/-- **A UNION SELECT is seen if every comment between its words is on one line; if a comment has a
line break, and no comment behind another one starts with a slash, a UNION is seen only if there is
another one.** -/
theorem union_select_caught {p s union select : String} {seps : List Separator}
    (before : Bare p.toList.getLast?) (behind : Bare s.toList.head?)
    (isUnion : SameButCase union.toList "UNION".toList)
    (isSelect : SameButCase select.toList "SELECT".toList) (full : seps ≠ []) :
    let rest := Separator.spelled seps ++ select ++ s
    ((∀ sep ∈ seps, sep.OnOneLine) → unionSelect ∈ allIn (p ++ union ++ rest)) ∧
      (Separator.Breaks false seps → unionSelect ∈ allIn (p ++ union ++ rest) →
        ∃ w ∈ wholeWords p.toList ++ wholeWords rest.toList, w.map caseFold = "union".toList) := by
  intro rest
  have hu : union.toList.map caseFold = "union".toList :=
    map_caseFold_of_sameButCase (forall_mem_of_all (by decide)) (isUnion.trans (by decide))
  have hw : select.toList.map caseFold = "select".toList :=
    map_caseFold_of_sameButCase (forall_mem_of_all (by decide)) (isSelect.trans (by decide))
  have separated : rest.toList =
      (seps.map Separator.text).flatten ++ (select.toList ++ s.toList) := by
    simp [rest, Separator.spelled]
  have text : (p ++ union ++ rest).toList = p.toList ++ (union.toList ++ rest.toList) := by simp
  simp only [mem_allIn, text]
  constructor
  · intro line
    rw [separated]
    exact occursIn_of_mem_ends (ends_unionSelect_ne_nil hu hw full line before behind _)
  · intro breaks occurs
    exact exists_other_union before hu breaks separated occurs

/-- Mixed letters, and in between white space and a comment with a star and a slash in it; behind it
the same with a line break in the comment. -/
theorem union_select_caught_sample :
    let line := [Separator.blank '\n' rfl, .comment "* UNION /".toList (by decide +kernel)]
    let lines := [Separator.comment "/".toList (by decide +kernel), .blank '\n' rfl,
      .comment "* AND\n/".toList (by decide +kernel)]
    let rest := fun seps => Separator.spelled seps ++ "sELEct" ++ " pin"
    Bare "7'".toList.getLast? ∧ Bare " pin".toList.head? ∧
      SameButCase "uNion".toList "UNION".toList ∧ SameButCase "sELEct".toList "SELECT".toList ∧
      line ≠ [] ∧ (∀ sep ∈ line, sep.OnOneLine) ∧
      unionSelect ∈ allIn ("7'" ++ "uNion" ++ rest line) ∧
      lines ≠ [] ∧ Separator.Breaks false lines ∧
      unionSelect ∉ allIn ("7'" ++ "uNion" ++ rest lines) := by
  intro line lines rest
  have before : Bare "7'".toList.getLast? := by
    rintro x ⟨⟩
    decide
  have behind : Bare " pin".toList.head? := by
    rintro x ⟨⟩
    decide
  have isUnion : SameButCase "uNion".toList "UNION".toList :=
    sameButCase_iff.mpr (by decide +kernel)
  have isSelect : SameButCase "sELEct".toList "SELECT".toList :=
    sameButCase_iff.mpr (by decide +kernel)
  have one : line ≠ [] := List.cons_ne_nil _ _
  have two : lines ≠ [] := List.cons_ne_nil _ _
  have onOneLine : ∀ sep ∈ line, sep.OnOneLine := by simp [line, Separator.OnOneLine]
  have noOther : ¬ ∃ w ∈ wholeWords "7'".toList ++ wholeWords (rest lines).toList,
      w.map caseFold = "union".toList := by decide +kernel
  have breaks : Separator.Breaks false lines :=
    ⟨fun behind => absurd behind Bool.false_ne_true, .inr ⟨fun _ => by decide, .inl (by decide)⟩⟩
  refine ⟨before, behind, isUnion, isSelect, one, onOneLine, ?_, two, breaks,
    fun seen => noOther ?_⟩
  · exact (union_select_caught before behind isUnion isSelect one).1 onOneLine
  · exact (union_select_caught before behind isUnion isSelect two).2 breaks seen

/-- **A line break in a comment hides a UNION SELECT.** -/
theorem line_break_hides_union :
    unionSelect ∉ allIn ("" ++ "UNION" ++ Separator.spelled [.lineBreak] ++ "SELECT" ++ "") := by
  decide +kernel

end InjectionClass

end BoundSql
