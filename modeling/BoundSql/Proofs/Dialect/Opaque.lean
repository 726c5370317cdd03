import BoundSql.Proofs.Dialect.Scanning
import BoundSql.Proofs.Pattern.Relabelled

/-!
# Quoted text is passed over

The search for placeholders takes a text apart at quoted text: what is found is what is found in
front of it and what is found behind it. In front no quote may open, or the quoted text could be
none. Behind it anything may stand: a quote that is not closed, or the closing quote once more. In
the latter case the two quotes are read as one inside of a longer quoted text if there is an end to
that, and this end is the one that the text behind has by itself (`tokens_span_append_again`,
`tokens_span_append`).

Headline: **`tokens_append_span`**.
-/

namespace BoundSql

open Pattern

namespace Quoted

variable {pos : Nat} {prev : Option Char} {close : Char} {s t : List Char}

/-- At a quote that is doubled inside of quoted text, only such a text starts. -/
theorem ends_span_of_doublable (h : close ∈ doublable) :
    span.ends ⟨pos, prev, close :: t⟩ = (doubled close).ends ⟨pos, prev, close :: t⟩ := by
  have apart : '\'' ≠ '"' := by decide
  have noBacktick : close ≠ '\x60' := fun e => absurd (e ▸ h) (by decide)
  have noBracket : close ≠ '[' := fun e => absurd (e ▸ h) (by decide)
  rw [span_eq]
  simp only [ends, ends_plain_of_ne noBacktick, ends_plain_of_ne noBracket, List.append_nil]
  simp only [doublable, List.mem_cons, List.not_mem_nil, or_false] at h
  rcases h with rfl | rfl
  · rw [ends_doubled_of_ne apart, List.append_nil]
  · rw [ends_doubled_of_ne apart.symm, List.nil_append]

/-- Text in quotes that may be doubled is the doubled text between them. -/
theorem Span.eq_doubling (h : Span close s) (doubles : close ∈ doublable) :
    ∃ body, s = close :: Text.doubling close body ++ [close] := by
  cases h with
  | single body => exact ⟨body, rfl⟩
  | double body => exact ⟨body, rfl⟩
  | backtick | bracket => exact absurd doubles (by decide)

theorem startsQuoted_append (h : startsQuoted s = true) : startsQuoted (s ++ t) = true := by
  cases s with
  | nil => cases h
  | cons x s => exact h

theorem startsQuoted_of_doublable (h : close ∈ doublable) : startsQuoted (close :: t) = true := by
  have all : ∀ q ∈ doublable, openers.contains q = true := Text.forall_mem_of_all (by decide)
  exact all close h

end Quoted

namespace PlaceholderStyle

variable {style : PlaceholderStyle} {close : Char} {s t : List Char}

theorem unprompted_scanner (style : PlaceholderStyle) : style.scanner.Unprompted := by
  intro pos prev prev' s
  have span : Quoted.span.ends ⟨pos, prev, s⟩ = Quoted.span.ends ⟨pos, prev', s⟩ := by
    cases s <;> rfl
  rw [scanner, ends, ends, span, style.ends_tokenPattern_prev pos prev prev']

theorem tokens_ofList (style : PlaceholderStyle) (s : List Char) :
    style.tokens (String.ofList s) =
      (Piece.hitsWhere (!Quoted.startsQuoted ·) (style.scanner.segments s)).map String.ofList := by
  rw [tokens, String.toList_ofList]
  rfl

/-- **In the last part of a text the tokens are those that the part has alone.** -/
theorem scans_last (style : PlaceholderStyle) (s : List Char) :
    style.Scans s (style.tokens (String.ofList s)) [] :=
  ⟨style.scanner.segments s, style.unprompted_scanner.cuts s, (style.tokens_ofList s).symm⟩

/-- Quoted text that is found first has no part in the tokens. -/
theorem tokens_of_quoted {u : List Char} {pos : Nat} {prev last : Option Char}
    (quoted : Quoted.startsQuoted u = true)
    (first : (style.scanner.ends ⟨pos, prev, u ++ t⟩).head? = some ⟨pos + u.length, last, t⟩) :
    style.tokens (String.ofList (u ++ t)) = style.tokens (String.ofList t) := by
  have full : u ≠ [] := by
    rintro rfl
    cases quoted
  have cut : style.scanner.segments (u ++ t) = [.hit u] ++ style.scanner.segments t := by
    rw [segments, ← style.unprompted_scanner.segmentsFrom_eq pos prev,
      segmentsFrom_of_head?_ends full first, style.unprompted_scanner.segmentsFrom_eq]
    rfl
  rw [tokens_ofList, tokens_ofList, cut, Piece.hitsWhere_append, Piece.hitsWhere_hit, quoted]
  rfl

/-! ## A closing quote that follows again -/

/-- At a quote that is doubled inside of quoted text, such a text starts and nothing else. -/
theorem ends_scanner_of_doublable (h : close ∈ Quoted.doublable) (pos : Nat)
    (prev : Option Char) : style.scanner.ends ⟨pos, prev, close :: t⟩ =
      (Quoted.doubled close).ends ⟨pos, prev, close :: t⟩ := by
  have all : ∀ q ∈ Quoted.doublable, q ∉ tokenStarts := Text.forall_mem_of_all (by decide)
  rw [scanner, ends, Quoted.ends_span_of_doublable h, ends_tokenPattern_of_not_mem (all close h),
    List.append_nil]

theorem head?_ends_scanner_append (h : Quoted.Span close s) (doubles : close ∈ Quoted.doublable)
    (pos : Nat) (prev : Option Char) (t : List Char) :
    (style.scanner.ends ⟨pos, prev, s ++ close :: t⟩).head? =
      (style.scanner.ends ⟨pos + s.length, some close, close :: t⟩).head?.or
        (some ⟨pos + s.length, some close, close :: t⟩) := by
  obtain ⟨body, rfl⟩ := h.eq_doubling doubles
  rw [ends_scanner_of_doublable doubles, ← Quoted.head?_ends_doubled_append rfl,
    List.cons_append, List.cons_append, ends_scanner_of_doublable doubles]

/-- A closing quote that follows again is read together with the one before, or not at all. Either
way the search goes on where it goes on behind the quoted text that starts with it. -/
theorem tokens_span_append_again (h : Quoted.Span close s) (doubles : close ∈ Quoted.doublable)
    (t : List Char) : style.tokens (String.ofList (s ++ close :: t)) =
      style.tokens (String.ofList (close :: t)) := by
  have first := style.head?_ends_scanner_append h doubles 0 none t
  cases found : style.scanner.ends ⟨0 + s.length, some close, close :: t⟩ with
  | nil =>
    rw [found] at first
    exact tokens_of_quoted h.startsQuoted first
  | cons d ds =>
    obtain ⟨v, spells, split, place⟩ := exists_eq_of_mem_ends
      (found ▸ List.mem_cons_self : d ∈ style.scanner.ends ⟨0 + s.length, some close, close :: t⟩)
    obtain ⟨y, v, rfl⟩ : ∃ y v', v = y :: v' := List.exists_cons_of_ne_nil fun none =>
      style.not_spells_scanner_nil (none ▸ spells)
    obtain ⟨rfl, rfl⟩ : close = y ∧ t = v ++ d.rest := List.cons.inj split
    have stops : d = ⟨0 + s.length + (close :: v).length, (close :: v).getLast?.or (some close),
      d.rest⟩ := place
    -- The quoted text in front and the one behind are one match, which ends where the latter does.
    have both : (style.scanner.ends ⟨0, none, s ++ close :: v ++ d.rest⟩).head? =
        some ⟨0 + (s ++ close :: v).length, (close :: v).getLast?.or (some close), d.rest⟩ := by
      rw [List.append_assoc, List.cons_append, first, found, List.length_append, ← Nat.add_assoc,
        ← stops]
      rfl
    have second : (style.scanner.ends ⟨0 + s.length, some close, close :: v ++ d.rest⟩).head? =
        some ⟨0 + s.length + (close :: v).length, (close :: v).getLast?.or (some close),
          d.rest⟩ := by
      rw [List.cons_append, found, ← stops]
      rfl
    have front := tokens_of_quoted (Quoted.startsQuoted_append h.startsQuoted) both
    rw [List.append_assoc, List.cons_append] at front
    exact front.trans (tokens_of_quoted (Quoted.startsQuoted_of_doublable doubles) second).symm

/-- **A quoted text in front adds no token and takes none**, whatever follows it. -/
theorem tokens_span_append (h : Quoted.Span close s) (t : List Char) :
    style.tokens (String.ofList (s ++ t)) = style.tokens (String.ofList t) := by
  by_cases behind : close ∈ Quoted.doublable → t.head? ≠ some close
  · have last : style.Scans t (style.tokens (String.ofList t)) [] := style.scans_last t
    have all := (scans_span h (by rwa [List.append_nil])).append last
    refine Scans.tokens_eq ?_
    simpa using all
  · obtain ⟨doubles, again⟩ := Classical.not_imp.mp behind
    obtain ⟨t, rfl⟩ := List.head?_eq_some_iff.mp (Decidable.not_not.mp again)
    exact tokens_span_append_again h doubles t

/-- **Quoted text is passed over.** The tokens of a text are those in front of quoted text and then
those behind it, if in front no quote opens. -/
theorem tokens_append_span (style : PlaceholderStyle) {close : Char} {a q : String}
    (quoteless : ∀ x ∈ a.toList, x ∉ Quoted.openers) (span : Quoted.Span close q.toList)
    (b : String) : style.tokens (a ++ q ++ b) = style.tokens a ++ style.tokens b := by
  obtain ⟨x, r, first⟩ := Quoted.exists_cons_of_span span
  have opens : x ∈ Quoted.openers := by
    have := span.startsQuoted
    rw [first] at this
    simpa [Quoted.startsQuoted] using this
  have fenced : style.tokenPattern.Fences (q.toList ++ b.toList ++ []) := by
    rw [first]
    exact style.fences_of_quote (List.mem_cons_of_mem _ opens)
  have front : style.Scans a.toList (style.tokens a) (q.toList ++ b.toList ++ []) := by
    simpa using scans_quoteless quoteless fenced
  have behind : style.Scans (q.toList ++ b.toList) (style.tokens b) [] := by
    have last := style.scans_last (q.toList ++ b.toList)
    rwa [tokens_span_append span, String.ofList_toList] at last
  refine Scans.tokens_eq ?_
  rw [String.toList_append, String.toList_append, List.append_assoc]
  exact front.append behind

/-- A quote inside is doubled, and what follows may start with one and leave quotes open. -/
theorem tokens_append_span_sample :
    (∀ x ∈ "$1 ".toList, x ∉ Quoted.openers) ∧ Quoted.Span '\'' "'it''s $2'".toList ∧
      numbered.tokens ("$1 " ++ "'it''s $2'" ++ "' $3 [ $4") = ["$1", "$3", "$4"] := by
  have quoteless : ∀ x ∈ "$1 ".toList, x ∉ Quoted.openers := by simp [Quoted.openers]
  have span : Quoted.Span '\'' "'it''s $2'".toList := .single "it's $2".toList
  refine ⟨quoteless, span, ?_⟩
  rw [tokens_append_span numbered quoteless span]
  decide +kernel

end PlaceholderStyle

end BoundSql
