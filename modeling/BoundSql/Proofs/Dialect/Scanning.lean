import BoundSql.Proofs.Pattern.Surrounded
import BoundSql.Proofs.Statement.Pieces

/-!
# The tokens of a text part by part

`PlaceholderStyle.Scans style s found rest` says that a search for placeholders finds `found` in
`s` when `rest` follows. What is found in neighbouring parts is found in both (`Scans.append`), and
what is found in a whole text are its tokens (`Scans.tokens_eq`). In quoted text nothing is found
(`scans_span`), and text without opening quotes has the tokens it has alone if no token can run on
into what follows (`scans_quoteless`).
-/

namespace BoundSql.PlaceholderStyle

open Pattern

variable {style : PlaceholderStyle} {s t rest : List Char} {found found' : List String}

/-- A search for placeholders finds these in `s` when `rest` follows. -/
def Scans (style : PlaceholderStyle) (s : List Char) (found : List String) (rest : List Char) :
    Prop :=
  ∃ segs, style.scanner.Cuts s segs rest ∧
    (Piece.hitsWhere (!Quoted.startsQuoted ·) segs).map String.ofList = found

theorem Scans.nil (style : PlaceholderStyle) (rest : List Char) : style.Scans [] [] rest :=
  ⟨[], .nil rest, rfl⟩

/-- **What is found in neighbouring parts is found in both together.** -/
theorem Scans.append (hs : style.Scans s found (t ++ rest)) (ht : style.Scans t found' rest) :
    style.Scans (s ++ t) (found ++ found') rest := by
  obtain ⟨segs, cuts, rfl⟩ := hs
  obtain ⟨segs', cuts', rfl⟩ := ht
  exact ⟨segs ++ segs', cuts.append cuts', by rw [Piece.hitsWhere_append, List.map_append]⟩

/-- **What is found in a whole text are its tokens.** -/
theorem Scans.tokens_eq {sql : String} (h : style.Scans sql.toList found []) :
    style.tokens sql = found := by
  obtain ⟨segs, cuts, rfl⟩ := h
  rw [tokens, matchesIn, cuts.segments_eq]
  rfl

/-! ## Parts of a text -/

theorem scans_unmarked (h : ∀ x ∈ s, Unmarked x) : style.Scans s [] rest :=
  ⟨_, cuts_unmarked (triesQuotes_scanner style) h,
    by rw [Piece.hitsWhere_map_plain, List.map_nil]⟩

theorem scans_token (style : PlaceholderStyle) (n : Nat) (h : Delimited rest) :
    style.Scans (style.token n).toList [style.token n] rest :=
  ⟨_, style.cuts_scanner_token n h,
    by rw [Piece.hitsWhere_token, List.map_singleton, String.ofList_toList]⟩

theorem scans_plain {x : Char} (quote : x ∉ Quoted.openers) (token : x ∉ tokenStarts) :
    style.Scans [x] [] rest := by
  refine ⟨[.plain x], .plain fun pos prev => ?_, rfl⟩
  rw [scanner, ends, Quoted.ends_span_of_not_mem quote, ends_tokenPattern_of_not_mem token]
  rfl

/-- **Nothing is found in quoted text.** -/
theorem scans_span {close : Char} (h : Quoted.Span close s)
    (behind : close ∈ Quoted.doublable → rest.head? ≠ some close) : style.Scans s [] rest := by
  refine ⟨_, cuts_span (triesQuotes_scanner style) h behind, ?_⟩
  rw [Piece.hitsWhere_hit, h.startsQuoted]
  rfl

/-! ## Text without quotes -/

theorem loopless_tokenPattern (style : PlaceholderStyle) :
    style.tokenPattern.loopless = true := by
  cases style <;> rfl

theorem unanchored_tokenPattern (style : PlaceholderStyle) :
    style.tokenPattern.unanchored = true := by
  cases style <;> rfl

/-- No token runs on over a quote. -/
theorem fences_of_quote (style : PlaceholderStyle) {x : Char} (h : x ∈ ']' :: Quoted.openers) :
    style.tokenPattern.Fences (x :: t) := by
  have all : ∀ x ∈ ']' :: Quoted.openers,
      (style.tokenPattern.classes.all fun k => !k.has x) = true ∧
        Text.isWordChar x = false := by
    cases style <;> exact Text.forall_mem_of_all (by decide)
  rintro _ ⟨⟩
  obtain ⟨avoided, bare⟩ := all x h
  refine ⟨fun k hk => ?_, bare⟩
  simpa using List.all_eq_true.mp avoided k hk

/-- A token does not depend on what stands before it. -/
theorem ends_tokenPattern_prev (style : PlaceholderStyle) (pos : Nat) (prev prev' : Option Char)
    (s : List Char) :
    style.tokenPattern.ends ⟨pos, prev, s⟩ = style.tokenPattern.ends ⟨pos, prev', s⟩ := by
  cases style <;> cases s <;> rfl

theorem not_spells_span_nil : ¬ Quoted.span.Spells [] := by
  rw [Quoted.span_eq]
  rintro (⟨_, _, ⟨_, _, rfl⟩, _, h⟩ | ⟨_, _, ⟨_, _, rfl⟩, _, h⟩ | ⟨_, _, ⟨_, _, rfl⟩, _, h⟩ |
    ⟨_, _, ⟨_, _, rfl⟩, _, h⟩) <;> cases h

theorem not_spells_scanner_nil (style : PlaceholderStyle) : ¬ style.scanner.Spells [] := by
  rintro (quoted | token)
  · exact not_spells_span_nil quoted
  · cases style with
    | numbered =>
      obtain ⟨_, _, ⟨_, _, rfl⟩, _, h⟩ := token
      cases h
    | questionMark =>
      obtain ⟨_, _, h⟩ := token
      cases h
    | atNamed =>
      obtain ⟨_, _, word, _, h⟩ := token
      rw [spells_literal.mp word] at h
      cases h
    | colonNamed =>
      obtain ⟨_, _, word, _, h⟩ := token
      rw [spells_literal.mp word] at h
      cases h

/-- Where no quote opens, only tokens match, and none runs on over a fence. -/
theorem ends_scanner_fenced {x : Char} (h : x ∉ Quoted.openers)
    (fenced : style.tokenPattern.Fences rest) (pos n : Nat) (prev prev' : Option Char) :
    style.scanner.ends ⟨pos + n, prev', x :: (t ++ rest)⟩ =
      (style.scanner.ends ⟨pos, prev, x :: t⟩).map (Cursor.moved n rest) := by
  have moved := ends_fenced style.loopless_tokenPattern style.unanchored_tokenPattern fenced n
    ⟨pos, prev', x :: t⟩
  rw [scanner, ends, ends, Quoted.ends_span_of_not_mem h, Quoted.ends_span_of_not_mem h,
    List.nil_append, List.nil_append, style.ends_tokenPattern_prev pos prev prev']
  exact moved

theorem segmentsFrom_fenced {c : Cursor} {segs : List Segment} (h : style.scanner.Segmented c segs)
    (quoteless : ∀ x ∈ c.rest, x ∉ Quoted.openers) (fenced : style.tokenPattern.Fences rest)
    (n : Nat) (prev : Option Char) :
    style.scanner.segmentsFrom (c.pos + n) prev 0 (c.rest ++ rest) =
      segs ++ style.scanner.segmentsFrom (c.pos + n + c.rest.length) (c.rest.getLast?.or prev) 0
        rest := by
  induction h generalizing prev with
  | nil pos prev' => rfl
  | @plain pos prev' x t segs none _ ih =>
    obtain ⟨first, others⟩ := List.forall_mem_cons.mp quoteless
    have none' : style.scanner.ends ⟨pos + n, prev, x :: (t ++ rest)⟩ = [] := by
      rw [ends_scanner_fenced first fenced pos n prev', none, List.map_nil]
    have behind := ih others (some x)
    rw [Nat.add_right_comm, getLast?_or_cons prev] at behind
    rw [List.cons_append, segmentsFrom_of_ends_nil none', behind, List.length_cons, Nat.add_assoc,
      Nat.add_comm 1]
    rfl
  | @hit pos prev' s t segs full first _ ih =>
    obtain ⟨quoteless', others⟩ := List.forall_mem_append.mp quoteless
    have first' : (style.scanner.ends ⟨pos + n, prev, s ++ (t ++ rest)⟩).head? =
        some ⟨pos + n + s.length, s.getLast?.or prev', t ++ rest⟩ := by
      obtain ⟨x, s, rfl⟩ := List.exists_cons_of_ne_nil full
      have moved := ends_scanner_fenced (t := s ++ t) (quoteless' x List.mem_cons_self) fenced pos n
        prev' prev
      rw [List.append_assoc, ← List.cons_append, ← List.cons_append] at moved
      rw [moved, List.head?_map, first, Option.map_some, Cursor.moved, Nat.add_right_comm]
    have behind := ih others (s.getLast?.or prev)
    rw [Nat.add_right_comm, ← Option.or_assoc, ← List.getLast?_append] at behind
    rw [List.append_assoc, segmentsFrom_of_head?_ends full first', behind, List.length_append,
      Nat.add_assoc (pos + n)]
    rfl

/-- **Text without quotes has the tokens it has alone** if no token can run on into what follows. -/
theorem scans_quoteless (quoteless : ∀ x ∈ s, x ∉ Quoted.openers)
    (fenced : style.tokenPattern.Fences rest) :
    style.Scans s (style.tokens (String.ofList s)) rest := by
  refine ⟨style.scanner.segments s, fun pos prev => ?_, ?_⟩
  · have segmented := segmented_segments style.not_spells_scanner_nil s
    have := segmentsFrom_fenced segmented quoteless fenced pos prev
    rwa [Cursor.start, Nat.zero_add] at this
  · rw [tokens, String.toList_ofList]
    rfl

end BoundSql.PlaceholderStyle
