import BoundSql.Proofs.Statement.Cutting

/-!
# Pieces, cut into segments

What a search for quoted text or for placeholders makes of the text that pieces are spelled as.
Pieces are *sound* if fixed texts hold no marked character, or are string literals, and names are
made of the characters of identifiers; they are *spaced* if a delimiter follows each literal, each
name and each placeholder. `Piece.segments` are the segments piece by piece: fixed text and bare
names fall apart into characters, string literals and quoted names stay whole, and what becomes of a
placeholder depends on the search. Main statement: `cuts_spelling`.
-/

namespace BoundSql

open Pattern

/-- A text is a string literal. -/
def IsLiteral (s : String) : Prop := ∃ t, s.toList = '\'' :: Text.doubling '\'' t ++ ['\'']

namespace Piece

/-! ## Sound and spaced pieces -/

/-- Fixed text is inert, and names are names. -/
def Plain : Piece → Prop
  | text s => Inert s.toList
  | ident name => IsName name
  | bind _ => True

/-- The piece is plain or a string literal. -/
def Sound (x : Piece) : Prop := x.Plain ∨ ∃ s, x = text s ∧ IsLiteral s

theorem isName_of_sound {name : String} (h : (ident name).Sound) : IsName name := by
  rcases h with h | ⟨_, e, -⟩
  · exact h
  · cases e

/-- Whether a piece is found right only if a delimiter follows it. -/
def isOpen : Piece → Bool
  | text s => s.toList.head? == some '\''
  | _ => true

/-- Whether a piece starts with a delimiter. -/
def delimits : Piece → Bool
  | text s => s.toList.head?.any delimiters.contains
  | _ => false

/-- A delimiter follows where one is needed. -/
def Spaced (x y : Piece) : Prop := x.isOpen = true → y.delimits = true

/-! ## Segments -/

section Segments

variable (d : Dialect) (quoted : Bool) (cutToken : List Char → List Segment)

/-- The segments of a fixed text: a string literal stays whole. -/
def textSegments (s : String) : List Segment :=
  if s.toList.head? = some '\'' then [.hit s.toList] else s.toList.map .plain

/-- The segments of a name: each part between dots stays whole if names are quoted. -/
def nameSegments (name : String) : List Segment :=
  if quoted then
    [Segment.plain '.'].intercalate
      ((Text.splitOn '.' name.toList).map fun part => [.hit (d.profile.quoteSegment part)])
  else name.toList.map .plain

/-- The segments of pieces, when so many values are bound before them. -/
def segments : Nat → List Piece → List Segment
  | _, [] => []
  | n, text s :: pieces => textSegments s ++ segments n pieces
  | n, ident name :: pieces => nameSegments d quoted name ++ segments n pieces
  | n, bind _ :: pieces =>
    cutToken (d.profile.placeholderStyle.token (n + 1)).toList ++ segments (n + 1) pieces

end Segments

/-! ## Matches among the segments -/

/-- The matches that pass a test. -/
def hitsWhere (test : List Char → Bool) (segs : List Segment) : List (List Char) :=
  (segs.filterMap Segment.hit?).filter test

section Hits

variable {test : List Char → Bool}

theorem hitsWhere_append (a b : List Segment) :
    hitsWhere test (a ++ b) = hitsWhere test a ++ hitsWhere test b := by
  rw [hitsWhere, List.filterMap_append, List.filter_append]
  rfl

theorem hitsWhere_map_plain (s : List Char) : hitsWhere test (s.map .plain) = [] := by
  induction s with
  | nil => rfl
  | cons x s ih => exact ih

theorem hitsWhere_hit (s : List Char) : hitsWhere test [.hit s] = if test s then [s] else [] := by
  cases h : test s <;> simp [hitsWhere, Segment.hit?, h]

/-- A token does not pass as quoted text. -/
theorem hitsWhere_token (style : PlaceholderStyle) (n : Nat) :
    hitsWhere (!Quoted.startsQuoted ·) [.hit (style.token n).toList] =
      [(style.token n).toList] := by
  obtain ⟨r, hr, -⟩ := style.exists_token_eq n
  have opener : ∀ x ∈ PlaceholderStyle.tokenStarts, (!Quoted.openers.contains x) = true :=
    Text.forall_mem_of_all (by decide)
  rw [hitsWhere_hit, hr, Quoted.startsQuoted]
  exact if_pos (opener _ style.start_mem)

/-- A name has no match that no quoted part passes as. -/
theorem hitsWhere_nameSegments {d : Dialect}
    (h : ∀ part, test (d.profile.quoteSegment part) = false) (quoted : Bool) (name : String) :
    hitsWhere test (nameSegments d quoted name) = [] := by
  have one : ∀ part, hitsWhere test [.hit (d.profile.quoteSegment part)] = [] := by
    intro part
    rw [hitsWhere_hit, h]
    rfl
  unfold nameSegments
  split
  · induction Text.splitOn '.' name.toList with
    | nil => rfl
    | cons part parts ih =>
      cases parts with
      | nil => simpa [List.intercalate] using one part
      | cons part' parts =>
        rw [List.map_cons, List.map_cons, List.intercalate_cons_cons, hitsWhere_append,
          hitsWhere_append, one]
        exact ih
  · exact hitsWhere_map_plain _

end Hits

/-- What is picked from groups is picked from each in turn, if not from the text between them. -/
theorem filterMap_separated {α β : Type} {f : Piece → Option β} {s : String} (h : f (text s) = none)
    (g : α → List Piece) (xs : List α) :
    (separated s (xs.map g)).filterMap f = xs.flatMap fun x => (g x).filterMap f := by
  induction xs with
  | nil => rfl
  | cons x xs ih =>
    cases xs with
    | nil => rw [List.map_singleton, separated_singleton, List.flatMap_singleton]
    | cons y xs =>
      rw [List.map_cons, List.map_cons, separated_cons_cons, List.filterMap_append,
        List.filterMap_cons_none h, ← List.map_cons, ih]
      rfl

/-! ## Cutting -/

variable {d : Dialect} {quoted : Bool} {cutToken : List Char → List Segment} {p : Pattern}
  {rest : List Char}

theorem head?_ne_of_inert {s : List Char} (h : Inert s) : s.head? ≠ some '\'' := by
  intro hs
  have := h.unmarked '\'' (List.mem_of_head? hs)
  exact absurd this (by decide)

theorem head?_of_isLiteral {s : String} (h : IsLiteral s) : s.toList.head? = some '\'' := by
  obtain ⟨t, ht⟩ := h
  rw [ht]
  rfl

theorem cuts_text (hp : p.TriesQuotes) {s : String} (hs : (text s).Sound)
    (ht : (text s).isOpen = true → Delimited rest) :
    p.Cuts s.toList (textSegments s) rest := by
  rcases hs with inert | ⟨_, hs, literal⟩
  · rw [textSegments, if_neg (head?_ne_of_inert inert)]
    exact cuts_unmarked hp inert.unmarked
  · cases hs
    have first := head?_of_isLiteral literal
    obtain ⟨t, hs⟩ := literal
    rw [textSegments, if_pos first, hs]
    refine cuts_span hp (.single t) fun _ h => ?_
    have := ht (by rw [isOpen, first]; rfl) '\'' h
    exact absurd this (by decide)

/-- A part of a name holds no quote, so nothing in it is doubled. -/
theorem quoteSegment_of_isPart (d : Dialect) {part : List Char}
    (h : ∀ x ∈ part, Identifier.isPart x = true) :
    d.profile.quoteSegment part = d.profile.openQuote :: part ++ [d.profile.closeQuote] := by
  have quote : Identifier.isPart d.profile.closeQuote = false := by cases d <;> decide
  have absent : d.profile.closeQuote ∉ part := fun hq =>
    absurd (quote.symm.trans (h _ hq)) (by decide)
  rw [DialectProfile.quoteSegment, Text.doubling_of_not_mem absent]

/-- A quoted part of a name is quoted text. -/
theorem span_quoteSegment (d : Dialect) {part : List Char}
    (h : ∀ x ∈ part, Identifier.isPart x = true) :
    Quoted.Span d.profile.closeQuote (d.profile.quoteSegment part) := by
  have absent : ∀ q, Identifier.isPart q = false → q ∉ part := fun q hq hx =>
    absurd (hq.symm.trans (h q hx)) (by decide)
  cases d with
  | postgres => exact .double part
  | mySql =>
    rw [quoteSegment_of_isPart _ h]
    exact .backtick part (absent _ (by decide))
  | sqlite => exact .double part
  | msSql =>
    rw [quoteSegment_of_isPart _ h]
    exact .bracket part (absent _ (by decide))
  | oracle => exact .double part

theorem closeQuote_not_mem_delimiters (d : Dialect) : d.profile.closeQuote ∉ delimiters := by
  cases d <;> decide

theorem cuts_quoteSegment (hp : p.TriesQuotes) {part : List Char}
    (h : ∀ x ∈ part, Identifier.isPart x = true) (ht : Delimited rest) :
    p.Cuts (d.profile.quoteSegment part) [.hit (d.profile.quoteSegment part)] rest :=
  cuts_span hp (span_quoteSegment d h) fun _ e => closeQuote_not_mem_delimiters d (ht _ e)

/-- Quoted parts with dots between them are cut at the dots. -/
theorem cuts_quoted_parts (hp : p.TriesQuotes) {parts : List (List Char)}
    (h : ∀ part ∈ parts, ∀ x ∈ part, Identifier.isPart x = true) (ht : Delimited rest) :
    p.Cuts (['.'].intercalate (parts.map d.profile.quoteSegment))
      ([Segment.plain '.'].intercalate (parts.map fun part => [.hit (d.profile.quoteSegment part)]))
      rest := by
  induction parts with
  | nil => exact .nil rest
  | cons part parts ih =>
    have first := h part List.mem_cons_self
    have ih := ih fun part' hm => h part' (List.mem_cons_of_mem part hm)
    cases parts with
    | nil => simpa [List.intercalate] using cuts_quoteSegment hp first ht
    | cons part' parts =>
      simp only [List.map_cons, List.intercalate_cons_cons] at ih ⊢
      refine .append (.append (cuts_quoteSegment hp first ?_) (.plain fun pos prev => ?_)) ih
      · exact delimited_cons (by decide) _
      · exact hp.unmarked '.' (by decide) pos prev _

theorem cuts_name (hp : p.TriesQuotes) {name : String} (h : IsName name) (ht : Delimited rest) :
    p.Cuts (if quoted then d.profile.quoteIdentifier name else name).toList
      (nameSegments d quoted name) rest := by
  unfold nameSegments
  cases quoted with
  | false => exact cuts_unmarked hp (unmarked_of_isName h)
  | true =>
    rw [if_pos rfl, if_pos rfl, DialectProfile.quoteIdentifier, String.toList_ofList]
    refine cuts_quoted_parts hp (fun part hm x hx => ?_) ht
    rcases h x (Text.exists_mem_splitOn_iff.mp ⟨part, hm, hx⟩).1 with h | rfl
    · exact h
    · exact absurd hx (Text.not_mem_of_mem_splitOn hm)

/-! ## The whole text -/

theorem delimited_spelling {pieces : List Piece} (h : ∀ y ∈ pieces.head?, y.delimits = true)
    (n : Nat) : Delimited (Writer.spelling d.profile quoted n pieces).toList := by
  intro x hx
  cases pieces with
  | nil => exact absurd hx (by simp [Writer.spelling])
  | cons y pieces =>
    have hy : y.delimits = true := h y rfl
    cases y with
    | ident name => exact absurd hy (by simp [delimits])
    | bind v => exact absurd hy (by simp [delimits])
    | text s =>
      rw [delimits] at hy
      rw [Writer.spelling, String.toList_append, List.head?_append] at hx
      cases hs : s.toList.head? with
      | none => rw [hs] at hy; exact absurd hy (by simp)
      | some z =>
        rw [hs] at hx hy
        rw [Option.some_or, Option.mem_some_iff] at hx
        simpa [hx] using hy

/-- **Sound and spaced pieces are cut piece by piece.** -/
theorem cuts_spelling (hp : p.TriesQuotes)
    (htoken : ∀ n rest, Delimited rest →
      p.Cuts (d.profile.placeholderStyle.token n).toList
        (cutToken (d.profile.placeholderStyle.token n).toList) rest)
    {pieces : List Piece} (sound : ∀ x ∈ pieces, x.Sound) (spaced : pieces.IsChain Spaced)
    (n : Nat) :
    p.Cuts (Writer.spelling d.profile quoted n pieces).toList
      (segments d quoted cutToken n pieces) [] := by
  induction pieces generalizing n with
  | nil => exact .nil []
  | cons x pieces ih =>
    rw [List.isChain_cons] at spaced
    have ih := ih (fun y hy => sound y (List.mem_cons_of_mem x hy)) spaced.2
    have sound := sound x List.mem_cons_self
    have follows : x.isOpen = true → ∀ m,
        Delimited ((Writer.spelling d.profile quoted m pieces).toList ++ []) := by
      intro hx m
      rw [List.append_nil]
      exact delimited_spelling (fun y hy => spaced.1 y hy hx) m
    cases x with
    | text s =>
      rw [Writer.spelling, String.toList_append]
      exact (cuts_text hp sound fun hx => follows hx n).append (ih n)
    | ident name =>
      rw [Writer.spelling, String.toList_append]
      exact (cuts_name hp (isName_of_sound sound) (follows rfl n)).append (ih n)
    | bind v =>
      rw [Writer.spelling, String.toList_append]
      exact (htoken (n + 1) _ (follows rfl (n + 1))).append (ih (n + 1))

end Piece

end BoundSql
