import BoundSql.Proofs.Dialect.Unquoting
import BoundSql.Proofs.Generator.Alignment

/-!
# Statements as symbols

The text of a statement with quoted names, together with its parameters, is a list of symbols:
characters, quoted parts of names, and values where the placeholders stand. A search for
placeholders finds them (`symbolsOf_segments`), so statements with one text and one list of
parameters have the same symbols (`symbols_eq_of_spelling_eq`).
-/

namespace BoundSql

/-- A symbol of a statement. -/
inductive Symbol
  | char (c : Char)
  /-- A part of a name with the quotes around it. -/
  | part (s : List Char)
  | value (v : Value)

/-- The symbols of a text without quotes and placeholders. -/
def chars (s : String) : List Symbol := s.toList.map .char

theorem chars_append (s t : String) : chars (s ++ t) = chars s ++ chars t := by
  rw [chars, String.toList_append, List.map_append]
  rfl

/-! ## Quoted parts -/

/-- A part of a name can be read back from between its quotes. -/
theorem DialectProfile.quoteSegment_injective (p : DialectProfile) :
    Function.Injective p.quoteSegment := by
  intro s t h
  rw [quoteSegment, quoteSegment, List.cons_append, List.cons_append, List.cons.injEq] at h
  exact Quoted.doubling_injective _ (List.append_cancel_right h.2)

/-! ## Symbols of pieces -/

namespace Piece

variable (d : Dialect)

/-- The symbols of a name: its parts with dots between them. -/
def nameSymbols (name : String) : List Symbol :=
  [Symbol.char '.'].intercalate
    ((Text.splitOn '.' name.toList).map fun part => [.part (d.profile.quoteSegment part)])

/-- The symbols of pieces. -/
def symbols : List Piece → List Symbol
  | [] => []
  | text s :: pieces => chars s ++ symbols pieces
  | ident name :: pieces => nameSymbols d name ++ symbols pieces
  | bind v :: pieces => .value v :: symbols pieces

theorem symbols_append (a b : List Piece) : symbols d (a ++ b) = symbols d a ++ symbols d b := by
  induction a with
  | nil => rfl
  | cons x a ih => cases x <;> simp only [List.cons_append, symbols, ih, List.append_assoc]

theorem symbols_flatMap {α : Type} (f : α → List Piece) (xs : List α) :
    symbols d (xs.flatMap f) = xs.flatMap fun x => symbols d (f x) := by
  induction xs with
  | nil => rfl
  | cons x xs ih => rw [List.flatMap_cons, symbols_append, ih, List.flatMap_cons]

theorem symbols_separated {α : Type} (s : String) (f : α → List Piece) (xs : List α) :
    symbols d (separated s (xs.map f)) =
      (chars s).intercalate (xs.map fun x => symbols d (f x)) := by
  induction xs with
  | nil => rfl
  | cons x xs ih =>
    cases xs with
    | nil => simp [List.intercalate]
    | cons y xs =>
      simp only [List.map_cons] at ih ⊢
      rw [separated_cons_cons, symbols_append, symbols, ih, List.intercalate_cons_cons,
        List.append_assoc]

/-! ## Reading symbols -/

/-- The symbols of segments: quoted text is a part of a name, and any other match stands for the
next value. -/
def symbolsOf : List Segment → List Value → List Symbol
  | [], _ => []
  | .plain c :: segs, vs => .char c :: symbolsOf segs vs
  | .hit s :: segs, vs =>
    if Quoted.startsQuoted s then .part s :: symbolsOf segs vs
    else vs.head?.elim [] (fun v => [.value v]) ++ symbolsOf segs vs.tail

variable {d} {segs : List Segment} {vs : List Value}

theorem symbolsOf_plain (s : List Char) :
    symbolsOf (s.map .plain ++ segs) vs = s.map .char ++ symbolsOf segs vs := by
  induction s with
  | nil => rfl
  | cons x s ih => rw [List.map_cons, List.cons_append, symbolsOf, ih]; rfl

theorem symbolsOf_part (part : List Char) :
    symbolsOf (.hit (d.profile.quoteSegment part) :: segs) vs =
      .part (d.profile.quoteSegment part) :: symbolsOf segs vs := by
  rw [symbolsOf, if_pos]
  simpa using startsQuoted_quoteSegment d part

theorem symbolsOf_name (name : String) :
    symbolsOf (nameSegments d true name ++ segs) vs = nameSymbols d name ++ symbolsOf segs vs := by
  rw [nameSegments, if_pos rfl, nameSymbols]
  induction Text.splitOn '.' name.toList with
  | nil => rfl
  | cons part parts ih =>
    cases parts with
    | nil =>
      simp only [List.map_cons, List.map_nil, List.intercalate_singleton, List.singleton_append]
      exact symbolsOf_part part
    | cons part' parts =>
      simp only [List.map_cons, List.intercalate_cons_cons, List.cons_append,
        List.nil_append] at ih ⊢
      rw [symbolsOf_part, symbolsOf, ih]

theorem symbolsOf_token (style : PlaceholderStyle) (n : Nat) (v : Value) :
    symbolsOf (.hit (style.token n).toList :: segs) (v :: vs) = .value v :: symbolsOf segs vs := by
  have hit := hitsWhere_token style n
  rw [hitsWhere_hit] at hit
  split at hit
  · rename_i bare
    rw [symbolsOf, if_neg (by simpa using bare)]
    rfl
  · cases hit

/-- **The segments of a text and its values are its symbols.** -/
theorem symbolsOf_segments {pieces : List Piece} (plain : ∀ x ∈ pieces, x.Plain) (n : Nat) :
    symbolsOf (segments d true (fun token => [.hit token]) n pieces) (values pieces) =
      symbols d pieces := by
  induction pieces generalizing n with
  | nil => rfl
  | cons x pieces ih =>
    obtain ⟨first, rest⟩ := List.forall_mem_cons.mp plain
    cases x with
    | text s =>
      rw [segments, textSegments, if_neg (head?_ne_of_inert first), symbolsOf_plain,
        values_text_cons, ih rest, symbols]
      rfl
    | ident name => rw [segments, symbolsOf_name, values_ident_cons, ih rest, symbols]
    | bind v =>
      rw [segments, List.singleton_append, values_bind_cons, symbolsOf_token, ih rest, symbols]

/-- **One text and one list of values are of one list of symbols.** -/
theorem symbols_eq_of_spelling_eq {a b : List Piece} (plain : ∀ x ∈ a, x.Plain)
    (plain' : ∀ x ∈ b, x.Plain) (spaced : a.IsChain Spaced) (spaced' : b.IsChain Spaced)
    (text : Writer.spelling d.profile true 0 a = Writer.spelling d.profile true 0 b)
    (bound : values a = values b) : symbols d a = symbols d b := by
  have cut : ∀ pieces : List Piece, (∀ x ∈ pieces, x.Plain) → pieces.IsChain Spaced →
      d.profile.placeholderStyle.scanner.segments
          (Writer.spelling d.profile true 0 pieces).toList =
        segments d true (fun token => [.hit token]) 0 pieces := fun pieces plain spaced =>
    (cuts_spelling (Pattern.triesQuotes_scanner _)
      (fun n _ => PlaceholderStyle.cuts_scanner_token _ n) (fun x hx => Or.inl (plain x hx)) spaced
      0).segments_eq
  rw [← symbolsOf_segments plain 0, ← symbolsOf_segments plain' 0, ← cut a plain spaced,
    ← cut b plain' spaced', text, bound]

end Piece

end BoundSql
