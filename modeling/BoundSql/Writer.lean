import BoundSql.Dialect.Placeholder

/-!
# Writing statements

A statement is written piece by piece: fixed text, identifiers, and values to bind. Only a writer
knows the dialect and whether identifiers are quoted; it spells identifiers and placeholders and
collects the bound values. Main statements: what is written is spelled piece after piece
(`sql_write`), and the parameters are the bound values of the pieces (`parameters_write`).
-/

namespace BoundSql

/-- A piece of a statement. -/
inductive Piece
  | text (s : String)
  | ident (name : String)
  | bind (v : Value)
  deriving Repr

namespace Piece

/-- The value a piece binds. -/
def value? : Piece → Option Value
  | bind v => some v
  | _ => none

/-- The values bound by pieces, in order. -/
def values (pieces : List Piece) : List Value := pieces.filterMap value?

/-- Pieces in a row with a text between them. -/
def separated (separator : String) (groups : List (List Piece)) : List Piece :=
  [text separator].intercalate groups

/-- Pieces in a row with commas between them. -/
def listed (groups : List (List Piece)) : List Piece := separated ", " groups

/-- Identifiers with commas between them. -/
def idents (names : List String) : List Piece := listed (names.map fun name => [ident name])

theorem values_append (a b : List Piece) : values (a ++ b) = values a ++ values b :=
  List.filterMap_append

@[simp] theorem values_nil : values [] = [] := rfl

@[simp] theorem values_text_cons (s : String) (a : List Piece) :
    values (text s :: a) = values a := rfl

@[simp] theorem values_ident_cons (name : String) (a : List Piece) :
    values (ident name :: a) = values a := rfl

@[simp] theorem values_bind_cons (v : Value) (a : List Piece) :
    values (bind v :: a) = v :: values a := rfl

@[simp] theorem separated_singleton (s : String) (g : List Piece) : separated s [g] = g :=
  List.intercalate_singleton

theorem separated_cons_cons (s : String) (g h : List Piece) (gs : List (List Piece)) :
    separated s (g :: h :: gs) = g ++ text s :: separated s (h :: gs) := by
  rw [separated, List.intercalate_cons_cons, List.append_assoc]
  rfl

theorem separated_cons (separator : String) (g : List Piece) (hs : List (List Piece)) :
    separated separator (g :: hs) = g ++ hs.flatMap (text separator :: ·) := by
  rw [separated, Text.intercalate_cons, List.flatMap_def]
  rfl

/-- Pieces in a row, taken apart at one of the groups. -/
theorem separated_append_cons (separator : String) (gs : List (List Piece)) (g : List Piece)
    (hs : List (List Piece)) :
    separated separator (gs ++ g :: hs) =
      gs.flatMap (· ++ [text separator]) ++ (g ++ hs.flatMap (text separator :: ·)) := by
  induction gs with
  | nil => exact separated_cons separator g hs
  | cons g' gs ih =>
    obtain ⟨h, rest, e⟩ := List.exists_cons_of_ne_nil (List.append_ne_nil_of_right_ne_nil gs
      (List.cons_ne_nil g hs))
    rw [List.cons_append, e, separated_cons_cons, ← e, ih, List.flatMap_cons]
    simp only [List.append_assoc, List.cons_append, List.nil_append]

end Piece

/-- The text of a statement with the values bound in it. -/
structure GeneratedQuery where
  sql : String
  parameters : List Value
  dialect : Dialect
  deriving Repr

/-- The number of placeholders in the text. -/
def GeneratedQuery.placeholderCount (q : GeneratedQuery) : Nat :=
  (q.dialect.profile.placeholderStyle.tokens q.sql).length

/-- A statement being written. -/
structure Writer where
  dialect : Dialect
  quotesIdentifiers : Bool
  sql : String := ""
  placeholders : Placeholders
  deriving Repr

namespace Writer

/-- A writer that has written nothing. -/
def new (dialect : Dialect) (quotesIdentifiers : Bool) : Writer :=
  { dialect, quotesIdentifiers, placeholders := { style := dialect.profile.placeholderStyle } }

/-- An identifier as the writer spells it. -/
def spellIdent (w : Writer) (name : String) : String :=
  if w.quotesIdentifiers then w.dialect.profile.quoteIdentifier name else name

/-- Writes one piece. -/
def put (w : Writer) : Piece → Writer
  | .text s => { w with sql := w.sql ++ s }
  | .ident name => { w with sql := w.sql ++ w.spellIdent name }
  | .bind v =>
    let (token, placeholders) := w.placeholders.bind v
    { w with sql := w.sql ++ token, placeholders }

/-- Writes pieces one after the other. -/
def write (w : Writer) (pieces : List Piece) : Writer := pieces.foldl put w

/-- The statement written. -/
def finish (w : Writer) : GeneratedQuery :=
  { sql := w.sql, parameters := w.placeholders.parameters, dialect := w.dialect }

/-! ## What is written -/

/-- The spelling of pieces under a profile, when so many values are bound before them. -/
def spelling (profile : DialectProfile) (quoted : Bool) : Nat → List Piece → String
  | _, [] => ""
  | n, .text s :: pieces => s ++ spelling profile quoted n pieces
  | n, .ident name :: pieces =>
    (if quoted then profile.quoteIdentifier name else name) ++ spelling profile quoted n pieces
  | n, .bind _ :: pieces =>
    profile.placeholderStyle.token (n + 1) ++ spelling profile quoted (n + 1) pieces

/-- Pieces in a row are spelled one after the other. -/
theorem spelling_append (profile : DialectProfile) (quoted : Bool) (n : Nat) (a b : List Piece) :
    spelling profile quoted n (a ++ b) = spelling profile quoted n a ++
      spelling profile quoted (n + (Piece.values a).length) b := by
  induction a generalizing n with
  | nil => simp only [List.nil_append, spelling, Piece.values_nil, String.empty_append]; rfl
  | cons x a ih =>
    rw [List.cons_append]
    cases x with
    | text s => rw [spelling, spelling, ih, String.append_assoc, Piece.values_text_cons]
    | ident name => rw [spelling, spelling, ih, String.append_assoc, Piece.values_ident_cons]
    | bind v =>
      rw [spelling, spelling, ih, String.append_assoc, Piece.values_bind_cons, List.length_cons,
        Nat.add_assoc, Nat.add_comm 1]

theorem parameters_write (w : Writer) (pieces : List Piece) :
    (w.write pieces).placeholders.parameters =
      w.placeholders.parameters ++ Piece.values pieces := by
  induction pieces generalizing w with
  | nil => simp [write, Piece.values]
  | cons p pieces ih =>
    have step : w.write (p :: pieces) = (w.put p).write pieces := rfl
    rw [step, ih]
    cases p <;> simp [put, Piece.values, Piece.value?, List.filterMap_cons]

theorem sql_write (w : Writer) (pieces : List Piece)
    (h : w.placeholders.style = w.dialect.profile.placeholderStyle) :
    (w.write pieces).sql = w.sql ++
      spelling w.dialect.profile w.quotesIdentifiers w.placeholders.size pieces := by
  induction pieces generalizing w with
  | nil => simp [write, spelling]
  | cons p pieces ih =>
    have step : w.write (p :: pieces) = (w.put p).write pieces := rfl
    rw [step]
    cases p with
    | text s =>
      rw [ih (w.put (.text s)) h]
      simp [put, spelling, String.append_assoc]
    | ident name =>
      rw [ih (w.put (.ident name)) h]
      simp [put, spelling, spellIdent, String.append_assoc]
    | bind v =>
      rw [ih (w.put (.bind v)) h]
      simp [put, spelling, Placeholders.bind, Placeholders.size, h, String.append_assoc]

/-- **What a fresh writer writes.** -/
theorem finish_write_new (dialect : Dialect) (quoted : Bool) (pieces : List Piece) :
    ((new dialect quoted).write pieces).finish =
      { sql := spelling dialect.profile quoted 0 pieces
        parameters := Piece.values pieces
        dialect } := by
  have hd : ∀ (w : Writer) (ps : List Piece), (w.write ps).dialect = w.dialect := by
    intro w ps
    induction ps generalizing w with
    | nil => rfl
    | cons p ps ih =>
      have step : w.write (p :: ps) = (w.put p).write ps := rfl
      rw [step, ih]
      cases p <;> rfl
  have hs := sql_write (new dialect quoted) pieces rfl
  have hp := parameters_write (new dialect quoted) pieces
  simp only [finish, hd]
  rw [hs, hp]
  simp [new, Placeholders.size]

end Writer

end BoundSql
