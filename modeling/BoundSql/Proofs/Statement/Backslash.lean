import Mathlib.Algebra.Ring.Parity
import Mathlib.Data.List.Induction
import BoundSql.Generator
import BoundSql.Proofs.Statement.Soundness

/-!
# Text defaults where a backslash escapes

MySQL reads string literals by a rule of its own: a backslash takes the next character with it, two
quotes in a row are one, and a quote alone closes the literal (`Escaped.behindLiteral?`). The
literal of a text default doubles the quotes of the text and leaves its backslashes alone, so it is
read up to its own end exactly if the backslashes are paired (`Escaped.Paired`): in front of every
quote, and at the end, stands an even number of them (`Escaped.behindQuote?_doubling_iff`).

Headline: **`CreateTable.text_default_read_whole_iff`**. A default that the strict level accepts and
that is not read whole is in `CreateTable.backslash_opens_default`.
-/

namespace BoundSql

open Quoted

namespace Escaped

/-- What follows the quote that closes a literal, where a backslash takes the next character with it
and two quotes in a row are one. -/
def behindQuote? : List Char → Option (List Char)
  | '\\' :: _ :: s => behindQuote? s
  | '\'' :: '\'' :: s => behindQuote? s
  | '\'' :: s => some s
  | _ :: s => behindQuote? s
  | [] => none

/-- What follows the string literal at the start of a text. -/
def behindLiteral? : List Char → Option (List Char)
  | '\'' :: s => behindQuote? s
  | _ => none

/-- The number of backslashes at the end of a text. -/
def backslashes (s : List Char) : Nat := s.foldl (fun n x => if x = '\\' then n + 1 else 0) 0

/-- In front of every quote of a text, and at its end, stands an even number of backslashes. -/
def Paired (s : List Char) : Prop :=
  ∀ a b, s = a ++ b → (∀ x ∈ b.head?, x = '\'') → Even (backslashes a)

variable {s t behind : List Char} {x : Char}

/-! ## Counting -/

theorem even_foldl_iff (a : List Char) {n m : Nat} (h : Even n ↔ Even m) :
    Even (a.foldl (fun n x => if x = '\\' then n + 1 else 0) n) ↔
      Even (a.foldl (fun n x => if x = '\\' then n + 1 else 0) m) := by
  induction a generalizing n m with
  | nil => exact h
  | cons x a ih =>
    simp only [List.foldl_cons]
    split
    · exact ih (by rw [Nat.even_add_one, Nat.even_add_one, h])
    · exact Iff.rfl

theorem backslashes_cons (h : x ≠ '\\') (a : List Char) :
    backslashes (x :: a) = backslashes a := by
  rw [backslashes, List.foldl_cons, if_neg h, backslashes]

/-- A backslash and the character it takes do not change the parity. -/
theorem even_backslashes_pair (x : Char) (a : List Char) :
    Even (backslashes ('\\' :: x :: a)) ↔ Even (backslashes a) := by
  rw [backslashes, List.foldl_cons, List.foldl_cons, if_pos rfl, backslashes]
  split
  · exact even_foldl_iff a (by decide)
  · exact Iff.rfl

theorem paired_nil : Paired [] := by
  intro a b h _
  rw [(List.append_eq_nil_iff.mp h.symm).1]
  exact Even.zero

theorem paired_cons (h : x ≠ '\\') : Paired (x :: s) ↔ Paired s := by
  constructor
  · intro paired a b split quote
    rw [← backslashes_cons h]
    exact paired (x :: a) b (congrArg (x :: ·) split) quote
  · intro paired a b split quote
    cases a with
    | nil => exact Even.zero
    | cons y a =>
      obtain ⟨rfl, rest⟩ := List.cons_eq_cons.mp split
      rw [backslashes_cons h]
      exact paired a b rest quote

theorem paired_pair (h : x ≠ '\'') : Paired ('\\' :: x :: s) ↔ Paired s := by
  constructor
  · intro paired a b split quote
    rw [← even_backslashes_pair x]
    exact paired ('\\' :: x :: a) b (congrArg (fun r => '\\' :: x :: r) split) quote
  · intro paired a b split quote
    match a with
    | [] => exact Even.zero
    | [y] =>
      obtain ⟨-, rfl⟩ := List.cons_eq_cons.mp split
      exact absurd (quote x rfl) h
    | y :: z :: a =>
      obtain ⟨first, rest⟩ := List.cons_eq_cons.mp split
      obtain ⟨-, rest⟩ := List.cons_eq_cons.mp rest
      rw [← first, even_backslashes_pair]
      exact paired a b rest quote

/-- A backslash in front of a quote or at the end has no partner. -/
theorem not_paired (h : ∀ x ∈ s.head?, x = '\'') : ¬ Paired ('\\' :: s) := by
  intro paired
  exact absurd (paired ['\\'] s rfl h) (by decide)

/-! ## Reading -/

theorem length_lt_of_behindQuote? (h : behindQuote? s = some t) : t.length < s.length := by
  fun_induction behindQuote? s with
  | case1 y s ih => have := ih h; simp only [List.length_cons]; omega
  | case2 s ih => have := ih h; simp only [List.length_cons]; omega
  | case3 s => cases h; simp
  | case4 y s _ _ _ ih => have := ih h; simp only [List.length_cons]; omega
  | case5 => cases h

theorem behindQuote?_ne (h : s.length ≤ t.length) : behindQuote? s ≠ some t := fun e => by
  have := length_lt_of_behindQuote? e
  omega

theorem behindQuote?_cons (h : x ≠ '\\') (h' : x ≠ '\'') (s : List Char) :
    behindQuote? (x :: s) = behindQuote? s := by
  rw [behindQuote?]
  · exact fun _ _ e => absurd e h
  · exact fun _ e => absurd e h'
  · exact fun e => absurd e h'

theorem behindQuote?_quote (h : ∀ x ∈ s.head?, x ≠ '\'') : behindQuote? ('\'' :: s) = some s := by
  rw [behindQuote?]
  rintro t rfl
  exact h '\'' rfl rfl

/-- A quote too many is never made good. -/
theorem behindQuote?_quote_doubling_ne (t behind : List Char) :
    behindQuote? ('\'' :: (Text.doubling '\'' t ++ '\'' :: behind)) ≠ some behind := by
  induction t with
  | nil =>
    intro h
    rw [Text.doubling, List.flatMap_nil, List.nil_append, behindQuote?] at h
    exact behindQuote?_ne le_rfl h
  | cons x t ih =>
    by_cases quote : x = '\''
    · subst quote
      rw [doubling_cons_self, List.cons_append, List.cons_append, behindQuote?]
      exact ih
    · rw [doubling_cons_of_ne quote, List.cons_append, behindQuote?_quote (by simpa using quote)]
      intro h
      have := congrArg (Option.map List.length) h
      simp at this
      omega

/-- **A literal is read whole if its backslashes are paired.** -/
theorem behindQuote?_doubling_iff (hb : ∀ x ∈ behind.head?, x ≠ '\'') :
    behindQuote? (Text.doubling '\'' s ++ '\'' :: behind) = some behind ↔ Paired s := by
  -- A backslash takes one more character with it, so the induction goes two characters back.
  induction s using List.twoStepInduction with
  | nil => exact iff_of_true (behindQuote?_quote hb) paired_nil
  | singleton x =>
    by_cases backslash : x = '\\'
    · subst backslash
      have unclosed : behindQuote? behind ≠ some behind := behindQuote?_ne le_rfl
      exact iff_of_false unclosed (not_paired (by simp))
    by_cases quote : x = '\''
    · subst quote
      rw [paired_cons backslash]
      exact iff_of_true (behindQuote?_quote hb) paired_nil
    · rw [doubling_cons_of_ne quote, List.cons_append, behindQuote?_cons backslash quote,
        paired_cons backslash]
      exact iff_of_true (behindQuote?_quote hb) paired_nil
  | cons_cons x y s ih ih' =>
    by_cases backslash : x = '\\'
    · subst backslash
      by_cases quote : y = '\''
      · subst quote
        exact iff_of_false (behindQuote?_quote_doubling_ne s behind) (not_paired (by simp))
      · rw [paired_pair quote, ← ih, doubling_cons_of_ne (by decide), doubling_cons_of_ne quote]
        rfl
    rw [paired_cons backslash, ← ih' y]
    by_cases quote : x = '\''
    · subst quote
      rw [doubling_cons_self]
      rfl
    · rw [doubling_cons_of_ne quote, List.cons_append, behindQuote?_cons backslash quote]

end Escaped

/-! ## The place of a default -/

open Piece

namespace CreateTable

variable {t : CreateTable} {cs ds : List ColumnDefinition} {c : ColumnDefinition} {s : String}

/-- What a table writes in front of the default of the column `c`, when the columns `cs` come
before it. -/
def untilDefault (p : DialectProfile) (t : CreateTable) (cs : List ColumnDefinition)
    (c : ColumnDefinition) : List Piece :=
  t.headPieces ++ (cs.map (·.pieces p)).flatMap (· ++ [text ", "]) ++ c.headPieces ++
    [text " DEFAULT "]

/-- What a table writes behind the default of a column, when the columns `ds` come after it. -/
def fromDefault (p : DialectProfile) (t : CreateTable) (ds : List ColumnDefinition) : List Piece :=
  (ds.map (·.pieces p)).flatMap (text ", " :: ·) ++ t.tailPieces

theorem pieces_eq_of_default (p : DialectProfile) (columns : t.columns = cs ++ c :: ds)
    (default : c.default? = some (.text s)) :
    t.pieces p = t.untilDefault p cs c ++
      text ((ColumnDefault.text s).literal p.supportsBooleanLiterals) :: t.fromDefault p ds := by
  rw [pieces_eq, columns, List.map_append, List.map_cons, listed, separated_append_cons,
    ColumnDefinition.pieces_eq, ColumnDefinition.defaultPieces, default, untilDefault, fromDefault]
  simp only [List.append_assoc, List.cons_append, List.nil_append]

/-- Behind a default comes the next column, a key or the end. -/
theorem exists_fromDefault_eq (p : DialectProfile) (t : CreateTable) (ds : List ColumnDefinition) :
    ∃ u ∈ [", ", ", PRIMARY KEY (", ", FOREIGN KEY (", ")"], ∃ rest,
      t.fromDefault p ds = text u :: rest := by
  cases ds with
  | cons d ds => exact ⟨", ", by decide, _, rfl⟩
  | nil =>
    rw [fromDefault, List.map_nil, List.flatMap_nil, List.nil_append, tailPieces, keyPieces]
    split
    · cases t.foreignKeys with
      | nil => exact ⟨")", by decide, _, rfl⟩
      | cons key keys => exact ⟨", FOREIGN KEY (", by decide, _, rfl⟩
    · exact ⟨", PRIMARY KEY (", by decide, _, rfl⟩

/-- No quote follows a default. -/
theorem head?_fromDefault_ne (p : DialectProfile) (quoted : Bool) (n : Nat) (t : CreateTable)
    (ds : List ColumnDefinition) :
    ∀ x ∈ (Writer.spelling p quoted n (t.fromDefault p ds)).toList.head?, x ≠ '\'' := by
  obtain ⟨u, hu, rest, e⟩ := t.exists_fromDefault_eq p ds
  have opens : ∀ v ∈ [", ", ", PRIMARY KEY (", ", FOREIGN KEY (", ")"],
      v.toList.head? = some ',' ∨ v.toList.head? = some ')' := by decide
  intro x hx
  rw [e, Writer.spelling, String.toList_append, List.head?_append] at hx
  rcases opens u hu with comma | bracket
  · rw [comma] at hx
    exact Option.some.inj hx ▸ by decide
  · rw [bracket] at hx
    exact Option.some.inj hx ▸ by decide

/-- **Where a text default stands** in the text of a table. -/
theorem sql_eq_of_default (columns : t.columns = cs ++ c :: ds)
    (default : c.default? = some (.text s)) (d : Dialect) (quoted : Bool) :
    let before := t.untilDefault d.profile cs c
    ((Statement.createTable t).render d quoted).sql =
      Writer.spelling d.profile quoted 0 before ++
        ((ColumnDefault.text s).literal d.profile.supportsBooleanLiterals ++
          Writer.spelling d.profile quoted (0 + (values before).length)
            (t.fromDefault d.profile ds)) := by
  rw [Statement.render, Writer.finish_write_new, Statement.pieces,
    pieces_eq_of_default _ columns default, Writer.spelling_append, Writer.spelling]

/-- **A text default is read whole if its backslashes are paired, and else it is not**: read by the
rule of MySQL from its opening quote, the literal ends where the rest of the statement begins. -/
theorem text_default_read_whole_iff (columns : t.columns = cs ++ c :: ds)
    (default : c.default? = some (.text s)) (quoted : Bool) :
    ∃ behind : List Char,
      ((Statement.createTable t).render .mySql quoted).sql.toList =
        (Writer.spelling Dialect.mySql.profile quoted 0
          (t.untilDefault Dialect.mySql.profile cs c)).toList ++
          (((ColumnDefault.text s).literal true).toList ++ behind) ∧
      (Escaped.behindLiteral? (((ColumnDefault.text s).literal true).toList ++ behind) =
        some behind ↔ Escaped.Paired s.toList) := by
  set p := Dialect.mySql.profile
  set bound := (values (t.untilDefault p cs c)).length
  refine ⟨(Writer.spelling p quoted (0 + bound) (t.fromDefault p ds)).toList, ?_, ?_⟩
  · rw [sql_eq_of_default columns default, String.toList_append, String.toList_append]
    rfl
  · rw [ColumnDefault.toList_literal_text, List.cons_append, List.cons_append,
      Escaped.behindLiteral?, List.append_assoc, List.singleton_append]
    exact Escaped.behindQuote?_doubling_iff (head?_fromDefault_ne _ quoted _ t ds)

end CreateTable

namespace Samples

/-- A column whose default doubles its backslashes. -/
def homeColumn : ColumnDefinition :=
  { name := "home", dataType := "TEXT", default? := some (.text "it's C:\\\\") }

/-- A table whose first default ends with a backslash. -/
def folders : CreateTable :=
  { table := "folders"
    columns :=
      [{ name := "root", dataType := "TEXT", default? := some (.text "C:\\") },
        { name := "note", dataType := "TEXT", default? := some (.text ", seen INT) --") }] }

end Samples

namespace CreateTable

/-- A default between two other columns. -/
theorem text_default_read_whole_iff_sample :
    let t := { Samples.folders with columns := Samples.folders.columns ++ [Samples.homeColumn] }
    let literal := ((ColumnDefault.text "it's C:\\\\").literal true).toList
    Samples.homeColumn.default? = some (.text "it's C:\\\\") ∧
      ∃ behind : List Char,
        ((Statement.createTable t).render .mySql true).sql.toList =
          (Writer.spelling Dialect.mySql.profile true 0
            (t.untilDefault Dialect.mySql.profile Samples.folders.columns
              Samples.homeColumn)).toList ++ (literal ++ behind) ∧
        (Escaped.behindLiteral? (literal ++ behind) = some behind ↔
          Escaped.Paired "it's C:\\\\".toList) :=
  ⟨rfl, text_default_read_whole_iff rfl rfl true⟩

/-- **A backslash at the end opens the literal to what follows it.** The strict level accepts the
table, and the literal of its first default ends in the middle of the second. -/
theorem backslash_opens_default :
    (GeneratorConfig.strict .mySql).rules.checkCreateTable Samples.folders = .ok () ∧
      ((Statement.createTable Samples.folders).render .mySql true).sql =
        "CREATE TABLE `folders` (`root` TEXT DEFAULT " ++
          "'C:\\', `note` TEXT DEFAULT ', seen INT) --')" ∧
      Escaped.behindLiteral? "'C:\\', `note` TEXT DEFAULT ', seen INT) --')".toList =
        some ", seen INT) --')".toList :=
  ⟨rfl, by decide +kernel, by decide +kernel⟩

end CreateTable

end BoundSql
