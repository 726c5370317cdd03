import BoundSql.Proofs.Generator.Alignment
import BoundSql.Proofs.Statement.Nested
import BoundSql.Proofs.Statement.Spacing

/-!
# Nothing breaks out of its place

What a generated statement is outside of quoted text, and what its string literals are. Outside of
quoted text stand fixed texts, dots and bare names, and placeholders; that is quiet
(`quiet_residue`), its parentheses are those of the fixed texts (`nesting_residue`), and these are
balanced (`balanced_outside`). String literals are written for text defaults only
(`literals_pieces`), and each reads as the text it was written for (`read_literal`).

Headline: **`confined`**.
-/

namespace BoundSql

namespace Quoted

/-- A text with its quoted parts deleted. -/
def outside (sql : String) : List Char := span.replaceAll (fun _ => []) sql.toList

/-- Whether a text starts with a single quote. -/
def isSingle (s : List Char) : Bool := s.head? == some '\''

/-- The quoted parts of a text that stand in single quotes, from left to right. -/
def literals (sql : String) : List (List Char) := (span.matchesIn sql.toList).filter isSingle

/-- A text with two single quotes in a row read as one. -/
def halved : List Char → List Char
  | '\'' :: '\'' :: s => '\'' :: halved s
  | x :: s => x :: halved s
  | [] => []

/-- The text a string literal stands for. -/
def read (literal : List Char) : String := String.ofList (halved literal.tail.dropLast)

theorem halved_cons_of_ne {x : Char} (h : x ≠ '\'') (s : List Char) :
    halved (x :: s) = x :: halved s := by
  rw [halved]
  intro t e
  exact absurd e h

theorem halved_doubling (s : List Char) : halved (Text.doubling '\'' s) = s := by
  induction s with
  | nil => rfl
  | cons x s ih =>
    by_cases h : x = '\''
    · subst h
      rw [doubling_cons_self, halved, ih]
    · rw [doubling_cons_of_ne h, halved_cons_of_ne h, ih]

end Quoted

/-- **A literal reads as the text it was written for.** -/
theorem ColumnDefault.read_literal (s : String) (booleans : Bool) :
    Quoted.read ((ColumnDefault.text s).literal booleans).toList = s := by
  rw [toList_literal_text, List.cons_append, Quoted.read, List.tail_cons, List.dropLast_concat,
    Quoted.halved_doubling, String.ofList_toList]

namespace Piece

/-! ## Outside of quoted text -/

/-- The segments with the matches deleted. -/
def residue (segs : List Segment) : List Char := segs.flatMap (·.rewritten fun _ => [])

/-- The segments of pieces in a search for quoted text. -/
def spanSegments (d : Dialect) (quoted : Bool) (n : Nat) (a : List Piece) : List Segment :=
  segments d quoted (fun token => token.map .plain) n a

theorem residue_append (a b : List Segment) : residue (a ++ b) = residue a ++ residue b :=
  List.flatMap_append

theorem residue_map_plain (s : List Char) : residue (s.map .plain) = s := by
  rw [residue, List.flatMap_map]
  exact List.flatMap_singleton' s

theorem residue_textSegments (s : String) : residue (textSegments s) = outline (text s) := by
  rw [textSegments, outline]
  split
  · rfl
  · exact residue_map_plain _

/-- Neither breaking out nor a hyphen nor a parenthesis. -/
def Tame (x : Char) : Prop := x ∉ breakouts ∧ x ∉ ['-', '(', ')']

instance (x : Char) : Decidable (Tame x) := inferInstanceAs (Decidable (_ ∧ _))

theorem tame_of_isPart {x : Char} (h : Identifier.isPart x = true) : Tame x := by
  have others : ∀ y ∈ ['-', '(', ')'], Identifier.isPart y = false :=
    Text.forall_mem_of_all (by decide)
  refine ⟨(unmarked_of_isPart h).1, fun hx => ?_⟩
  rw [others x hx] at h
  exact absurd h (by decide)

theorem quiet_of_tame {s : List Char} (h : ∀ x ∈ s, Tame x) : Quiet s :=
  quiet_of_forall fun x hx => ⟨(h x hx).1, fun e => (h x hx).2 (by rw [e]; decide)⟩

theorem flat_of_tame {s : List Char} (h : ∀ x ∈ s, Tame x) : Text.Flat s := fun x hx =>
  ⟨fun e => (h x hx).2 (by rw [e]; decide), fun e => (h x hx).2 (by rw [e]; decide)⟩

theorem tame_name {name : String} (h : IsName name) : ∀ x ∈ name.toList, Tame x := by
  intro x hx
  rcases h x hx with h | rfl
  · exact tame_of_isPart h
  · decide

/-- Of a quoted name the dots are left. -/
theorem mem_residue_quoted {d : Dialect} {parts : List (List Char)} :
    ∀ x ∈ residue ([Segment.plain '.'].intercalate
      (parts.map fun part => [.hit (d.profile.quoteSegment part)])), x = '.' := by
  intro x hx
  obtain ⟨seg, hseg, hx⟩ := List.mem_flatMap.mp hx
  rcases Text.mem_intercalate hseg with rfl | ⟨_, hs, hseg⟩
  · exact List.mem_singleton.mp hx
  · obtain ⟨part, -, rfl⟩ := List.mem_map.mp hs
    rw [List.mem_singleton.mp hseg] at hx
    exact absurd hx List.not_mem_nil

theorem tame_residue_name {name : String} (h : IsName name) (d : Dialect) (quoted : Bool) :
    ∀ x ∈ residue (nameSegments d quoted name), Tame x := by
  unfold nameSegments
  split
  · intro x hx
    rw [mem_residue_quoted x hx]
    decide
  · rw [residue_map_plain]
    exact tame_name h

theorem tame_token (style : PlaceholderStyle) (n : Nat) :
    ∀ x ∈ residue ((style.token n).toList.map .plain), Tame x := by
  obtain ⟨r, hr, alphanum⟩ := style.exists_token_eq n
  have starts : ∀ x ∈ PlaceholderStyle.tokenStarts, Tame x := Text.forall_mem_of_all (by decide)
  rw [residue_map_plain, hr]
  exact List.forall_mem_cons.mpr ⟨starts _ style.start_mem, fun x hx =>
    tame_of_isPart (isPart_of_isAlphanum (alphanum x hx))⟩

section Outside

variable {d : Dialect} {quoted : Bool} {a : List Piece}

theorem quiet_outline {s : String} (h : (text s).Sound) : Quiet (outline (text s)) := by
  rw [outline]
  split
  · exact quiet_nil
  · rename_i bare
    rcases h with h | ⟨_, e, h⟩
    · exact h.toQuiet
    · cases e
      exact absurd (head?_of_isLiteral h) bare

/-- **Outside of quoted text sound pieces are quiet.** -/
theorem quiet_residue (h : ∀ x ∈ a, x.Sound) (n : Nat) :
    Quiet (residue (spanSegments d quoted n a)) := by
  induction a generalizing n with
  | nil => exact quiet_nil
  | cons x a ih =>
    have first := h x List.mem_cons_self
    have ih := ih fun y hy => h y (List.mem_cons_of_mem x hy)
    unfold spanSegments at ih ⊢
    cases x with
    | text s =>
      rw [segments, residue_append, residue_textSegments]
      exact (quiet_outline first).append (ih n)
    | ident name =>
      rw [segments, residue_append]
      exact (quiet_of_tame (tame_residue_name (isName_of_sound first) d quoted)).append (ih n)
    | bind v =>
      rw [segments, residue_append]
      exact (quiet_of_tame (tame_token _ _)).append (ih (n + 1))

/-- **Outside of quoted text the parentheses are those of the fixed texts.** -/
theorem nesting_residue (h : ∀ x ∈ a, x.Sound) (n i : Nat) :
    Text.nesting i (residue (spanSegments d quoted n a)) =
      Text.nesting i (a.flatMap outline) := by
  induction a generalizing n i with
  | nil => rfl
  | cons x a ih =>
    have first := h x List.mem_cons_self
    have ih := ih fun y hy => h y (List.mem_cons_of_mem x hy)
    unfold spanSegments at ih ⊢
    cases x with
    | text s =>
      rw [segments, residue_append, residue_textSegments, Text.nesting_append, List.flatMap_cons,
        Text.nesting_append]
      exact congrArg _ (funext fun j => ih n j)
    | ident name =>
      have flat := flat_of_tame (tame_residue_name (isName_of_sound first) d quoted)
      rw [segments, residue_append, Text.nesting_append, Text.nesting_of_flat flat]
      exact ih n i
    | bind v =>
      have flat := flat_of_tame (tame_token d.profile.placeholderStyle (n + 1))
      rw [segments, residue_append, Text.nesting_append, Text.nesting_of_flat flat]
      exact ih (n + 1) i

end Outside

/-! ## Single quotes -/

/-- The string literal, if the piece is one. -/
def literal? : Piece → Option (List Char)
  | text s => if Quoted.isSingle s.toList then some s.toList else none
  | _ => none

theorem isSingle_quoteSegment (d : Dialect) (part : List Char) :
    Quoted.isSingle (d.profile.quoteSegment part) = false := by
  cases d <;> rfl

theorem hitsWhere_isSingle_text (s : String) :
    hitsWhere Quoted.isSingle (textSegments s) = (literal? (text s)).toList := by
  rw [textSegments, literal?]
  by_cases h : s.toList.head? = some '\''
  · have single : Quoted.isSingle s.toList = true := by
      rw [Quoted.isSingle, h]
      rfl
    rw [if_pos h, hitsWhere_hit, if_pos single, if_pos single]
    rfl
  · have bare : ¬ Quoted.isSingle s.toList = true := fun e => h (eq_of_beq e)
    rw [if_neg h, hitsWhere_map_plain, if_neg bare]
    rfl

/-- **A search for quoted text finds the string literals**, and no others in single quotes. -/
theorem hitsWhere_isSingle (d : Dialect) (quoted : Bool) (n : Nat) (a : List Piece) :
    hitsWhere Quoted.isSingle (spanSegments d quoted n a) = a.filterMap literal? := by
  induction a generalizing n with
  | nil => rfl
  | cons x a ih =>
    unfold spanSegments at ih ⊢
    cases x with
    | text s =>
      rw [segments, hitsWhere_append, hitsWhere_isSingle_text, ih, List.filterMap_cons]
      cases literal? (text s) <;> rfl
    | ident name =>
      rw [segments, hitsWhere_append, hitsWhere_nameSegments (isSingle_quoteSegment d), ih]
      rfl
    | bind v =>
      rw [segments, hitsWhere_append, hitsWhere_map_plain, ih]
      rfl

theorem literal?_of_plain {x : Piece} (h : x.Plain) : x.literal? = none := by
  cases x with
  | text s => exact if_neg fun e => head?_ne_of_inert h (eq_of_beq e)
  | ident name => rfl
  | bind v => rfl

theorem filterMap_literal?_of_plain {a : List Piece} (h : ∀ x ∈ a, x.Plain) :
    a.filterMap literal? = [] :=
  List.filterMap_eq_nil_iff.mpr fun x hx => literal?_of_plain (h x hx)

theorem not_mem_quoteIdentifier {name : String} (h : IsName name) (d : Dialect) :
    '\'' ∉ (d.profile.quoteIdentifier name).toList := by
  intro hx
  have quotes : '\'' ≠ d.profile.openQuote ∧ '\'' ≠ d.profile.closeQuote := by
    cases d <;> decide
  rw [DialectProfile.quoteIdentifier, String.toList_ofList] at hx
  rcases Text.mem_intercalate hx with e | ⟨_, hp, hx⟩
  · exact absurd e (by decide)
  · obtain ⟨part, hpart, rfl⟩ := List.mem_map.mp hp
    rw [DialectProfile.quoteSegment, List.cons_append, List.mem_cons, List.mem_append,
      List.mem_singleton] at hx
    rcases hx with e | hx | e
    · exact quotes.1 e
    · have hx := Text.mem_of_mem_doubling hx
      have := (tame_name h '\'' (Text.exists_mem_splitOn_iff.mp ⟨part, hpart, hx⟩).1).1
      exact this (by decide)
    · exact quotes.2 e

/-- **Plain pieces are spelled without a single quote.** -/
theorem not_mem_spelling {a : List Piece} (h : ∀ x ∈ a, x.Plain) (d : Dialect) (quoted : Bool)
    (n : Nat) : '\'' ∉ (Writer.spelling d.profile quoted n a).toList := by
  have apart : ∀ {s : List Char}, (∀ x ∈ s, x ∉ breakouts) → '\'' ∉ s := fun hs hx =>
    hs _ hx (by decide)
  induction a generalizing n with
  | nil => exact List.not_mem_nil
  | cons x a ih =>
    have first := h x List.mem_cons_self
    have ih := ih fun y hy => h y (List.mem_cons_of_mem x hy)
    cases x with
    | text s =>
      rw [Writer.spelling, String.toList_append, List.mem_append, not_or]
      exact ⟨apart first.unbroken, ih n⟩
    | ident name =>
      rw [Writer.spelling, String.toList_append, List.mem_append, not_or]
      refine ⟨?_, ih n⟩
      split
      · exact not_mem_quoteIdentifier first d
      · exact apart fun x hx => (tame_name first x hx).1
    | bind v =>
      rw [Writer.spelling, String.toList_append, List.mem_append, not_or]
      refine ⟨apart fun x hx => (tame_token d.profile.placeholderStyle (n + 1) x ?_).1, ih (n + 1)⟩
      rw [residue_map_plain]
      exact hx

end Piece

/-! ## The literals of a table -/

/-- The text a column defaults to, if it defaults to one. -/
def ColumnDefinition.textDefault? (c : ColumnDefinition) : Option String :=
  match c.default? with
  | some (.text s) => some s
  | _ => none

/-- The texts that columns default to, in the order of the columns. -/
def CreateTable.textDefaults (q : CreateTable) : List String := q.columns.filterMap (·.textDefault?)

open Piece

theorem ColumnDefinition.literals_pieces {r : Rules} {c : ColumnDefinition}
    (h : r.checkColumnDefinition c = .ok ()) (p : DialectProfile) :
    (c.pieces p).filterMap literal? = c.textDefault?.toList.map fun s =>
      ((ColumnDefault.text s).literal p.supportsBooleanLiterals).toList := by
  rw [pieces_eq, List.filterMap_append, filterMap_literal?_of_plain (plain_headPieces h),
    List.nil_append, textDefault?]
  unfold defaultPieces
  cases c.default? with
  | none => rfl
  | some d =>
    have keyword : (Piece.text " DEFAULT ").literal? = none :=
      literal?_of_plain (plain_fixed rfl)
    rw [List.filterMap_cons_none keyword]
    by_cases h : ∃ s, d = .text s
    · obtain ⟨s, rfl⟩ := h
      refine List.filterMap_cons_some (if_pos ?_)
      rw [ColumnDefault.toList_literal_text]
      rfl
    · have bare := literal?_of_plain
        (ColumnDefault.plain_literal (fun s e => h ⟨s, e⟩) p.supportsBooleanLiterals)
      rw [List.filterMap_cons_none bare]
      cases d with
      | text s => exact absurd ⟨s, rfl⟩ h
      | _ => rfl

theorem CreateTable.literals_pieces {r : Rules} {q : CreateTable}
    (h : r.checkCreateTable q = .ok ()) (p : DialectProfile) :
    (q.pieces p).filterMap literal? = q.textDefaults.map fun s =>
      ((ColumnDefault.text s).literal p.supportsBooleanLiterals).toList := by
  have columns := h
  simp only [Rules.checkCreateTable, bind_eq_ok_iff, judgeAll_eq_ok_iff] at columns
  have column := fun c hc => ColumnDefinition.literals_pieces (columns.2.2.2.1 c hc) p
  have comma : (Piece.text ", ").literal? = none := literal?_of_plain (plain_fixed rfl)
  rw [pieces_eq, List.filterMap_append, List.filterMap_append,
    filterMap_literal?_of_plain (plain_headPieces h),
    filterMap_literal?_of_plain (plain_tailPieces h), List.nil_append, List.append_nil, listed,
    filterMap_separated comma, List.flatMap_congr column, textDefaults, List.map_filterMap,
    List.filterMap_eq_flatMap_toList]
  refine List.flatMap_congr fun c _ => ?_
  cases c.textDefault? <;> rfl

/-! ## Generated statements -/

namespace Statement

variable {r : Rules} {s : Statement}

/-- What a search for quoted text makes of an accepted statement. -/
theorem segments_render (h : r.check s = .ok ()) (d : Dialect) (quoted : Bool) :
    Quoted.span.segments (s.render d quoted).sql.toList =
      spanSegments d quoted 0 (s.pieces d.profile) := by
  have cut : Quoted.span.Cuts (Writer.spelling d.profile quoted 0 (s.pieces d.profile)).toList
      (spanSegments d quoted 0 (s.pieces d.profile)) [] :=
    cuts_spelling Pattern.triesQuotes_span (fun n _ _ => PlaceholderStyle.cuts_span_token _ n)
      (sound_of_check h _) (s.spaced_pieces _) 0
  rw [render, Writer.finish_write_new]
  exact cut.segments_eq

theorem outside_render (h : r.check s = .ok ()) (d : Dialect) (quoted : Bool) :
    Quoted.outside (s.render d quoted).sql =
      residue (spanSegments d quoted 0 (s.pieces d.profile)) := by
  rw [Quoted.outside, Pattern.replaceAll, segments_render h]
  rfl

theorem literals_render (h : r.check s = .ok ()) (d : Dialect) (quoted : Bool) :
    Quoted.literals (s.render d quoted).sql = (s.pieces d.profile).filterMap literal? := by
  rw [Quoted.literals, Pattern.matchesIn, segments_render h]
  exact hitsWhere_isSingle d quoted 0 _

theorem balanced_outside (h : r.check s = .ok ()) (d : Dialect) (quoted : Bool) :
    Text.Balanced (Quoted.outside (s.render d quoted).sql) := by
  refine Text.balanced_of_nesting ?_
  rw [outside_render h, nesting_residue (sound_of_check h _)]
  exact neutral_pieces h _ 0

end Statement

namespace Generator

variable {c : GeneratorConfig} {l : RateLimiter} {s : Statement} {caller : Option String}
  {now : Nat} {q : GeneratedQuery}

/-- **Nothing breaks out of its place.** Outside of its quoted parts a generated text has no
character that breaks out, opens no comment, and closes the parentheses that it opens. Statements
on rows have no single quote at all, and the parts in single quotes of CREATE TABLE statements read
as the text defaults, in the order of the columns. -/
theorem confined (h : (generate c l s caller now).result = .ok q) :
    (∀ x ∈ Quoted.outside q.sql, x ∉ breakouts) ∧
      ¬ ['-', '-'] <:+: Quoted.outside q.sql ∧
      Text.Balanced (Quoted.outside q.sql) ∧
      (s.kind ≠ .createTable → '\'' ∉ q.sql.toList) ∧
      ∀ t, s = .createTable t → (Quoted.literals q.sql).map Quoted.read = t.textDefaults := by
  obtain ⟨accepted, -, rfl⟩ := result_eq_ok_iff.mp h
  have quiet : Quiet (Quoted.outside (s.render c.dialect c.quoteIdentifiers).sql) := by
    rw [Statement.outside_render accepted]
    exact quiet_residue (Statement.sound_of_check accepted _) 0
  refine ⟨quiet.unbroken, quiet.not_infix, Statement.balanced_outside accepted _ _, ?_, ?_⟩
  · intro rows
    rw [Statement.render, Writer.finish_write_new]
    exact not_mem_spelling (Statement.plain_of_check accepted rows _) _ _ 0
  · rintro t rfl
    rw [Statement.literals_render accepted, Statement.pieces,
      CreateTable.literals_pieces accepted, List.map_map]
    have same : ∀ s ∈ t.textDefaults, (Quoted.read ∘ fun s => ((ColumnDefault.text s).literal
        c.dialect.profile.supportsBooleanLiterals).toList) s = s := fun s _ =>
      ColumnDefault.read_literal s _
    rw [List.map_congr_left same, List.map_id']

/-- The parts in single quotes of a table read as its one text default; a statement on rows has
none. -/
theorem confined_samples :
    (Quoted.literals (Samples.pricedItems.render .mySql true).sql).map Quoted.read =
        ["it's $1 or '?'"] ∧
      '\'' ∉ (Samples.teamsBySize.render .msSql true).sql.toList := by
  have priced : (generate (.strict .mySql) (.new {}) Samples.pricedItems none 0).result =
      .ok (Samples.pricedItems.render .mySql true) := result_eq_ok_iff.mpr ⟨rfl, rfl, rfl⟩
  have counted : (generate (.strict .msSql) (.new {}) Samples.teamsBySize none 0).result =
      .ok (Samples.teamsBySize.render .msSql true) := result_eq_ok_iff.mpr ⟨rfl, rfl, rfl⟩
  obtain ⟨-, -, -, -, defaults⟩ := confined priced
  obtain ⟨-, -, -, rows, -⟩ := confined counted
  exact ⟨defaults _ rfl, rows (by decide)⟩

end Generator

end BoundSql
