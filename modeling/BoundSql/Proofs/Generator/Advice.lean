import BoundSql.Analysis
import BoundSql.Proofs.Generator.Alignment
import BoundSql.Proofs.Pattern.Occurrence
import BoundSql.Proofs.Statement.BenignSpelling

/-!
# The advice on generated text

Nothing in a benign text calls for a warning but one, that it changes every row
(`Benign.warnings_eq`). Three of the warnings need a character that is not there, two need a word,
and one needs a literal behind an operator. What an accepted statement on rows comes to at
the strict level is benign (`Statement.benign_of_check`), so what is left is whether it starts as a
change (`occursIn_rowChange`) and whether it has a WHERE (`occursIn_whereKeyword`).

Headline: **`Generator.advice_agrees`**.
-/

namespace BoundSql

open Pattern Analysis

variable {taboo : List String} {sql : List Char}

/-! ## Characters and words that are not there -/

theorem Benign.not_occursIn {p : Pattern} (h : Benign taboo sql) (cs : List Char)
    (needs : p.needs cs = true) (sub : cs.all suspects.contains = true) : p.occursIn sql = false :=
  not_occursIn_of_needs needs fun x hx hc => (h.unsuspicious x hx).2
    (List.contains_iff_mem.mp (List.all_eq_true.mp sub x hc))

theorem Benign.not_occursIn_keywords {word : String} {words : List String} (h : Benign taboo sql)
    (small : ∀ w ∈ word :: words, w ≠ "" ∧ w.toList.all Char.isLower = true)
    (sub : ∀ w ∈ word :: words, w ∈ taboo) :
    (wholeWord (keywords (word :: words))).occursIn sql = false := by
  rw [Bool.eq_false_iff]
  intro occurs
  obtain ⟨w, hw, k, hk, folds⟩ := exists_mem_wholeWords_of_keywords small occurs
  exact h.avoids w hw k (sub k hk) folds

/-! ## Comparisons -/

namespace Analysis

/-- The operators that a warning looks for a literal behind. -/
def operators : List Pattern :=
  [char '=', literal "<>", literal "!=", char '<', char '>', wholeWord (keyword "like"),
    cat [boundary, keyword "in", blank, char '(']]

/-- A literal text or number, as far as a warning looks at it. -/
def literalStart : Pattern := alt (char '\'') (seq (opt (char '-')) (one .digit))

/-- Behind an operator something can be compared, and behind a LIKE the word has ended. -/
theorem exists_compares_of_mem_ends {p : Pattern} {c e : Cursor} (hp : p ∈ operators)
    (h : e ∈ p.ends c) : ∃ s x, Reads c s e ∧ x ∈ s.getLast? ∧ Compares x ∧
      (Identifier.isPart x = true → e.atBoundary = true) := by
  have kinds : ∀ p ∈ operators, p = wholeWord (keyword "like") ∨
      p.closes ['=', '<', '>', '('] = true := by decide
  obtain ⟨s, spells, reads⟩ := exists_spells_of_mem_ends h
  rcases kinds p hp with rfl | closes
  · obtain ⟨-, match_, ended⟩ := mem_ends_wholeWord.mp h
    obtain ⟨w, folds, reads⟩ := exists_spells_of_mem_ends match_
    have last := congrArg List.getLast? (spells_keyword.mp folds)
    rw [List.getLast?_map] at last
    obtain ⟨x, hx, fold⟩ := Option.map_eq_some_iff.mp last
    exact ⟨w, x, reads, hx, Or.inr fold, fun _ => ended⟩
  · obtain ⟨x, hx, symbol⟩ := exists_last_of_closes closes spells
    have symbols : ∀ y ∈ ['=', '<', '>', '('], Identifier.isPart y = false :=
      Text.forall_mem_of_all (by decide)
    refine ⟨s, x, reads, hx, Or.inl symbol, fun part => ?_⟩
    exact absurd ((symbols x symbol).symm.trans part) (by decide)

/-- A literal starts with a suspect or with a digit. -/
theorem exists_start_of_spells {s : List Char} (h : literalStart.Spells s) :
    ∃ x rest, s = x :: rest ∧ (x ∈ suspects ∨ Text.isDecimalDigit x = true) := by
  rcases h with ⟨x, quote, rfl⟩ | ⟨a, b, sign, ⟨y, digit, rfl⟩, rfl⟩
  · rw [CharClass.has_only, beq_iff_eq] at quote
    exact ⟨x, [], rfl, Or.inl (quote ▸ by decide)⟩
  · rcases sign with ⟨x, hyphen, rfl⟩ | rfl
    · rw [CharClass.has_only, beq_iff_eq] at hyphen
      exact ⟨x, [y], rfl, Or.inl (hyphen ▸ by decide)⟩
    · exact ⟨y, [], rfl, Or.inr digit⟩

/-- A comparison that occurs: an operator, white space or none, and the start of a literal. -/
theorem exists_of_occursIn_comparison {tail : List Char} (h : comparison.occursIn tail = true) :
    ∃ before x white y behind, tail = before ++ white ++ y :: behind ∧
      x ∈ before.getLast? ∧ Compares x ∧ (∀ z ∈ white, Text.isWhiteSpace z = true) ∧
      (y ∈ suspects ∨ Text.isDecimalDigit y = true) ∧
      (white = [] → Identifier.isPart x = true → Text.isWordChar y = false) := by
  obtain ⟨before, c, d, rfl, -, hd⟩ := exists_mem_ends_of_occursIn h
  obtain ⟨e, he, hd⟩ := mem_ends_seq.mp (show d ∈ (seq (oneOf (char '=') operators.tail)
    (seq blank literalStart)).ends c from hd)
  obtain ⟨f, hf, hd⟩ := mem_ends_seq.mp hd
  obtain ⟨p, hp, he⟩ := mem_ends_oneOf.mp he
  obtain ⟨s, x, ⟨rest, prev⟩, hx, compares, ended⟩ := exists_compares_of_mem_ends hp he
  obtain ⟨white, blanks, rest', -⟩ := exists_spells_of_mem_ends hf
  obtain ⟨l, starts, rest'', -⟩ := exists_spells_of_mem_ends hd
  obtain ⟨y, more, rfl, literal⟩ := exists_start_of_spells starts
  refine ⟨before ++ s, x, white, y, more ++ d.rest, ?_, ?_, compares, blanks, literal, ?_⟩
  · rw [rest, rest', rest'', List.cons_append]
    simp only [List.append_assoc]
  · rw [List.getLast?_append, Option.mem_def.mp hx]
    rfl
  · rintro rfl part
    refine not_isWordChar_head? (ended part) (x := x) ?_ (isWordChar_of_isPart part) y ?_
    · rw [prev, Option.mem_def.mp hx]
      rfl
    · rw [rest', rest'']
      rfl

end Analysis

/-- What is compared behind is visible. -/
theorem isWhiteSpace_of_compares {x : Char} (ascii : x.toNat < 128) (h : Compares x) :
    Text.isWhiteSpace x = false := by
  rcases h with symbol | fold
  · have symbols : ∀ y ∈ ['=', '<', '>', '('], Text.isWhiteSpace y = false :=
      Text.forall_mem_of_all (by decide)
    exact symbols x symbol
  · have word := Text.isWordChar_of_caseFold (x := x) (by rw [fold]; decide)
    rw [Text.isWordChar_of_lt ascii] at word
    exact isWhiteSpace_of_isPart word

/-- **Nothing is compared with a literal in a benign text**, from wherever it is read. -/
theorem Benign.not_occursIn_comparison {tail : List Char} (h : Benign taboo sql)
    (suffix : tail <:+ sql) : comparison.occursIn tail = false := by
  rw [Bool.eq_false_iff]
  intro occurs
  obtain ⟨start, rfl⟩ := suffix
  obtain ⟨before, x, white, y, behind, rfl, hx, compares, blanks, literal, ended⟩ :=
    exists_of_occursIn_comparison occurs
  have whole : start ++ (before ++ white ++ y :: behind) =
      (start ++ before ++ white) ++ y :: behind := by simp only [List.append_assoc]
  rw [whole] at h
  obtain ⟨ascii, suspect⟩ := h.unsuspicious y (by simp)
  have digit : y.isDigit = true := by
    have := literal.resolve_left suspect
    rwa [Text.isDecimalDigit, if_pos ascii] at this
  have visible : Text.isWhiteSpace x = false := by
    refine isWhiteSpace_of_compares (h.unsuspicious x ?_).1 compares
    simp [List.mem_of_getLast? hx]
  rcases h.anchored _ y behind rfl digit with ⟨z, hz, part⟩ | ⟨z, hz, apart⟩
  · -- the digit follows a word character at once, so the operator is a LIKE that has ended
    rcases List.eq_nil_or_concat' white with rfl | ⟨white, w, rfl⟩
    · rw [List.append_nil, List.getLast?_append, Option.mem_def.mp hx, Option.some_or,
        Option.mem_some_iff] at hz
      subst hz
      exact absurd ((ended rfl part).symm.trans (Text.isWordChar_of_isDigit digit)) (by decide)
    · rw [← List.append_assoc, List.getLast?_concat, Option.mem_some_iff] at hz
      subst hz
      exact absurd ((isWhiteSpace_of_isPart part).symm.trans (blanks w (by simp))) (by decide)
  · -- white space apart, what stands before the digit is the end of the operator
    rw [lastVisible?_append, lastVisible?_of_blank blanks, Option.none_or, lastVisible?_append,
      lastVisible?_of_getLast? hx visible, Option.some_or, Option.mem_some_iff] at hz
    exact apart (hz ▸ compares)

/-! ## The warnings on benign texts -/

/-- **A benign text calls for no warning but that it changes every row.** -/
theorem Benign.warnings_eq {sql : String} (h : Benign alarms sql.toList) :
    warnings sql = if Warning.everyRow.holds sql.toList then [.everyRow] else [] := by
  have concatenated : Warning.stringConcatenation.holds sql.toList = false :=
    h.not_occursIn ['\''] rfl rfl
  have compared : Warning.literalComparison.holds sql.toList = false := by
    rw [Warning.holds]
    cases tail : whereTail? sql.toList with
    | none => rfl
    | some t => simp [h.not_occursIn_comparison (isSuffix_of_tailAfter? tail)]
  have destroyed : (wholeWord (keywords ["drop", "truncate"])).occursIn sql.toList = false :=
    h.not_occursIn_keywords (by decide) (by decide)
  have united : (wholeWord (keywords ["union"])).occursIn sql.toList = false :=
    h.not_occursIn_keywords (by decide) (by decide)
  have commented : Warning.trailingComment.holds sql.toList = false :=
    h.not_occursIn ['-', '#', '/'] rfl rfl
  have followed : Warning.severalStatements.holds sql.toList = false :=
    h.not_occursIn [';'] rfl rfl
  have destructive : Warning.destructive.holds sql.toList = false := destroyed
  have union : Warning.union.holds sql.toList = false := united
  simp only [warnings, Warning.all, List.filter_cons, List.filter_nil, concatenated, compared,
    destructive, union, commented, followed, Bool.false_eq_true, if_false]

/-! ## Whether every row is changed -/

/-- A text does not start as a change if its first character is neither white space nor the first
letter of one. -/
theorem not_occursIn_rowChange {x : Char} {rest : List Char}
    (visible : Text.isWhiteSpace x = false) (letter : Text.caseFold x ∉ ['u', 'd']) :
    rowChange.occursIn (x :: rest) = false := by
  rw [Bool.eq_false_iff]
  intro occurs
  obtain ⟨c, d, whole, hd⟩ := exists_mem_ends_of_start occurs
  obtain ⟨_, ⟨white, _, blanks, ⟨verb, _, spells, -, rfl⟩, rfl⟩, reads, -⟩ :=
    exists_spells_of_mem_ends hd
  rw [whole] at reads
  obtain ⟨k, hk, folds⟩ := spells_keywords.mp spells
  have initial : ∃ y ys, k.toList = y :: ys ∧ y ∈ ['u', 'd'] := by
    rcases List.mem_pair.mp hk with rfl | rfl
    · exact ⟨'u', _, rfl, by decide⟩
    · exact ⟨'d', _, rfl, by decide⟩
  obtain ⟨y, ys, hy, small⟩ := initial
  rw [hy] at folds
  cases white with
  | cons z white =>
    rw [List.cons_append, List.cons_append, List.cons.injEq] at reads
    rw [reads.1] at visible
    exact absurd (visible.symm.trans (blanks z List.mem_cons_self)) (by decide)
  | nil =>
    cases verb with
    | nil => cases folds
    | cons z verb =>
      rw [List.nil_append, List.cons_append, List.cons_append, List.cons.injEq] at reads
      rw [List.map_cons, List.cons.injEq, ← reads.1] at folds
      exact letter (folds.1 ▸ small)

/-- **A SELECT or an INSERT does not start as a change.** -/
theorem not_occursIn_rowChange_of_verb {verb : String}
    (h : verb = "SELECT " ∨ verb = "INSERT INTO ") (rest : List Char) :
    rowChange.occursIn (verb.toList ++ rest) = false := by
  rcases h with rfl | rfl
  · exact not_occursIn_rowChange (x := 'S') (by decide) (by decide)
  · exact not_occursIn_rowChange (x := 'I') (by decide) (by decide)

/-- **An UPDATE or a DELETE starts as a change.** -/
theorem occursIn_rowChange {verb : String} (h : verb = "UPDATE " ∨ verb = "DELETE FROM ")
    (rest : List Char) : rowChange.occursIn (verb.toList ++ rest) = true := by
  have starts : rowChange.ends ⟨0, none, verb.toList ++ rest⟩ ≠ [] := by
    rcases h with rfl | rfl <;> exact List.cons_ne_nil _ _
  exact @occursIn_of_mem_ends rowChange [] _ starts

/-- **A WHERE between spaces occurs.** -/
theorem occursIn_whereKeyword (before behind : List Char) :
    whereKeyword.occursIn (before ++ [' '] ++ ("WHERE".toList ++ ' ' :: behind)) = true := by
  refine occursIn_of_mem_ends ?_
  rw [List.getLast?_concat]
  exact List.cons_ne_nil _ _

/-- Without the word there is no WHERE. -/
theorem Benign.not_occursIn_whereKeyword (h : Benign ["where"] sql) :
    whereKeyword.occursIn sql = false := by
  have absent : (wholeWord (keywords ["where"])).occursIn sql = false :=
    h.not_occursIn_keywords (by decide) (by decide)
  exact absent

/-! ## Statements on rows -/

section Clauses

variable {p : DialectProfile} {quoted : Bool}

/-- **A WHERE clause shows in the text.** -/
theorem occursIn_whereKeyword_of_clause {conditions : List Condition}
    (h : conditions.isEmpty = false) (a b : List Piece) :
    whereKeyword.occursIn
      (Writer.spelling p quoted 0 (a ++ Condition.clause "WHERE" conditions ++ b)).toList =
        true := by
  have space : " ".toList = [' '] := rfl
  rw [Condition.clause, if_neg (by simp [h]), Writer.spelling_append, Writer.spelling_append]
  simpa only [List.cons_append, List.nil_append, List.append_assoc, Writer.spelling,
    String.toList_append, space] using occursIn_whereKeyword _ _

theorem avoids_where_returningPieces (columns : List String) :
    ∀ x ∈ returningPieces p columns, x.Avoids ["where"] := by
  unfold returningPieces
  split
  · exact Piece.forall_nil
  · exact Piece.forall_cons (benign_of_all rfl rfl) (Piece.forall_separated (benign_of_all rfl rfl)
      fun _ _ => Piece.forall_cons trivial Piece.forall_nil)

/-- An UPDATE without conditions has no WHERE among its fixed texts. -/
theorem Update.avoids_where {q : Update} (h : q.conditions.isEmpty = true) :
    ∀ x ∈ q.pieces p, x.Avoids ["where"] := by
  have assignment : ∀ a ∈ q.assignments, ∀ x ∈ assignmentPieces a, x.Avoids ["where"] :=
    fun _ _ => Piece.forall_cons trivial (Piece.forall_cons (benign_of_all rfl rfl)
      (Piece.forall_cons trivial Piece.forall_nil))
  rw [pieces, Condition.clause, if_pos h, List.append_nil]
  refine Piece.forall_append (Piece.forall_append ?_ ?_) (avoids_where_returningPieces q.returned)
  · exact Piece.forall_cons (benign_of_all rfl rfl) (Piece.forall_cons trivial
      (Piece.forall_cons (benign_of_all rfl rfl) Piece.forall_nil))
  · exact Piece.forall_separated (benign_of_all rfl rfl) assignment

/-- Nor has a DELETE without conditions. -/
theorem Delete.avoids_where {q : Delete} (h : q.conditions.isEmpty = true) :
    ∀ x ∈ q.pieces p, x.Avoids ["where"] := by
  rw [pieces, Condition.clause, if_pos h, List.append_nil]
  refine Piece.forall_append ?_ (avoids_where_returningPieces q.returned)
  exact Piece.forall_cons (benign_of_all rfl rfl) (Piece.forall_cons trivial Piece.forall_nil)

end Clauses

namespace Statement

/-- Whether a statement changes or deletes every row of its table. -/
def changesEveryRow : Statement → Bool
  | update q => q.conditions.isEmpty
  | delete q => q.conditions.isEmpty
  | _ => false

variable {r : Rules} {s : Statement}

/-- **An accepted statement on rows that avoids words is spelled benign** at the strict level. -/
theorem benign_of_check (strict : r.level = .strict) (h : r.check s = .ok ())
    (rows : s.kind ≠ .createTable) (d : Dialect) (quoted : Bool)
    (avoids : ∀ x ∈ s.pieces d.profile, x.Avoids taboo)
    (reserved : ∀ k ∈ taboo, Identifier.isReserved k.toList = true)
    (letters : ∀ k ∈ taboo, k.toList.all (!·.isDigit) = true) :
    Benign taboo (s.render d quoted).sql.toList := by
  rw [render, Writer.finish_write_new]
  exact Piece.benign_spelling strict (calm_of_check h rows _) avoids (s.parted_pieces _) reserved
    letters 0

/-- The text of a statement starts with its first fixed text. -/
theorem exists_sql_eq {d : Dialect} {verb : String}
    (h : ∃ rest, s.pieces d.profile = .text verb :: rest) (quoted : Bool) :
    ∃ t, (s.render d quoted).sql.toList = verb.toList ++ t := by
  obtain ⟨rest, h⟩ := h
  rw [render, Writer.finish_write_new, h]
  exact ⟨_, String.toList_append⟩

/-- A change calls for the warning if it has no conditions. -/
theorem everyRow_holds_of_change {d : Dialect} {conditions : List Condition} {verb : String}
    {a b : List Piece} (strict : r.level = .strict) (h : r.check s = .ok ())
    (rows : s.kind ≠ .createTable) (change : verb = "UPDATE " ∨ verb = "DELETE FROM ")
    (starts : ∃ rest, s.pieces d.profile = .text verb :: rest)
    (clause : s.pieces d.profile = a ++ Condition.clause "WHERE" conditions ++ b)
    (avoids : conditions.isEmpty = true → ∀ x ∈ s.pieces d.profile, x.Avoids ["where"])
    (quoted : Bool) :
    Warning.everyRow.holds (s.render d quoted).sql.toList = conditions.isEmpty := by
  have changes : rowChange.occursIn (s.render d quoted).sql.toList = true := by
    obtain ⟨t, ht⟩ := exists_sql_eq starts quoted
    rw [ht]
    exact occursIn_rowChange change t
  rw [Warning.holds, changes, Bool.true_and]
  cases empty : conditions.isEmpty with
  | true =>
    have benign : Benign ["where"] (s.render d quoted).sql.toList :=
      benign_of_check strict h rows d quoted (avoids empty) (by decide) (by decide)
    rw [benign.not_occursIn_whereKeyword]
    rfl
  | false =>
    have bounded : whereKeyword.occursIn (s.render d quoted).sql.toList = true := by
      rw [render, Writer.finish_write_new, clause]
      exact occursIn_whereKeyword_of_clause empty a b
    rw [bounded]
    rfl

/-- **The warning of every row is called for by changes without conditions**, and by no other
accepted statement on rows. -/
theorem everyRow_holds_of_check (strict : r.level = .strict) (h : r.check s = .ok ())
    (rows : s.kind ≠ .createTable) (d : Dialect) (quoted : Bool) :
    Warning.everyRow.holds (s.render d quoted).sql.toList = s.changesEveryRow := by
  cases s with
  | select q =>
    obtain ⟨t, ht⟩ := exists_sql_eq (s := select q) (d := d) ⟨_, rfl⟩ quoted
    rw [Warning.holds, ht, not_occursIn_rowChange_of_verb (.inl rfl)]
    rfl
  | insert q =>
    obtain ⟨t, ht⟩ := exists_sql_eq (s := insert q) (d := d) ⟨_, rfl⟩ quoted
    rw [Warning.holds, ht, not_occursIn_rowChange_of_verb (.inr rfl)]
    rfl
  | update q =>
    exact everyRow_holds_of_change strict h rows (.inl rfl) ⟨_, rfl⟩ rfl Update.avoids_where quoted
  | delete q =>
    exact everyRow_holds_of_change strict h rows (.inr rfl) ⟨_, rfl⟩ rfl Delete.avoids_where quoted
  | createTable q => exact absurd rfl rows

end Statement

namespace Samples

/-- The teams of the first five members called Union. -/
def firstTeams : Statement := .select
  { items := [.expr (.column "team1") none]
    tables := [{ name := "members" }]
    conditions := [{ expr := .column "name", operator := .isIn, operands := [.text "Union"] }]
    rowLimit := some 5 }

/-- Deletes all notes. -/
def deletingNotes : Statement := .delete { table := "notes" }

end Samples

namespace Generator

variable {c : GeneratorConfig} {l : RateLimiter} {s : Statement} {caller : Option String}
  {now : Nat} {q : GeneratedQuery}

/-- **The analysis agrees with the generator.** On a statement on rows that is generated at the
strict level there is nothing to warn of, in any dialect, with names quoted or bare; but an UPDATE
or a DELETE without conditions is found to affect every row. -/
theorem advice_agrees (strict : c.securityLevel = .strict) (rows : s.kind ≠ .createTable)
    (h : (generate c l s caller now).result = .ok q) :
    warnings q.sql = if s.changesEveryRow then [.everyRow] else [] := by
  obtain ⟨accepted, -, rfl⟩ := result_eq_ok_iff.mp h
  have benign : Benign alarms (s.render c.dialect c.quoteIdentifiers).sql.toList :=
    Statement.benign_of_check (r := c.rules) strict accepted rows _ _
      (fun x hx => (Statement.calm_of_check accepted rows _ x hx).avoids) (by decide) (by decide)
  rw [benign.warnings_eq, Statement.everyRow_holds_of_check (r := c.rules) strict accepted rows]

/-- There is nothing to warn of where a number stands behind TOP and names are bare; a deletion of
all notes is found, with names quoted. -/
theorem advice_agrees_samples :
    warnings (Samples.firstTeams.render .msSql false).sql = [] ∧
      warnings (Samples.deletingNotes.render .oracle true).sql = [.everyRow] := by
  have bare : (generate { GeneratorConfig.strict .msSql with quoteIdentifiers := false } (.new {})
      Samples.firstTeams none 0).result = .ok (Samples.firstTeams.render .msSql false) :=
    result_eq_ok_iff.mpr ⟨rfl, rfl, rfl⟩
  have quoted : (generate (.strict .oracle) (.new {}) Samples.deletingNotes none 0).result =
      .ok (Samples.deletingNotes.render .oracle true) := result_eq_ok_iff.mpr ⟨rfl, rfl, rfl⟩
  exact ⟨advice_agrees rfl (by decide) bare, advice_agrees rfl (by decide) quoted⟩

end Generator

end BoundSql
