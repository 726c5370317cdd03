import BoundSql.Proofs.Generator.Alignment

/-!
# Dialects agree

A statement on rows is judged alike under every dialect (`check_withProfile`), and binds the same
values in the same order. With bare identifiers, two dialects differ in three things at most: how
placeholders are spelled, how rows are limited, and whether rows are returned. Without the last two
the text of one becomes the text of the other when its tokens are replaced one by one
(`replaceTokens_spelling`); a limit is one clause, which is put into the text without the limit
(`limited_sql`).

Headline: **`dialects_agree`**.
-/

namespace BoundSql

/-! ## Judgements -/

namespace Rules

variable (r : Rules) (p : DialectProfile)

theorem checkRows_withProfile (columns position : Nat) (rows : List (List Value)) :
    { r with profile := p }.checkRows columns position rows =
      r.checkRows columns position rows := by
  induction rows generalizing position with
  | nil => rfl
  | cons row rows ih =>
    rw [checkRows, checkRows, ih]
    rfl

/-- **A statement on rows is judged alike under every profile.** -/
theorem check_withProfile {s : Statement} (rows : s.kind ≠ .createTable) :
    { r with profile := p }.check s = r.check s := by
  cases s with
  | select q => rfl
  | insert q =>
    rw [check, check, checkInsert, checkInsert, checkRows_withProfile]
    rfl
  | update q => rfl
  | delete q => rfl
  | createTable q => exact absurd rfl rows

end Rules

namespace Generator

variable (c : GeneratorConfig) (l : RateLimiter) (caller : Option String) (now : Nat)

/-- **A call on rows is accepted or refused alike in every dialect**, with the same error and the
same limiter afterwards. -/
theorem generate_withDialect {s : Statement} (rows : s.kind ≠ .createTable) (d : Dialect) :
    let answer := generate { c with dialect := d } l s caller now
    (answer.result = match c.rules.check s, (admission c l caller now).1 with
      | .error e, _ => .error e
      | .ok (), .error e => .error e
      | .ok (), .ok () => .ok (s.render d c.quoteIdentifiers)) ∧
    answer.limiter = match c.rules.check s with
      | .error _ => l
      | .ok () => (admission c l caller now).2.1 := by
  intro answer
  have judged : { c with dialect := d }.rules.check s = c.rules.check s :=
    c.rules.check_withProfile d.profile rows
  have asked : admission { c with dialect := d } l caller now = admission c l caller now := rfl
  simp only [answer, generate, judged, asked]
  cases c.rules.check s with
  | error e => exact ⟨rfl, rfl⟩
  | ok u => rcases admission c l caller now with ⟨_ | _, limiter, notices⟩ <;> exact ⟨rfl, rfl⟩

end Generator

/-! ## Tokens, one for another -/

namespace PlaceholderStyle

/-- The text of segments, where each match that is no quoted text gives way to the next of the
tokens, as long as there are any. -/
def refill : List String → List Segment → List Char
  | _, [] => []
  | tokens, .plain x :: segs => x :: refill tokens segs
  | tokens, .hit s :: segs =>
    if Quoted.startsQuoted s then s ++ refill tokens segs
    else tokens.head?.elim s String.toList ++ refill tokens.tail segs

/-- The text with its placeholders replaced by other tokens, the first one by the first token and so
on. -/
def replaceTokens (style : PlaceholderStyle) (tokens : List String) (sql : String) : String :=
  String.ofList (refill tokens (style.scanner.segments sql.toList))

end PlaceholderStyle

open PlaceholderStyle (refill)

namespace Piece

variable {tokens : List String} {segs : List Segment}

theorem refill_plain (s : List Char) :
    refill tokens (s.map .plain ++ segs) = s ++ refill tokens segs := by
  induction s with
  | nil => rfl
  | cons x s ih => rw [List.map_cons, List.cons_append, refill, ih, List.cons_append]

theorem refill_textSegments (s : String) :
    refill tokens (textSegments s ++ segs) = s.toList ++ refill tokens segs := by
  unfold textSegments
  split
  · rename_i quote
    rw [List.singleton_append, refill, if_pos]
    rw [Quoted.startsQuoted, quote]
    rfl
  · exact refill_plain s.toList

theorem refill_token (style : PlaceholderStyle) (n : Nat) (token : String) :
    refill (token :: tokens) (.hit (style.token n).toList :: segs) =
      token.toList ++ refill tokens segs := by
  have bare : ¬ Quoted.startsQuoted (style.token n).toList = true := by
    have hit := hitsWhere_token style n
    rw [hitsWhere_hit] at hit
    split at hit
    · rename_i bare
      simpa using bare
    · cases hit
  rw [refill, if_neg bare]
  rfl

/-- **Refilled with the tokens of another dialect, the text is that of the other dialect.** -/
theorem refill_segments (d d' : Dialect) (n : Nat) (pieces : List Piece) :
    refill ((List.range' (n + 1) (values pieces).length).map d'.profile.placeholderStyle.token)
        (segments d false (fun token => [.hit token]) n pieces) =
      (Writer.spelling d'.profile false n pieces).toList := by
  induction pieces generalizing n with
  | nil => rfl
  | cons x pieces ih =>
    cases x with
    | text s =>
      rw [segments, refill_textSegments, values_text_cons, ih, Writer.spelling,
        String.toList_append]
    | ident name =>
      have bare : nameSegments d false name = name.toList.map .plain := rfl
      rw [segments, bare, refill_plain, values_ident_cons, ih, Writer.spelling,
        String.toList_append]
      rfl
    | bind v =>
      rw [segments, values_bind_cons, List.length_cons, List.range'_succ, List.map_cons,
        List.singleton_append, refill_token, ih, Writer.spelling, String.toList_append]

/-- **Between two dialects the placeholders may be exchanged in the text.** -/
theorem replaceTokens_spelling (d d' : Dialect) {pieces : List Piece}
    (sound : ∀ x ∈ pieces, x.Sound) (spaced : pieces.IsChain Spaced) :
    d.profile.placeholderStyle.replaceTokens
        (d'.profile.placeholderStyle.tokens (Writer.spelling d'.profile false 0 pieces))
        (Writer.spelling d.profile false 0 pieces) =
      Writer.spelling d'.profile false 0 pieces := by
  have cut : d.profile.placeholderStyle.scanner.Cuts
      (Writer.spelling d.profile false 0 pieces).toList
      (segments d false (fun token => [.hit token]) 0 pieces) [] :=
    cuts_spelling (Pattern.triesQuotes_scanner _)
      (fun n _ => PlaceholderStyle.cuts_scanner_token _ n) sound spaced 0
  have other := refill_segments d d' 0 pieces
  rw [List.range'_eq_map_range, List.map_map] at other
  rw [tokens_spelling d' false sound spaced, PlaceholderStyle.replaceTokens, cut.segments_eq]
  have same : (List.range (values pieces).length).map
        (fun i => d'.profile.placeholderStyle.token (i + 1)) =
      (List.range (values pieces).length).map
        (d'.profile.placeholderStyle.token ∘ fun x => 0 + 1 + x) :=
    List.map_congr_left fun i _ => by rw [Function.comp_apply, Nat.zero_add, Nat.add_comm]
  rw [same, other, String.ofList_toList]

end Piece

/-! ## Limits -/

open Piece

namespace Select

/-- The statement without its limit and offset. -/
def unlimited (q : Select) : Select := { q with rowLimit := none, rowOffset := none }

/-- What a statement is opened with. -/
def openingText (q : Select) : String := if q.isDistinct then "SELECT DISTINCT " else "SELECT "

/-- What a limit and an offset make of the text of a statement without them: there is one clause
more in it. -/
def LimitedBy (q : Select) (n : Int) (without sql : String) : LimitSyntax → Option Int → Prop
  | .limitOffset, none => sql = without ++ " LIMIT " ++ toString n
  | .limitOffset, some m => sql = without ++ " LIMIT " ++ toString n ++ " OFFSET " ++ toString m
  | .fetchFirst, none => sql = without ++ " FETCH FIRST " ++ toString n ++ " ROWS ONLY"
  | .fetchFirst, some m =>
    sql = without ++ " OFFSET " ++ toString m ++ " ROWS FETCH FIRST " ++ toString n ++ " ROWS ONLY"
  | .top, none => ∃ rest, without = q.openingText ++ rest ∧
      sql = q.openingText ++ "TOP " ++ toString n ++ " " ++ rest
  | .top, some m =>
    sql = without ++ (if q.orders.isEmpty then " ORDER BY (SELECT NULL)" else "") ++
      " OFFSET " ++ toString m ++ " ROWS FETCH NEXT " ++ toString n ++ " ROWS ONLY"

variable {q : Select} {n : Int}

theorem pieces_unlimited (p : DialectProfile) (q : Select) :
    q.unlimited.pieces p = q.opening ++ q.body := by
  have tail : ∀ limits, limitTail limits q.unlimited = [] := fun limits => by cases limits <;> rfl
  have head : ∀ limits, limitHead limits q.unlimited = [] := fun limits => by cases limits <;> rfl
  rw [pieces, head, tail, List.append_nil, List.append_nil]
  rfl

theorem spelling_opening_append (profile : DialectProfile) (quoted : Bool) (q : Select)
    (b : List Piece) : Writer.spelling profile quoted 0 (q.opening ++ b) =
      q.openingText ++ Writer.spelling profile quoted 0 b := by
  unfold opening openingText
  cases q.isDistinct with
  | true => exact String.append_assoc.symm
  | false => rfl

/-- **A limit is one clause** more than the statement without it has. -/
theorem limited_sql (d : Dialect) (quoted : Bool) (limited : q.rowLimit = some n) :
    q.LimitedBy n (Writer.spelling d.profile quoted 0 (q.unlimited.pieces d.profile))
      (Writer.spelling d.profile quoted 0 (q.pieces d.profile)) d.profile.limitSyntax
      q.rowOffset := by
  have appended : ∀ limits, limitHead limits q = [] → ∃ k,
      Writer.spelling d.profile quoted 0
          (q.opening ++ limitHead limits q ++ q.body ++ limitTail limits q) =
        Writer.spelling d.profile quoted 0 (q.opening ++ q.body) ++
          Writer.spelling d.profile quoted k (limitTail limits q) := by
    intro limits head
    rw [head, List.append_nil]
    exact ⟨_, Writer.spelling_append _ _ _ _ _⟩
  rw [pieces_unlimited, pieces]
  cases d.profile.limitSyntax with
  | limitOffset =>
    obtain ⟨k, sql⟩ := appended .limitOffset rfl
    rw [sql]
    cases skipped : q.rowOffset with
    | none => simp [LimitedBy, limitTail, limited, skipped, Writer.spelling, String.append_assoc]
    | some m => simp [LimitedBy, limitTail, limited, skipped, Writer.spelling, String.append_assoc]
  | fetchFirst =>
    obtain ⟨k, sql⟩ := appended .fetchFirst rfl
    rw [sql]
    cases skipped : q.rowOffset with
    | none => simp [LimitedBy, limitTail, limited, skipped, Writer.spelling, String.append_assoc]
    | some m =>
      refine String.toList_inj.mp ?_
      simp [limitTail, limited, skipped, Writer.spelling]
  | top =>
    cases skipped : q.rowOffset with
    | none =>
      have head : limitHead .top q = [text ("TOP " ++ toString n ++ " ")] := by
        simp only [limitHead, limited, skipped]
      have tail : limitTail .top q = [] := by simp only [limitTail, limited, skipped]
      refine ⟨Writer.spelling d.profile quoted 0 q.body, spelling_opening_append _ _ _ _, ?_⟩
      rw [head, tail, List.append_nil, List.append_assoc, spelling_opening_append,
        List.singleton_append, Writer.spelling]
      simp only [String.append_assoc]
    | some m =>
      obtain ⟨k, sql⟩ := appended .top (by simp only [limitHead, limited, skipped])
      rw [sql]
      cases ordered : q.orders.isEmpty with
      | true =>
        refine String.toList_inj.mp ?_
        simp [limitTail, limited, skipped, ordered, Writer.spelling]
      | false =>
        simp [LimitedBy, limitTail, limited, skipped, ordered, Writer.spelling,
          String.append_assoc]

end Select

/-! ## Statements -/

namespace Statement

/-- Neither a limit nor columns to return: nothing that dialects write in different ways, but for
names and placeholders. -/
def isPortable : Statement → Bool
  | select q => q.rowLimit.isNone
  | insert q => q.returned.isEmpty
  | update q => q.returned.isEmpty
  | delete q => q.returned.isEmpty
  | createTable _ => false

theorem pieces_of_isPortable {s : Statement} (h : s.isPortable = true) (p p' : DialectProfile) :
    s.pieces p = s.pieces p' := by
  have nothing : ∀ {columns : List String}, columns.isEmpty = true → ∀ p,
      returningPieces p columns = [] := by
    intro columns h p
    rw [returningPieces, h]
    rfl
  cases s with
  | select q =>
    have head : ∀ limits, Select.limitHead limits q = [] := fun limits => by
      cases limits <;> simp [Select.limitHead, Option.isNone_iff_eq_none.mp h]
    have tail : ∀ limits, Select.limitTail limits q = [] := fun limits => by
      simp [Select.limitTail, Option.isNone_iff_eq_none.mp h]
    simp only [pieces, Select.pieces, head, tail]
  | insert q => simp only [pieces, Insert.pieces, nothing h]
  | update q => simp only [pieces, Update.pieces, nothing h]
  | delete q => simp only [pieces, Delete.pieces, nothing h]
  | createTable q => cases h

end Statement

namespace Generator

/-- **Dialects agree.** With bare identifiers, a statement on rows is accepted or refused in one
dialect as in any other, with the same error, the same parameters and the same limiter afterwards.
Without a limit and columns to return, the texts of two dialects become equal when the placeholders
of one are replaced by those of the other, each by the one in its place. A limit, with an offset or
without, is one clause more than the text has without the two. -/
theorem dialects_agree (c : GeneratorConfig) (bare : c.quoteIdentifiers = false) (l : RateLimiter)
    (s : Statement) (rows : s.kind ≠ .createTable) (caller : Option String) (now : Nat)
    (d d' : Dialect) :
    let answer := fun d => generate { c with dialect := d } l s caller now
    { c with dialect := d }.rules.check s = { c with dialect := d' }.rules.check s ∧
      (∀ e, (answer d).result = .error e → (answer d').result = .error e) ∧
      (answer d).limiter = (answer d').limiter ∧
      (∀ q, (answer d).result = .ok q → ∃ q', (answer d').result = .ok q' ∧
        q.parameters = q'.parameters ∧
        (s.isPortable = true → d.profile.placeholderStyle.replaceTokens
          (d'.profile.placeholderStyle.tokens q'.sql) q.sql = q'.sql)) ∧
      ∀ q n, s = .select q → q.rowLimit = some n →
        q.LimitedBy n ((Statement.select q.unlimited).render d false).sql
          ((Statement.select q).render d false).sql d.profile.limitSyntax q.rowOffset := by
  intro answer
  have judged : ∀ d, { c with dialect := d }.rules.check s = c.rules.check s := fun d =>
    c.rules.check_withProfile d.profile rows
  have result := fun d => (generate_withDialect c l caller now rows d).1
  have limiter := fun d => (generate_withDialect c l caller now rows d).2
  refine ⟨(judged d).trans (judged d').symm, fun e refused => ?_,
    (limiter d).trans (limiter d').symm, fun q written => ?_, ?_⟩
  · rw [show (answer d).result = _ from result d] at refused
    rw [show (answer d').result = _ from result d']
    cases check : c.rules.check s with
    | error e' => rwa [check] at refused
    | ok u =>
      cases asked : (admission c l caller now).1 with
      | error e' => rwa [check, asked] at refused
      | ok u' =>
        rw [check, asked] at refused
        cases refused
  · obtain ⟨accepted, admitted, rfl⟩ := result_eq_ok_iff.mp written
    have sound := fun p => Statement.sound_of_check accepted p
    have again : (answer d').result = .ok (s.render d' c.quoteIdentifiers) :=
      result_eq_ok_iff.mpr ⟨(judged d').trans ((judged d).symm.trans accepted), admitted, rfl⟩
    refine ⟨_, again, ?_, fun portable => ?_⟩
    · rw [Statement.render, Statement.render, Writer.finish_write_new, Writer.finish_write_new]
      exact (Statement.values_pieces accepted _).trans (Statement.values_pieces accepted _).symm
    · rw [Statement.render, Statement.render, Writer.finish_write_new, Writer.finish_write_new,
        bare, s.pieces_of_isPortable portable d.profile d'.profile]
      exact Piece.replaceTokens_spelling d d' (sound _) (s.spaced_pieces _)
  · rintro q n rfl limited
    rw [Statement.render, Statement.render, Writer.finish_write_new, Writer.finish_write_new]
    exact Select.limited_sql d false limited

/-- Three values on rows and groups have other tokens elsewhere; a limit stands in front of what is
selected, or at the end. -/
theorem dialects_agree_samples :
    PlaceholderStyle.numbered.replaceTokens
        (PlaceholderStyle.atNamed.tokens (Samples.teamsBySize.render .msSql false).sql)
        (Samples.teamsBySize.render .postgres false).sql =
      (Samples.teamsBySize.render .msSql false).sql ∧
    ∀ d, Select.LimitedBy { tables := [{ name := "notes" }], rowLimit := some 10 } 10
      "SELECT * FROM notes"
      ((Statement.select { tables := [{ name := "notes" }], rowLimit := some 10 }).render d
        false).sql d.profile.limitSyntax none := by
  constructor
  · obtain ⟨-, -, -, written, -⟩ := dialects_agree (.new .postgres) rfl (.new {})
      Samples.teamsBySize (by decide) none 0 .postgres .msSql
    have counted : (generate (.new .postgres) (.new {}) Samples.teamsBySize none 0).result =
        .ok (Samples.teamsBySize.render .postgres false) := result_eq_ok_iff.mpr ⟨rfl, rfl, rfl⟩
    obtain ⟨q, again, -, replaced⟩ := written _ counted
    obtain ⟨-, -, rfl⟩ := result_eq_ok_iff.mp again
    exact replaced rfl
  · intro d
    obtain ⟨-, -, -, -, limited⟩ := dialects_agree (.new d) rfl (.new {})
      (.select { tables := [{ name := "notes" }], rowLimit := some 10 }) (by decide) none 0 d d
    have without : ((Statement.select { tables := [{ name := "notes" }] }).render d false).sql =
        "SELECT * FROM notes" := by
      cases d <;> rfl
    rw [← without]
    exact limited _ 10 rfl rfl

end Generator

end BoundSql
