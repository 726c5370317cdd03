import BoundSql.Generator
import BoundSql.Proofs.Statement.Soundness
import BoundSql.Proofs.Statement.Spacing

/-!
# Placeholders and parameters line up

The placeholders found in a generated statement are the tokens of the positions one to the number of
parameters, and the parameters are the bound values of the statement, each once and in order. The
first half is about the text: in sound and spaced pieces a search for placeholders hits quoted text
and tokens only (`hitsWhere_segments`). The second is about the pieces: an accepted condition refers
to all of its operands (`referred_of_fits`), so the pieces bind what the statement binds
(`values_pieces`).

Headline: **`tokens_and_parameters`**.
-/

namespace BoundSql

namespace Piece

/-! ## The tokens that are found -/

theorem hitsWhere_textSegments (s : String) :
    hitsWhere (!Quoted.startsQuoted ·) (textSegments s) = [] := by
  unfold textSegments
  split
  · rename_i quote
    rw [hitsWhere_hit, Quoted.startsQuoted, quote]
    rfl
  · exact hitsWhere_map_plain _

theorem startsQuoted_quoteSegment (d : Dialect) (part : List Char) :
    (!Quoted.startsQuoted (d.profile.quoteSegment part)) = false := by
  cases d <;> rfl

/-- **A search for placeholders finds one token for each bound value.** -/
theorem hitsWhere_segments (d : Dialect) (quoted : Bool) (n : Nat) (pieces : List Piece) :
    hitsWhere (!Quoted.startsQuoted ·) (segments d quoted (fun token => [.hit token]) n pieces) =
      (List.range' (n + 1) (values pieces).length).map fun i =>
        (d.profile.placeholderStyle.token i).toList := by
  induction pieces generalizing n with
  | nil => rfl
  | cons x pieces ih =>
    cases x with
    | text s =>
      rw [segments, hitsWhere_append, hitsWhere_textSegments, ih]
      rfl
    | ident name =>
      rw [segments, hitsWhere_append, hitsWhere_nameSegments (startsQuoted_quoteSegment d), ih]
      rfl
    | bind v =>
      rw [segments, hitsWhere_append, hitsWhere_token, ih]
      rfl

/-- **The placeholders in the text of sound and spaced pieces.** -/
theorem tokens_spelling (d : Dialect) (quoted : Bool) {pieces : List Piece}
    (sound : ∀ x ∈ pieces, x.Sound) (spaced : pieces.IsChain Spaced) :
    d.profile.placeholderStyle.tokens (Writer.spelling d.profile quoted 0 pieces) =
      (List.range (values pieces).length).map fun i =>
        d.profile.placeholderStyle.token (i + 1) := by
  have cut : d.profile.placeholderStyle.scanner.Cuts
      (Writer.spelling d.profile quoted 0 pieces).toList
      (segments d quoted (fun token => [.hit token]) 0 pieces) [] :=
    cuts_spelling (Pattern.triesQuotes_scanner _)
      (fun n _ => PlaceholderStyle.cuts_scanner_token _ n) sound spaced 0
  have hits := hitsWhere_segments d quoted 0 pieces
  rw [PlaceholderStyle.tokens, Pattern.matchesIn, cut.segments_eq]
  unfold hitsWhere at hits
  rw [hits, List.range'_eq_map_range, List.map_map, List.map_map]
  refine List.map_congr_left fun i _ => ?_
  simp only [Function.comp_apply, String.ofList_toList]
  rw [Nat.zero_add, Nat.add_comm]

/-! ## The values that are bound -/

theorem values_flatMap {α : Type} (f : α → List Piece) (xs : List α) :
    values (xs.flatMap f) = xs.flatMap fun x => values (f x) := by
  induction xs with
  | nil => rfl
  | cons x xs ih => rw [List.flatMap_cons, values_append, ih, List.flatMap_cons]

/-- What stands between groups binds nothing. -/
theorem values_separated {α : Type} (s : String) (f : α → List Piece) (xs : List α) :
    values (separated s (xs.map f)) = xs.flatMap fun x => values (f x) :=
  filterMap_separated rfl f xs

theorem values_listed {α : Type} (f : α → List Piece) (xs : List α) :
    values (listed (xs.map f)) = xs.flatMap fun x => values (f x) := values_separated _ f xs

theorem values_idents (names : List String) : values (idents names) = [] := by
  rw [idents, values_listed]
  exact List.flatMap_eq_nil_iff.mpr fun _ _ => rfl

theorem values_listed_binds (vs : List Value) :
    values (listed (vs.map fun v => [bind v])) = vs := by
  rw [values_listed]
  exact List.flatMap_singleton' vs

end Piece

open Piece

/-! ### Conditions -/

theorem Expr.values_pieces (e : Expr) : values e.pieces = [] := by
  cases e with
  | column name => rfl
  | aggregate function distinct column? => cases distinct <;> cases column? <;> rfl

/-- Where an operator has the operands it takes, its text refers to each of them in turn. -/
theorem Operator.slots_of_fits {op : Operator} {n : Nat} (h : Rules.Fits op n) :
    op.slots n = List.range n := by
  unfold Rules.Fits at h
  cases op with
  | isIn => rfl
  | notIn => rfl
  | _ =>
    cases h
    rfl

/-- The members of a list at all of its positions are the list. -/
theorem filterMap_getElem?_range {α : Type} (xs : List α) :
    (List.range xs.length).filterMap (xs[·]?) = xs := by
  induction xs with
  | nil => rfl
  | cons x xs ih =>
    have later : (fun i => (x :: xs)[i]?) ∘ Nat.succ = (xs[·]?) := by
      funext i
      exact List.getElem?_cons_succ
    rw [List.length_cons, List.range_succ_eq_map, List.filterMap_cons_some List.getElem?_cons_zero,
      List.filterMap_map, later, ih]

namespace Condition

/-- **A condition with the operands its operator takes refers to all of them.** -/
theorem referred_of_fits {c : Condition} (h : Rules.Fits c.operator c.operands.length) :
    c.referred = c.operands := by
  rw [referred, Operator.slots_of_fits h, filterMap_getElem?_range]

/-- What the text of a condition binds are the operands that it refers to. -/
theorem values_operandPieces_eq_referred (c : Condition) : values c.operandPieces = c.referred := by
  obtain ⟨expr, operator, operands⟩ := c
  cases operator with
  | isNull => rfl
  | isNotNull => rfl
  | isIn =>
    rw [operandPieces, values_append, values_append, values_listed_binds]
    exact List.append_nil _
  | notIn =>
    rw [operandPieces, values_append, values_append, values_listed_binds]
    exact List.append_nil _
  | _ =>
    rw [operandPieces, values_append, values_separated]
    exact List.flatMap_singleton' _

theorem values_operandPieces {c : Condition} (h : Rules.Fits c.operator c.operands.length) :
    values c.operandPieces = c.operands :=
  (values_operandPieces_eq_referred c).trans (referred_of_fits h)

theorem values_pieces {c : Condition} (h : Rules.Fits c.operator c.operands.length) :
    values c.pieces = c.operands := by
  rw [pieces, values_append, values_append, Expr.values_pieces, values_operandPieces h]
  rfl

theorem values_clause {r : Rules} {conditions : List Condition}
    (h : r.checkConditions conditions = .ok ()) (keyword : String) :
    values (clause keyword conditions) = Statement.operandsOf conditions := by
  have fits : ∀ c ∈ conditions, values c.pieces = c.operands := fun c hc =>
    values_pieces (Rules.fits_of_checkCondition (judgeAll_eq_ok_iff.mp h c hc))
  unfold clause
  split
  · rename_i empty
    rw [List.isEmpty_iff.mp empty]
    rfl
  · rw [values_append, values_separated, Statement.operandsOf, List.flatMap_congr fits]
    rfl

end Condition

theorem values_aliasPieces (introduction : String) (as? : Option String) :
    values (aliasPieces introduction as?) = [] := by
  cases as? <;> rfl

theorem TableRef.values_pieces (t : TableRef) : values t.pieces = [] :=
  values_aliasPieces " " t.as?

theorem values_returningPieces (p : DialectProfile) (columns : List String) :
    values (returningPieces p columns) = [] := by
  unfold returningPieces
  split
  · rfl
  · exact values_idents columns

/-! ### Statements -/

namespace Select

theorem values_itemsPieces (items : List SelectItem) : values (itemsPieces items) = [] := by
  have item : ∀ i : SelectItem, values (itemPieces i) = [] := by
    intro i
    cases i with
    | wildcard qualifier => cases qualifier <;> rfl
    | expr e as? => rw [itemPieces, values_append, Expr.values_pieces, values_aliasPieces]; rfl
  unfold itemsPieces
  split
  · rfl
  · rw [values_listed]
    exact List.flatMap_eq_nil_iff.mpr fun i _ => item i

theorem values_joinPieces (j : Join) : values (joinPieces j) = [] := by
  rw [joinPieces, values_append, values_append, values_append, TableRef.values_pieces,
    values_separated]
  exact List.flatMap_eq_nil_iff.mpr fun _ _ => rfl

theorem values_groupPieces (groups : List String) : values (groupPieces groups) = [] := by
  unfold groupPieces
  split
  · rfl
  · exact values_idents groups

theorem values_orderPieces (orders : List (String × Direction)) :
    values (orderPieces orders) = [] := by
  unfold orderPieces
  split
  · rfl
  · rw [values_text_cons, values_listed]
    exact List.flatMap_eq_nil_iff.mpr fun _ _ => rfl

theorem values_limitHead (limits : LimitSyntax) (q : Select) :
    values (limitHead limits q) = [] := by
  unfold limitHead
  split <;> rfl

theorem values_limitTail (limits : LimitSyntax) (q : Select) :
    values (limitTail limits q) = [] := by
  unfold limitTail
  split
  case h_5 =>
    rw [values_append]
    split <;> rfl
  all_goals rfl

theorem values_pieces {r : Rules} {q : Select} (h : r.checkSelect q = .ok ()) (p : DialectProfile) :
    values (q.pieces p) =
      Statement.operandsOf q.conditions ++ Statement.operandsOf q.groupConditions := by
  simp only [Rules.checkSelect, Rules.checkClauses, bind_eq_ok_iff] at h
  obtain ⟨-, -, -, conditions, -, groupConditions, -⟩ := h
  have opening : values q.opening = [] := by
    unfold Select.opening
    split <;> rfl
  have tables : values (listed (q.tables.map TableRef.pieces)) = [] := by
    rw [values_listed]
    exact List.flatMap_eq_nil_iff.mpr fun t _ => t.values_pieces
  have joins : values (q.joins.flatMap joinPieces) = [] := by
    rw [values_flatMap]
    exact List.flatMap_eq_nil_iff.mpr fun j _ => values_joinPieces j
  simp only [pieces, body, values_append, opening, tables, joins, values_limitHead,
    values_limitTail, values_itemsPieces, values_groupPieces, values_orderPieces,
    Condition.values_clause conditions, Condition.values_clause groupConditions,
    values_text_cons, values_nil, List.nil_append, List.append_nil]

end Select

theorem Insert.values_pieces (p : DialectProfile) (q : Insert) :
    Piece.values (q.pieces p) = q.rows.flatten := by
  have row : ∀ vs ∈ q.rows, Piece.values (rowPieces vs) = vs := by
    intro vs _
    rw [rowPieces, values_append, values_append, values_listed_binds]
    exact List.append_nil _
  rw [pieces, values_append, values_append, values_append, values_append, values_idents,
    values_returningPieces, values_listed, List.flatMap_congr row, List.append_nil]
  exact List.flatMap_id'

theorem Update.values_pieces {r : Rules} {q : Update} (h : r.checkUpdate q = .ok ())
    (p : DialectProfile) :
    values (q.pieces p) = q.assignments.map (·.2) ++ Statement.operandsOf q.conditions := by
  simp only [Rules.checkUpdate, bind_eq_ok_iff] at h
  obtain ⟨-, -, -, conditions, -⟩ := h
  have assigned : values (listed (q.assignments.map assignmentPieces)) =
      q.assignments.map (·.2) := by
    rw [values_listed, List.map_eq_flatMap]
    rfl
  rw [pieces, values_append, values_append, values_append, assigned,
    Condition.values_clause conditions, values_returningPieces, List.append_nil]
  rfl

theorem Delete.values_pieces {r : Rules} {q : Delete} (h : r.checkDelete q = .ok ())
    (p : DialectProfile) : values (q.pieces p) = Statement.operandsOf q.conditions := by
  simp only [Rules.checkDelete, bind_eq_ok_iff] at h
  obtain ⟨-, conditions, -⟩ := h
  rw [pieces, values_append, values_append, Condition.values_clause conditions,
    values_returningPieces, List.append_nil]
  rfl

theorem CreateTable.values_pieces (p : DialectProfile) (q : CreateTable) :
    values (q.pieces p) = [] := by
  have column : ∀ c : ColumnDefinition, values (c.pieces p) = [] := by
    intro c
    rw [ColumnDefinition.pieces_eq, values_append, ColumnDefinition.headPieces,
      ColumnDefinition.defaultPieces, values_append]
    cases c.notNull <;> cases c.default? <;> rfl
  have columns : values (listed (q.columns.map (·.pieces p))) = [] := by
    rw [values_listed]
    exact List.flatMap_eq_nil_iff.mpr fun c _ => column c
  have keys : values (keyPieces q.keyColumns) = [] := by
    unfold keyPieces
    split
    · rfl
    · rw [values_append, values_append, values_idents]
      rfl
  have foreignKeys : values (q.foreignKeys.flatMap ForeignKey.pieces) = [] := by
    rw [values_flatMap]
    exact List.flatMap_eq_nil_iff.mpr fun _ _ => rfl
  have head : values q.headPieces = [] := by
    rw [CreateTable.headPieces, values_append, values_append]
    cases q.unlessExists <;> rfl
  rw [CreateTable.pieces_eq, CreateTable.tailPieces, values_append, values_append, values_append,
    values_append, head, columns, keys, foreignKeys]
  rfl

namespace Statement

/-- **The pieces of an accepted statement bind what the statement binds**, in order. -/
theorem values_pieces {r : Rules} {s : Statement} (h : r.check s = .ok ()) (p : DialectProfile) :
    values (s.pieces p) = s.boundValues := by
  cases s with
  | select q => exact Select.values_pieces h p
  | insert q => exact Insert.values_pieces p q
  | update q => exact Update.values_pieces h p
  | delete q => exact Delete.values_pieces h p
  | createTable q => exact CreateTable.values_pieces p q

/-- The parameters of an accepted statement are the values it binds. -/
theorem parameters_render {r : Rules} {s : Statement} (h : r.check s = .ok ()) (d : Dialect)
    (quoted : Bool) : (s.render d quoted).parameters = s.boundValues := by
  rw [render, Writer.finish_write_new]
  exact values_pieces h _

end Statement

/-! ## Generated statements -/

namespace Samples

/-- Teams with members between two ages, by their size: three values, bound on rows and groups. -/
def teamsBySize : Statement := .select
  { items := [.expr (.column "team") none, .expr (.aggregate .count false none) (some "size")]
    tables := [{ name := "members", as? := some "m" }]
    conditions :=
      [{ expr := .column "m.age", operator := .between, operands := [.int 18, .int 65] }]
    groups := ["team"]
    groupConditions :=
      [{ expr := .aggregate .count false none, operator := .greater, operands := [.int 3] }] }

/-- A table with a default that looks like a token and holds quotes. -/
def pricedItems : Statement := .createTable
  { table := "items"
    columns :=
      [{ name := "price", dataType := "decimal(10, 2)", default? := some (.integer (-1)) },
        { name := "note", dataType := "text", notNull := true
          default? := some (.text "it's $1 or '?'") }] }

end Samples

namespace Generator

variable {c : GeneratorConfig} {l : RateLimiter} {s : Statement} {caller : Option String}
  {now : Nat} {q : GeneratedQuery}

/-- **Placeholders and parameters line up**: the placeholders in a generated text are the tokens of
the positions from one on, one for each parameter, and the parameters are the bound values of the
statement in order. -/
theorem tokens_and_parameters (h : (generate c l s caller now).result = .ok q) :
    c.dialect.profile.placeholderStyle.tokens q.sql =
        (List.range q.parameters.length).map
          (fun i => c.dialect.profile.placeholderStyle.token (i + 1)) ∧
      q.parameters = s.boundValues := by
  obtain ⟨accepted, -, rfl⟩ := result_eq_ok_iff.mp h
  rw [Statement.render, Writer.finish_write_new]
  refine ⟨?_, Statement.values_pieces accepted _⟩
  exact tokens_spelling c.dialect _ (Statement.sound_of_check accepted _) (s.spaced_pieces _)

/-- Three values on rows and groups have three tokens in turn; a default has none. -/
theorem tokens_and_parameters_samples :
    PlaceholderStyle.numbered.tokens (Samples.teamsBySize.render .postgres true).sql =
        ["$1", "$2", "$3"] ∧
      (Samples.teamsBySize.render .postgres true).parameters = [.int 18, .int 65, .int 3] ∧
      PlaceholderStyle.questionMark.tokens (Samples.pricedItems.render .sqlite false).sql = [] := by
  have counted : (generate (.strict .postgres) (.new {}) Samples.teamsBySize none 0).result =
      .ok (Samples.teamsBySize.render .postgres true) := result_eq_ok_iff.mpr ⟨rfl, rfl, rfl⟩
  have priced : (generate (.new .sqlite) (.new {}) Samples.pricedItems none 0).result =
      .ok (Samples.pricedItems.render .sqlite false) := result_eq_ok_iff.mpr ⟨rfl, rfl, rfl⟩
  obtain ⟨found, bound⟩ := tokens_and_parameters counted
  obtain ⟨found', bound'⟩ := tokens_and_parameters priced
  rw [bound] at found
  rw [bound'] at found'
  exact ⟨found, bound, found'⟩

end Generator

end BoundSql
