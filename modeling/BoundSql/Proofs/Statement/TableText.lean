import BoundSql.Proofs.Generator.Alignment
import BoundSql.Proofs.Statement.Benign
import BoundSql.Proofs.Statement.SelectText

/-!
# Tables given as text

A text names a table by its words: a name, a name and an alias, or the two with AS between them
(`Names`). Any other text is taken for a name whole, and as no rule for names lets white space pass,
such a text is refused at every level (`names_of_checkTable`). So the texts that are accepted are
those that name a table and an alias the rules let pass (`checkTableRef_ofText_iff`).

A statement takes such a text in FROM or in a join (`Select.Place`). In each place the text is
judged and written by itself: the statement is accepted if the text is and the statement is with a
plain name in that place (`Select.check_put_iff`), and of what is written only the table changes
(`Select.exists_sql_put`).

Headline: **`table_texts_exact`**.
-/

namespace BoundSql

namespace TableRef

open Piece

variable {r : Rules} {level : SecurityLevel} {text name : String} {as? : Option String}

/-! ## The grammar -/

/-- **What a text names**: its words are a name, a name and an alias, or the two with `as` between
them in any ASCII letter case. -/
inductive Names (text : String) : String → Option String → Prop
  | bare (name : String) (words : Text.words text.toList = [name.toList]) : Names text name none
  | aliased (name other : String) (words : Text.words text.toList = [name.toList, other.toList]) :
      Names text name (some other)
  | introduced (name other : String) (word : List Char)
      (words : Text.words text.toList = [name.toList, word, other.toList])
      (keyword : Text.SameButCase word ['a', 's']) : Names text name (some other)

/-- The name is an identifier of the level, and so is the alias where no dots are allowed. -/
structure IsAllowed (level : SecurityLevel) (name : String) (as? : Option String) : Prop where
  name : Identifier.validate name level = .ok name
  given : ∀ other ∈ as?, Identifier.validate other level.undotted = .ok other

/-- A text that names a table the rules of the level let pass. -/
def IsTable (level : SecurityLevel) (text : String) : Prop :=
  ∃ name as?, Names text name as? ∧ IsAllowed level name as?

/-- A name and an alias as they are written without quotes. -/
def written (name : String) : Option String → String
  | none => name
  | some other => name ++ " " ++ other

/-! ## What a text stands for -/

theorem ofText_of_names (h : Names text name as?) : ofText text = { name, as? } := by
  cases h with
  | bare words => simp [ofText, words]
  | aliased other words => simp [ofText, words]
  | introduced other word words keyword =>
    have lower : Text.asciiLower word = ['a', 's'] := keyword
    simp [ofText, words, lower]

/-- A text that names nothing is taken for a name whole. -/
theorem ofText_of_not_names (h : ∀ name as?, ¬ Names text name as?) :
    ofText text = { name := text } := by
  unfold ofText
  split
  · rename_i name words
    exact absurd (.bare (String.ofList name) (by simpa using words)) (h _ _)
  · rename_i name other words
    exact absurd (.aliased (String.ofList name) (String.ofList other) (by simpa using words))
      (h _ _)
  · rename_i name word other words
    split
    · rename_i lower
      exact absurd (.introduced (String.ofList name) (String.ofList other) word
        (by simpa using words) lower) (h _ _)
    · rfl
  · rfl

/-! ## What is accepted -/

/-- A text without white space is its only word. -/
theorem words_of_forall {s : List Char} (full : s ≠ [])
    (visible : ∀ x ∈ s, Text.isWhiteSpace x = false) : Text.words s = [s] := by
  rw [Text.words, Text.splitWhere_of_forall visible]
  simpa using full

/-- **What the rules accept as a name has no white space**, so it names itself. -/
theorem names_of_checkTable (h : r.checkTable text = .ok ()) : Names text text none := by
  have full : text.toList ≠ [] :=
    (Identifier.check_eq_ok_iff.mp (Rules.checkTable_eq_ok_iff.mp h)).1
  refine .bare text (words_of_forall full fun x hx => ?_)
  rcases Rules.isName_of_checkTable h x hx with part | rfl
  · exact isWhiteSpace_of_isPart part
  · rfl

theorem require_eq_ok_iff_validate {name : String} {level : SecurityLevel} :
    Rules.require (Identifier.validate name level) = .ok () ↔
      Identifier.validate name level = .ok name := by
  rw [Rules.require_validate_eq_ok_iff, Identifier.validate_eq_ok_iff]

theorem checkTableRef_iff :
    r.checkTableRef { name, as? } = .ok () ↔ IsAllowed r.level name as? := by
  have alias_ : r.checkOptionalAlias as? = .ok () ↔
      ∀ other ∈ as?, Identifier.validate other r.level.undotted = .ok other := by
    cases as? with
    | none => simp [Rules.checkOptionalAlias]
    | some other =>
      simpa [Rules.checkOptionalAlias, Rules.checkAlias] using require_eq_ok_iff_validate
  rw [Rules.checkTableRef, bind_eq_ok_iff, alias_, Rules.checkTable, require_eq_ok_iff_validate]
  exact ⟨fun h => ⟨h.1, h.2⟩, fun h => ⟨h.name, h.given⟩⟩

/-- **Which texts are accepted.** -/
theorem checkTableRef_ofText_iff :
    r.checkTableRef (ofText text) = .ok () ↔ IsTable r.level text := by
  constructor
  · intro accepted
    by_cases named : ∃ name as?, Names text name as?
    · obtain ⟨name, as?, named⟩ := named
      rw [ofText_of_names named] at accepted
      exact ⟨name, as?, named, checkTableRef_iff.mp accepted⟩
    · -- Taken whole the text would be a name, and a name is a text that names something.
      simp only [not_exists] at named
      rw [ofText_of_not_names named] at accepted
      exact absurd (names_of_checkTable (bind_eq_ok_iff.mp accepted).1) (named _ _)
  · rintro ⟨name, as?, named, allowed⟩
    rw [ofText_of_names named]
    exact checkTableRef_iff.mpr allowed

/-! ## What is written -/

theorem spelling_of_names (h : Names text name as?) (p : DialectProfile) (n : Nat) :
    Writer.spelling p false n (ofText text).pieces = written name as? := by
  rw [ofText_of_names h]
  cases as? <;> simp [pieces, aliasPieces, Writer.spelling, written, String.append_assoc]

end TableRef

/-! ## In a statement -/

namespace Select

open Piece TableRef

variable {r : Rules} {text : String}

/-- Where a statement takes a table given as text. -/
inductive Place
  | first
  | further
  | joined (kind : JoinKind) (pairs : List (String × String))

/-- The statement with a table in a place. -/
def Place.put (q : Select) (table : String) : Place → Select
  | first => q.fromTable table
  | further => q.alsoFrom table
  | joined kind pairs => q.join kind table pairs

/-- What is judged of a statement besides its tables and its joins. -/
structure BesidesTables (r : Rules) (q : Select) : Prop where
  items : judgeAll r.checkItem q.items = .ok ()
  conditions : r.checkConditions q.conditions = .ok ()
  groups : r.checkColumns q.groups = .ok ()
  groupConditions : r.checkConditions q.groupConditions = .ok ()
  orders : r.checkColumns (q.orders.map (·.1)) = .ok ()
  rowRange : r.checkRowRange q.rowLimit q.rowOffset = .ok ()

theorem check_select_iff {q : Select} :
    r.check (.select q) = .ok () ↔ BesidesTables r q ∧ q.tables ≠ [] ∧
      (∀ t ∈ q.tables, r.checkTableRef t = .ok ()) ∧ ∀ j ∈ q.joins, r.checkJoin j = .ok () := by
  simp only [Rules.check, Rules.checkSelect, Rules.checkSelection, Rules.checkClauses,
    bind_eq_ok_iff, Rules.needs_eq_ok_iff, Bool.not_eq_true', List.isEmpty_eq_false_iff,
    @judgeAll_eq_ok_iff _ _ r.checkTableRef, @judgeAll_eq_ok_iff _ _ r.checkJoin]
  constructor
  · rintro ⟨⟨some, items⟩, tables, joins, conditions, groups, groupConditions, orders, rowRange⟩
    exact ⟨⟨items, conditions, groups, groupConditions, orders, rowRange⟩, some, tables, joins⟩
  · rintro ⟨others, some, tables, joins⟩
    exact ⟨⟨some, others.items⟩, tables, joins, others.conditions, others.groups,
      others.groupConditions, others.orders, others.rowRange⟩

theorem checkJoin_iff {j : Join} :
    r.checkJoin j = .ok () ↔ r.checkTableRef j.table = .ok () ∧ j.pairs ≠ [] ∧
      ∀ pair ∈ j.pairs, r.checkPair pair = .ok () := by
  rw [Rules.checkJoin, bind_eq_ok_iff, bind_eq_ok_iff, Rules.needs_eq_ok_iff, judgeAll_eq_ok_iff,
    Bool.not_eq_true', List.isEmpty_eq_false_iff]

/-- **A table is judged by itself.** What else is judged is the same with any other table. -/
theorem check_put_iff (q : Select) (place : Place) :
    r.check (.select (place.put q text)) = .ok () ↔
      IsTable r.level text ∧ r.check (.select (place.put q "t")) = .ok () := by
  have plain := checkTableRef_t r
  have besides (t : String) : BesidesTables r (place.put q t) ↔ BesidesTables r q := by
    cases place <;> exact ⟨fun ⟨a, b, c, d, e, f⟩ => ⟨a, b, c, d, e, f⟩,
      fun ⟨a, b, c, d, e, f⟩ => ⟨a, b, c, d, e, f⟩⟩
  rw [← checkTableRef_ofText_iff, check_select_iff, check_select_iff, besides, besides]
  cases place with
  | first => simp [Place.put, fromTable, plain, and_left_comm]
  | further =>
    simp only [Place.put, alsoFrom, List.forall_mem_append, List.forall_mem_singleton, plain]
    constructor
    · rintro ⟨besides, -, ⟨tables, accepted⟩, joins⟩
      exact ⟨accepted, besides, by simp, ⟨tables, trivial⟩, joins⟩
    · rintro ⟨accepted, besides, -, ⟨tables, -⟩, joins⟩
      exact ⟨besides, by simp, ⟨tables, accepted⟩, joins⟩
  | joined kind pairs =>
    simp only [Place.put, join, List.forall_mem_append, List.forall_mem_singleton, plain,
      checkJoin_iff (j := ⟨_, _, _⟩)]
    constructor
    · rintro ⟨besides, some, tables, joins, accepted, paired⟩
      exact ⟨accepted, besides, some, tables, joins, trivial, paired⟩
    · rintro ⟨accepted, besides, some, tables, joins, -, paired⟩
      exact ⟨besides, some, tables, joins, accepted, paired⟩

/-! ### What is written -/

/-- What stands in front of the tables. -/
def untilTables (p : DialectProfile) (q : Select) : List Piece :=
  q.opening ++ limitHead p.limitSyntax q ++ itemsPieces q.items ++ [.text " FROM "]

/-- What stands behind the joins. -/
def behindJoins (p : DialectProfile) (q : Select) : List Piece :=
  Condition.clause "WHERE" q.conditions ++ groupPieces q.groups ++
    Condition.clause "HAVING" q.groupConditions ++ orderPieces q.orders ++
    limitTail p.limitSyntax q

theorem pieces_eq (p : DialectProfile) (q : Select) :
    q.pieces p = q.untilTables p ++ listed (q.tables.map TableRef.pieces) ++
      q.joins.flatMap joinPieces ++ q.behindJoins p := by
  simp only [pieces, body, untilTables, behindJoins, List.append_assoc]

/-- What stands in front of a table and behind it does not depend on the table. -/
theorem exists_pieces_put (p : DialectProfile) (q : Select) (place : Place) :
    ∃ before behind, ∀ table, (place.put q table).pieces p =
      before ++ ((TableRef.ofText table).pieces ++ behind) := by
  cases place with
  | first =>
    refine ⟨q.untilTables p, q.joins.flatMap joinPieces ++ q.behindJoins p, fun table => ?_⟩
    have only : (Place.first.put q table).tables.map TableRef.pieces =
        [(TableRef.ofText table).pieces] := rfl
    rw [pieces_eq, only, listed, separated_singleton, List.append_assoc, List.append_assoc]
    rfl
  | further =>
    refine ⟨q.untilTables p ++ (q.tables.map TableRef.pieces).flatMap (· ++ [.text ", "]),
      q.joins.flatMap joinPieces ++ q.behindJoins p, fun table => ?_⟩
    have last : (Place.further.put q table).tables.map TableRef.pieces =
        q.tables.map TableRef.pieces ++ [(TableRef.ofText table).pieces] := List.map_append
    rw [pieces_eq, last, listed, separated_append_cons]
    simp only [List.flatMap_nil, List.append_nil, List.append_assoc]
    rfl
  | joined kind pairs =>
    refine ⟨q.untilTables p ++ listed (q.tables.map TableRef.pieces) ++
      q.joins.flatMap joinPieces ++ [.text " ", .text kind.text, .text " "],
      .text " ON " :: separated " AND " (pairs.map pairPieces) ++ q.behindJoins p,
      fun table => ?_⟩
    have last : (Place.put q table (.joined kind pairs)).joins.flatMap joinPieces =
        q.joins.flatMap joinPieces ++ joinPieces ⟨kind, .ofText table, pairs⟩ := by
      simp [Place.put, join]
    rw [pieces_eq, last, joinPieces]
    simp only [List.append_assoc, List.cons_append, List.nil_append]
    rfl

/-- **Of what is written only the table changes.** -/
theorem exists_sql_put (d : Dialect) (q : Select) (place : Place) :
    ∃ before behind, ∀ table name as?, Names table name as? →
      ((Statement.select (place.put q table)).render d false).sql =
        before ++ written name as? ++ behind := by
  obtain ⟨before, behind, pieces⟩ := exists_pieces_put d.profile q place
  refine ⟨Writer.spelling d.profile false 0 before,
    Writer.spelling d.profile false (values before).length behind, fun table name as? named => ?_⟩
  rw [Statement.render, Writer.finish_write_new, Statement.pieces, pieces, Writer.spelling_append,
    Writer.spelling_append, spelling_of_names named, TableRef.values_pieces, List.length_nil,
    Nat.add_zero, Nat.zero_add, String.append_assoc]

end Select

namespace TableRef

/-- **The texts accepted as a table are exactly those of the grammar**, wherever a statement takes
one, and such a text is written as the name or as the name and the alias with a space between them.
All else in the statement is judged and written as with any other table. -/
theorem table_texts_exact (r : Rules) (d : Dialect) (q : Select) (place : Select.Place) :
    (∀ text, r.checkTableRef (ofText text) = .ok () ↔ IsTable r.level text) ∧
      (∀ text, r.check (.select (place.put q text)) = .ok () ↔
        IsTable r.level text ∧ r.check (.select (place.put q "t")) = .ok ()) ∧
      ∃ before behind, ∀ text name as?, Names text name as? →
        (∀ n, Writer.spelling d.profile false n (ofText text).pieces = written name as?) ∧
        ((Statement.select (place.put q text)).render d false).sql =
          before ++ written name as? ++ behind := by
  obtain ⟨before, behind, sql⟩ := Select.exists_sql_put d q place
  exact ⟨fun text => checkTableRef_ofText_iff, fun text => Select.check_put_iff q place,
    before, behind, fun text name as? named =>
      ⟨spelling_of_names named d.profile, sql text name as? named⟩⟩

/-- White space of any kind stands between the words, and more than one alias is none. -/
theorem table_texts_exact_sample :
    let r := (GeneratorConfig.strict .postgres).rules
    Names "users\u2003\n aS u " "users" (some "u") ∧
      r.checkTableRef (ofText "users\u2003\n aS u ") = .ok () ∧
      Writer.spelling (Dialect.profile .postgres) false 0 (ofText "users\u2003\n aS u ").pieces =
        "users u" ∧
      r.checkTableRef (ofText "users u v") ≠ .ok () := by
  intro r
  have named : Names "users\u2003\n aS u " "users" (some "u") :=
    .introduced "users" "u" ['a', 'S'] (by decide +kernel) rfl
  have allowed : IsAllowed .strict "users" (some "u") :=
    ⟨Identifier.validate_eq_ok_iff.mpr (by decide), by
      simpa using Identifier.validate_eq_ok_iff.mpr (by decide)⟩
  obtain ⟨accepted, -, _, _, written⟩ := table_texts_exact r .postgres {} .first
  refine ⟨named, (accepted _).mpr ⟨_, _, named, allowed⟩, (written _ _ _ named).1 0, ?_⟩
  decide +kernel

end TableRef

end BoundSql
