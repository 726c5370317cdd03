import BoundSql.Proofs.Statement.LegibleSelect

/-!
# Rendering loses nothing

Two accepted statements on rows with one text and one list of parameters are one statement, up to
what has no writing of its own: a star stands for no items, and columns to return are dropped where
the dialect returns none (`Statement.normal`). The first word tells the kind of the statement; the
clauses of each kind are then read one after the other. Headline: **`rendering_loses_nothing`**.
-/

namespace BoundSql

open Piece

variable {d : Dialect} {r : Rules}

/-! ## Returned columns -/

/-- The columns that the dialect returns of those asked for. -/
def DialectProfile.kept (p : DialectProfile) (columns : List String) : List String :=
  if p.supportsReturning then columns else []

theorem symbols_returningPieces (columns : List String) :
    symbols d (returningPieces d.profile columns) =
      clauseSymbols " RETURNING " ", " (nameSymbols d) (d.profile.kept columns) := by
  unfold returningPieces clauseSymbols DialectProfile.kept
  cases d.profile.supportsReturning <;> cases columns <;>
    simp [symbols, symbols_idents]

theorem begins_returning (columns : List String) :
    symbols d (returningPieces d.profile columns) = [] ∨
      ∃ k ∈ [lead " RETURNING "], Leads k (symbols d (returningPieces d.profile columns)) := by
  rw [symbols_returningPieces]
  exact Legible.begins_clauseSymbols fun _ _ => leads_chars _ _

/-- Columns at the end of a statement are read back as far as they are returned. -/
theorem kept_eq_of_symbols_eq {columns columns' : List String}
    (e : symbols d (returningPieces d.profile columns) =
      symbols d (returningPieces d.profile columns')) :
    d.profile.kept columns = d.profile.kept columns' := by
  rw [symbols_returningPieces, symbols_returningPieces] at e
  exact (legible_names " RETURNING " trivial trivial (avoids_nil (by decide))
    (avoids_nil (by decide)) (congrArg (· ++ []) e)).1

theorem returningPieces_kept (p : DialectProfile) (columns : List String) :
    returningPieces p (p.kept columns) = returningPieces p columns := by
  unfold returningPieces DialectProfile.kept
  cases p.supportsReturning <;> simp

/-- What follows the conditions of an UPDATE or a DELETE statement is no condition. -/
theorem begins_conditions (conditions : List Condition) (columns : List String) :
    Begins ([Condition.clauseLead "WHERE"] ++ [lead " RETURNING "])
      (symbols d (Condition.clause "WHERE" conditions) ++
        symbols d (returningPieces d.profile columns)) :=
  .append (Condition.begins_clause "WHERE" conditions) (begins_returning columns)

/-- **Conditions and returned columns are read back** from the end of a statement. -/
theorem tail_eq_of_symbols_eq {conditions conditions' : List Condition}
    {columns columns' : List String} (h : r.checkConditions conditions = .ok ())
    (h' : r.checkConditions conditions' = .ok ())
    (e : symbols d (Condition.clause "WHERE" conditions) ++
        symbols d (returningPieces d.profile columns) =
      symbols d (Condition.clause "WHERE" conditions') ++
        symbols d (returningPieces d.profile columns')) :
    conditions = conditions' ∧ d.profile.kept columns = d.profile.kept columns' := by
  obtain ⟨same, rest⟩ := (Condition.legible_clause "WHERE").before (by decide) h h'
    (begins_returning columns) (begins_returning columns') e
  exact ⟨same, kept_eq_of_symbols_eq rest⟩

/-! ## INSERT -/

theorem Rules.length_eq_of_checkRows {columns position : Nat} {rows : List (List Value)}
    (h : r.checkRows columns position rows = .ok ()) : ∀ row ∈ rows, row.length = columns := by
  induction rows generalizing position with
  | nil => exact fun _ hr => absurd hr List.not_mem_nil
  | cons row rows ih =>
    simp only [checkRows, bind_eq_ok_iff, needs_eq_ok_iff, beq_iff_eq] at h
    exact List.forall_mem_cons.mpr ⟨h.1, ih h.2.2⟩

namespace Insert

/-- The statement with the columns that the dialect returns. -/
def normal (p : DialectProfile) (q : Insert) : Insert := { q with returned := p.kept q.returned }

theorem symbols_pieces (q : Insert) : symbols d (q.pieces d.profile) =
    chars "INSERT INTO " ++ (nameSymbols d q.table ++ (chars " (" ++
      (symbols d (idents q.columnNames) ++ (chars ") VALUES " ++
        ((chars ", ").intercalate (q.rows.map rowSymbols) ++
          symbols d (returningPieces d.profile q.returned)))))) := by
  have row : (fun row => symbols d (rowPieces row)) = rowSymbols := by
    funext row
    simp only [rowPieces, rowSymbols, listed, symbols_append, symbols, symbols_separated,
      List.append_nil, List.append_assoc]
  simp only [pieces, symbols_append, symbols, listed, symbols_separated, row,
    List.append_nil, List.append_assoc]

theorem rows_of_check {q : Insert} (h : r.checkInsert q = .ok ()) :
    q.columnNames ≠ [] ∧ q.rows ≠ [] ∧ ∀ row ∈ q.rows, row ≠ [] := by
  simp only [Rules.checkInsert, bind_eq_ok_iff, Rules.needs_eq_ok_iff, Bool.not_eq_true',
    List.isEmpty_eq_false_iff] at h
  obtain ⟨-, columns, -, rows, widths, -⟩ := h
  refine ⟨columns, rows, fun row hr => List.ne_nil_of_length_pos ?_⟩
  rw [Rules.length_eq_of_checkRows widths row hr]
  exact List.length_pos_iff.mpr columns

/-- **An INSERT statement is read back from its symbols.** -/
theorem normal_eq_of_symbols_eq {q q' : Insert} (h : r.checkInsert q = .ok ())
    (h' : r.checkInsert q' = .ok ())
    (e : symbols d (q.pieces d.profile) = symbols d (q'.pieces d.profile)) :
    q.normal d.profile = q'.normal d.profile := by
  have rows := legible_row.joined ", " (fun _ _ => leads_chars _ _) rfl
  obtain ⟨someColumn, someRows⟩ := rows_of_check h
  obtain ⟨someColumn', someRows'⟩ := rows_of_check h'
  rw [symbols_pieces, symbols_pieces] at e
  obtain ⟨table, e₁⟩ := legible_name trivial trivial (avoids_chars (by decide) _)
    (avoids_chars (by decide) _) (List.append_cancel_left e)
  obtain ⟨columnNames, e₂⟩ := legible_idents someColumn someColumn' (avoids_chars (by decide) _)
    (avoids_chars (by decide) _) (List.append_cancel_left e₁)
  obtain ⟨sameRows, e₃⟩ := rows.before (by decide) someRows someRows'
    (begins_returning q.returned) (begins_returning q'.returned) (List.append_cancel_left e₂)
  cases q
  cases q'
  rw [normal, normal, Insert.mk.injEq]
  exact ⟨table, columnNames, sameRows, kept_eq_of_symbols_eq e₃⟩

end Insert

/-! ## UPDATE -/

namespace Update

/-- The statement with the columns that the dialect returns. -/
def normal (p : DialectProfile) (q : Update) : Update := { q with returned := p.kept q.returned }

theorem legible_assignment : Legible [] (fun _ => True) fun a =>
    symbols d (assignmentPieces a) := by
  rintro ⟨a, v⟩ ⟨b, w⟩ t t' _ _ _ _ e
  simp only [assignmentPieces, symbols, List.append_assoc] at e
  obtain ⟨name, e₁⟩ := legible_name trivial trivial (avoids_chars (by decide) _)
    (avoids_chars (by decide) _) e
  obtain ⟨value, next⟩ := Legible.value.anywhere trivial trivial (List.append_cancel_left e₁)
  exact ⟨by rw [name, value], next⟩

theorem symbols_pieces (q : Update) : symbols d (q.pieces d.profile) =
    chars "UPDATE " ++ (nameSymbols d q.table ++ (chars " SET " ++
      ((chars ", ").intercalate (q.assignments.map fun a => symbols d (assignmentPieces a)) ++
        (symbols d (Condition.clause "WHERE" q.conditions) ++
          symbols d (returningPieces d.profile q.returned))))) := by
  simp only [pieces, symbols_append, symbols, listed, symbols_separated, List.append_nil,
    List.append_assoc]

/-- **An UPDATE statement is read back from its symbols.** -/
theorem normal_eq_of_symbols_eq {q q' : Update} (h : r.checkUpdate q = .ok ())
    (h' : r.checkUpdate q' = .ok ())
    (e : symbols d (q.pieces d.profile) = symbols d (q'.pieces d.profile)) :
    q.normal d.profile = q'.normal d.profile := by
  have assignments := (legible_assignment (d := d)).joined ", " (fun _ _ => leads_chars _ _) rfl
  simp only [Rules.checkUpdate, bind_eq_ok_iff, Rules.needs_eq_ok_iff, Bool.not_eq_true',
    List.isEmpty_eq_false_iff] at h h'
  obtain ⟨-, someAssignment, -, conditionsOk, -⟩ := h
  obtain ⟨-, someAssignment', -, conditionsOk', -⟩ := h'
  rw [symbols_pieces, symbols_pieces] at e
  obtain ⟨table, e₁⟩ := legible_name trivial trivial (avoids_chars (by decide) _)
    (avoids_chars (by decide) _) (List.append_cancel_left e)
  obtain ⟨sameAssignments, e₂⟩ := assignments.before (by decide)
    ⟨someAssignment, fun _ _ => trivial⟩ ⟨someAssignment', fun _ _ => trivial⟩
    (begins_conditions q.conditions q.returned) (begins_conditions q'.conditions q'.returned)
    (List.append_cancel_left e₁)
  obtain ⟨conditions, returned⟩ := tail_eq_of_symbols_eq conditionsOk conditionsOk' e₂
  cases q
  cases q'
  rw [normal, normal, Update.mk.injEq]
  exact ⟨table, sameAssignments, conditions, returned⟩

end Update

/-! ## DELETE -/

namespace Delete

/-- The statement with the columns that the dialect returns. -/
def normal (p : DialectProfile) (q : Delete) : Delete := { q with returned := p.kept q.returned }

theorem symbols_pieces (q : Delete) : symbols d (q.pieces d.profile) =
    chars "DELETE FROM " ++ (nameSymbols d q.table ++
      (symbols d (Condition.clause "WHERE" q.conditions) ++
        symbols d (returningPieces d.profile q.returned))) := by
  simp only [pieces, symbols_append, symbols, List.append_nil, List.append_assoc]

/-- **A DELETE statement is read back from its symbols.** -/
theorem normal_eq_of_symbols_eq {q q' : Delete} (h : r.checkDelete q = .ok ())
    (h' : r.checkDelete q' = .ok ())
    (e : symbols d (q.pieces d.profile) = symbols d (q'.pieces d.profile)) :
    q.normal d.profile = q'.normal d.profile := by
  simp only [Rules.checkDelete, bind_eq_ok_iff] at h h'
  rw [symbols_pieces, symbols_pieces] at e
  obtain ⟨table, e₁⟩ := legible_name.before (by decide) trivial trivial
    (begins_conditions q.conditions q.returned) (begins_conditions q'.conditions q'.returned)
    (List.append_cancel_left e)
  obtain ⟨conditions, returned⟩ := tail_eq_of_symbols_eq h.2.1 h'.2.1 e₁
  cases q
  cases q'
  rw [normal, normal, Delete.mk.injEq]
  exact ⟨table, conditions, returned⟩

end Delete

/-! ## Statements -/

namespace Samples

/-- A row that is added, with columns to return. -/
def addedNote (returned : List String) : Statement := .insert
  { table := "notes", columnNames := ["id"], rows := [[.int 1]], returned }

/-- Rows behind others. -/
def notes (items : List SelectItem) (count skipped : Int) : Statement := .select
  { items, tables := [{ name := "notes" }], rowLimit := some count, rowOffset := some skipped }

end Samples

namespace Statement

variable {s s' : Statement}

/-- The statement up to what has no writing of its own. -/
def normal (p : DialectProfile) : Statement → Statement
  | select q => select q.normal
  | insert q => insert (q.normal p)
  | update q => update (q.normal p)
  | delete q => delete (q.normal p)
  | createTable q => createTable q

/-- **What is left out of account is not written.** -/
theorem pieces_normal (s : Statement) (p : DialectProfile) :
    (s.normal p).pieces p = s.pieces p := by
  cases s with
  | select q =>
    have items : Select.itemsPieces (Select.normalItems q.items) = Select.itemsPieces q.items := by
      cases q.items <;> rfl
    simp only [normal, pieces, Select.pieces, Select.normal, Select.body, Select.opening, items]
    rfl
  | insert q => simp only [normal, pieces, Insert.normal, Insert.pieces, returningPieces_kept]
  | update q => simp only [normal, pieces, Update.normal, Update.pieces, returningPieces_kept]
  | delete q => simp only [normal, pieces, Delete.normal, Delete.pieces, returningPieces_kept]
  | createTable q => rfl

/-- The first word of a statement is that of its kind. -/
theorem leads_kind (rows : s.kind ≠ .createTable) :
    Leads (lead s.kind.text) (symbols d (s.pieces d.profile)) := by
  have begun : ∀ (kind : StatementKind) {start : String} (t : List Symbol),
      lead kind.text <+: lead start → Leads (lead kind.text) (chars start ++ t) :=
    fun _ _ t le => le.trans (leads_chars _ t)
  cases s with
  | select q =>
    rw [pieces, Select.symbols_pieces]
    exact begun .select _ (by decide)
  | insert q =>
    rw [pieces, Insert.symbols_pieces]
    exact begun .insert _ (by decide)
  | update q =>
    rw [pieces, Update.symbols_pieces]
    exact begun .update _ (by decide)
  | delete q =>
    rw [pieces, Delete.symbols_pieces]
    exact begun .delete _ (by decide)
  | createTable q => exact absurd rfl rows

theorem kind_eq_of_symbols_eq (rows : s.kind ≠ .createTable) (rows' : s'.kind ≠ .createTable)
    (e : symbols d (s.pieces d.profile) = symbols d (s'.pieces d.profile)) : s.kind = s'.kind := by
  have first := leads_kind (d := d) rows
  rw [e] at first
  have words : ∀ a b : StatementKind, a ≠ b → apart [lead b.text] [lead a.text] = true := by
    intro a b
    cases a <;> cases b <;> decide
  by_contra other
  exact first.not_leads (words _ _ other) (leads_kind rows')

/-- **A statement on rows is read back from its symbols.** -/
theorem normal_eq_of_symbols_eq (rows : s.kind ≠ .createTable) (rows' : s'.kind ≠ .createTable)
    (h : r.check s = .ok ()) (h' : r.check s' = .ok ())
    (e : symbols d (s.pieces d.profile) = symbols d (s'.pieces d.profile)) :
    s.normal d.profile = s'.normal d.profile := by
  have kinds := kind_eq_of_symbols_eq rows rows' e
  cases s <;> cases s' <;> simp only [kind, reduceCtorEq] at kinds
  case select => exact congrArg select (Select.normal_eq_of_symbols_eq h h' e)
  case insert => exact congrArg insert (Insert.normal_eq_of_symbols_eq h h' e)
  case update => exact congrArg update (Update.normal_eq_of_symbols_eq h h' e)
  case delete => exact congrArg delete (Delete.normal_eq_of_symbols_eq h h' e)
  case createTable => exact absurd rfl rows

/-- **Rendering loses nothing.** With quoted names, two accepted statements on rows have one text
and one list of parameters exactly if they are one statement, but for a star that stands for no
items and for columns that the dialect does not return. -/
theorem rendering_loses_nothing (d : Dialect) (r : Rules) (s s' : Statement)
    (rows : s.kind ≠ .createTable) (rows' : s'.kind ≠ .createTable) (accepted : r.check s = .ok ())
    (accepted' : r.check s' = .ok ()) :
    ((s.render d true).sql = (s'.render d true).sql ∧
        (s.render d true).parameters = (s'.render d true).parameters) ↔
      s.normal d.profile = s'.normal d.profile := by
  simp only [render, Writer.finish_write_new]
  constructor
  · rintro ⟨text, bound⟩
    exact normal_eq_of_symbols_eq rows rows' accepted accepted'
      (symbols_eq_of_spelling_eq (plain_of_check accepted rows _) (plain_of_check accepted' rows' _)
        (s.spaced_pieces _) (s'.spaced_pieces _) text bound)
  · intro same
    rw [← pieces_normal s, ← pieces_normal s', same]
    exact ⟨rfl, rfl⟩

/-- In MySQL a column to return makes no difference, and a star stands for no items. In SQL Server
ten rows behind twenty are not taken for twenty rows behind ten. -/
theorem rendering_loses_nothing_samples :
    ((Samples.addedNote ["id"]).render .mySql true).sql =
        ((Samples.addedNote []).render .mySql true).sql ∧
      ((Samples.notes [.wildcard none] 10 20).render .msSql true).sql =
        ((Samples.notes [] 10 20).render .msSql true).sql ∧
      ((Samples.notes [] 10 20).render .msSql true).sql ≠
        ((Samples.notes [] 20 10).render .msSql true).sql := by
  refine ⟨?_, ?_, fun text => ?_⟩
  · exact ((rendering_loses_nothing .mySql (GeneratorConfig.new .mySql).rules _ _ (by decide)
      (by decide) rfl rfl).mpr rfl).1
  · exact ((rendering_loses_nothing .msSql (GeneratorConfig.new .msSql).rules _ _ (by decide)
      (by decide) rfl rfl).mpr rfl).1
  · have same := (rendering_loses_nothing .msSql (GeneratorConfig.new .msSql).rules
      (Samples.notes [] 10 20) (Samples.notes [] 20 10) (by decide) (by decide) rfl rfl).mp
      ⟨text, rfl⟩
    have limits := congrArg Select.rowLimit (select.inj same)
    exact absurd limits (by decide)

end Statement

end BoundSql
