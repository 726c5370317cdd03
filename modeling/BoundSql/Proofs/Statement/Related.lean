import BoundSql.Proofs.Value.Shape
import BoundSql.Render

/-!
# Statements that differ in bound values only

`Statement.Related R s s'` says that two statements on rows agree on everything but the values they
bind, and that these are as many in each place and related by `R` in pairs. Whatever `R` is, two
such statements are written alike but for their parameters (`sql_render_eq`,
`length_parameters_eq`). If `R` keeps the shapes of values, the rules judge the two alike, down to
the fault they report (`check_eq`).
-/

namespace BoundSql

open Piece

/-- The conditions agree on everything but their operands. -/
inductive Condition.Related (R : Value → Value → Prop) : Condition → Condition → Prop
  | intro (expr : Expr) (operator : Operator) {vs vs' : List Value} (h : List.Forall₂ R vs vs') :
    Related R ⟨expr, operator, vs⟩ ⟨expr, operator, vs'⟩

/-- The assignments are to one column. -/
def Update.RelatedAssignments (R : Value → Value → Prop) (a b : String × Value) : Prop :=
  a.1 = b.1 ∧ R a.2 b.2

/-- The statements are on rows and agree on everything but the values they bind: operands, assigned
values and rows. Those are as many in each place, and related in pairs. -/
inductive Statement.Related (R : Value → Value → Prop) : Statement → Statement → Prop
  | select (q : Select) {conditions groupConditions : List Condition}
    (h : List.Forall₂ (Condition.Related R) q.conditions conditions)
    (hg : List.Forall₂ (Condition.Related R) q.groupConditions groupConditions) :
    Related R (.select q) (.select { q with conditions, groupConditions })
  | insert (q : Insert) {rows : List (List Value)}
    (h : List.Forall₂ (List.Forall₂ R) q.rows rows) :
    Related R (.insert q) (.insert { q with rows })
  | update (q : Update) {assignments : List (String × Value)} {conditions : List Condition}
    (ha : List.Forall₂ (Update.RelatedAssignments R) q.assignments assignments)
    (h : List.Forall₂ (Condition.Related R) q.conditions conditions) :
    Related R (.update q) (.update { q with assignments, conditions })
  | delete (q : Delete) {conditions : List Condition}
    (h : List.Forall₂ (Condition.Related R) q.conditions conditions) :
    Related R (.delete q) (.delete { q with conditions })

variable {R : Value → Value → Prop}

section Lists

variable {α β : Type} {S : α → α → Prop} {xs ys : List α}

theorem map_eq_map_of_forall₂ {f : α → β} (h : List.Forall₂ S xs ys)
    (same : ∀ x y, S x y → f x = f y) : xs.map f = ys.map f := by
  induction h with
  | nil => rfl
  | cons hx _ ih => rw [List.map_cons, List.map_cons, same _ _ hx, ih]

theorem isEmpty_eq_of_forall₂ (h : List.Forall₂ S xs ys) : xs.isEmpty = ys.isEmpty := by
  cases h <;> rfl

end Lists

/-! ## What is written -/

namespace Piece

/-- The piece with the bound value forgotten. -/
def blank : Piece → Piece
  | bind _ => bind .null
  | x => x

theorem spelling_map_blank (profile : DialectProfile) (quoted : Bool) (n : Nat)
    (pieces : List Piece) :
    Writer.spelling profile quoted n (pieces.map blank) =
      Writer.spelling profile quoted n pieces := by
  induction pieces generalizing n with
  | nil => rfl
  | cons x pieces ih => cases x <;> simp only [List.map_cons, blank, Writer.spelling, ih]

theorem length_values_map_blank (pieces : List Piece) :
    (values (pieces.map blank)).length = (values pieces).length := by
  induction pieces with
  | nil => rfl
  | cons x pieces ih =>
    cases x with
    | text s => exact ih
    | ident name => exact ih
    | bind v => exact congrArg (· + 1) ih

theorem map_blank_separated (s : String) (groups : List (List Piece)) :
    (separated s groups).map blank = separated s (groups.map (List.map blank)) := by
  induction groups with
  | nil => rfl
  | cons g gs ih =>
    cases gs with
    | nil => rw [separated_singleton, List.map_singleton, separated_singleton]
    | cons g' gs =>
      rw [separated_cons_cons, List.map_append, List.map_cons, ih]
      rfl

/-- Groups that are blanked alike, with a text between them. -/
theorem map_blank_separated_eq {α : Type} {S : α → α → Prop} {xs ys : List α}
    {f : α → List Piece} (s : String) (h : List.Forall₂ S xs ys)
    (same : ∀ x y, S x y → (f x).map blank = (f y).map blank) :
    (separated s (xs.map f)).map blank = (separated s (ys.map f)).map blank := by
  rw [map_blank_separated, map_blank_separated, List.map_map, List.map_map]
  exact congrArg (separated s) (map_eq_map_of_forall₂ h same)

/-- Values are bound alike, as many as there are. -/
theorem map_blank_binds {vs vs' : List Value} (s : String) (h : List.Forall₂ R vs vs') :
    (separated s (vs.map fun v => [bind v])).map blank =
      (separated s (vs'.map fun v => [bind v])).map blank :=
  map_blank_separated_eq s h fun _ _ _ => rfl

end Piece

/-- Related lists have related members at each position. -/
theorem rel_getElem? {vs vs' : List Value} (h : List.Forall₂ R vs vs') (i : Nat) :
    Option.Rel R vs[i]? vs'[i]? := by
  induction h generalizing i with
  | nil => exact .none
  | cons hv _ ih =>
    cases i with
    | zero => exact .some hv
    | succ i => exact ih i

namespace Condition

/-- Related conditions refer to related operands. -/
theorem forall₂_referred {c c' : Condition} (h : Related R c c') :
    List.Forall₂ R c.referred c'.referred := by
  obtain ⟨expr, operator, h⟩ := h
  have slots : ∀ n, List.Forall₂ Eq (operator.slots n) (operator.slots n) := by
    intro n
    rw [List.forall₂_eq_eq_eq]
  rw [referred, referred, h.length_eq]
  refine List.rel_filterMap (fun i j e => ?_) (slots _)
  rw [← e]
  exact rel_getElem? h i

theorem blank_operandPieces {c c' : Condition} (h : Related R c c') :
    c.operandPieces.map blank = c'.operandPieces.map blank := by
  have referred := forall₂_referred h
  have joined := map_blank_binds " AND " referred
  have listed := map_blank_binds ", " referred
  obtain ⟨expr, operator, h⟩ := h
  unfold operandPieces
  cases operator with
  | isNull => rfl
  | isNotNull => rfl
  | isIn => simp only [Piece.listed, List.map_append, listed]
  | notIn => simp only [Piece.listed, List.map_append, listed]
  | _ => simp only [List.map_append, joined]

theorem blank_pieces {c c' : Condition} (h : Related R c c') :
    c.pieces.map blank = c'.pieces.map blank := by
  have operands := blank_operandPieces h
  obtain ⟨expr, operator, h⟩ := h
  rw [pieces, pieces, List.map_append, operands, ← List.map_append]

theorem blank_clause (keyword : String) {cs cs' : List Condition}
    (h : List.Forall₂ (Related R) cs cs') :
    (clause keyword cs).map blank = (clause keyword cs').map blank := by
  have conditions := map_blank_separated_eq " AND " h fun _ _ => blank_pieces
  unfold clause
  rw [isEmpty_eq_of_forall₂ h]
  split
  · rfl
  · rw [List.map_append, List.map_append, conditions]

end Condition

namespace Statement

/-- **Related statements are spelled alike, piece by piece.** -/
theorem blank_pieces {s s' : Statement} (h : Related R s s') (p : DialectProfile) :
    (s.pieces p).map blank = (s'.pieces p).map blank := by
  cases h with
  | select q h hg =>
    simp only [pieces, Select.pieces, Select.body, List.map_append, Condition.blank_clause _ h,
      Condition.blank_clause _ hg]
    rfl
  | insert q h =>
    have rows := map_blank_separated_eq (f := Insert.rowPieces) ", " h fun vs vs' hv => by
      simp only [Insert.rowPieces, listed, List.map_append, map_blank_binds ", " hv]
    simp only [pieces, Insert.pieces, List.map_append]
    rw [listed, listed, rows]
  | update q ha h =>
    have assigned := map_blank_separated_eq (f := Update.assignmentPieces) ", " ha
      fun a b hab => by rw [Update.assignmentPieces, Update.assignmentPieces, hab.1]; rfl
    simp only [pieces, Update.pieces, List.map_append, Condition.blank_clause _ h]
    rw [listed, listed, assigned]
  | delete q h =>
    simp only [pieces, Delete.pieces, List.map_append, Condition.blank_clause _ h]

variable {s s' : Statement}

theorem sql_render_eq (h : Related R s s') (d : Dialect) (quoted : Bool) :
    (s.render d quoted).sql = (s'.render d quoted).sql := by
  rw [render, render, Writer.finish_write_new, Writer.finish_write_new]
  simp only
  rw [← spelling_map_blank, blank_pieces h, spelling_map_blank]

theorem length_parameters_eq (h : Related R s s') (d : Dialect) (quoted : Bool) :
    (s.render d quoted).parameters.length = (s'.render d quoted).parameters.length := by
  rw [render, render, Writer.finish_write_new, Writer.finish_write_new]
  simp only
  rw [← length_values_map_blank, blank_pieces h, length_values_map_blank]

end Statement

/-! ## What is judged -/

namespace Rules

variable {r : Rules}

theorem checkCondition_eq (hR : ∀ v w, R v w → v.shape = w.shape) {c c' : Condition}
    (h : Condition.Related R c c') : r.checkCondition c = r.checkCondition c' := by
  obtain ⟨expr, operator, h⟩ := h
  have values := judgeAll_eq_of_forall₂ h fun v w hv => checkValue_eq (r := r) (hR v w hv)
  simp only [checkCondition, checkValues, h.length_eq, values]

theorem checkConditions_eq (hR : ∀ v w, R v w → v.shape = w.shape) {cs cs' : List Condition}
    (h : List.Forall₂ (Condition.Related R) cs cs') :
    r.checkConditions cs = r.checkConditions cs' :=
  judgeAll_eq_of_forall₂ h fun _ _ => checkCondition_eq hR

theorem checkRows_eq (hR : ∀ v w, R v w → v.shape = w.shape) {rows rows' : List (List Value)}
    (h : List.Forall₂ (List.Forall₂ R) rows rows') (columns position : Nat) :
    r.checkRows columns position rows = r.checkRows columns position rows' := by
  induction h generalizing position with
  | nil => rfl
  | cons hrow _ ih =>
    have values := judgeAll_eq_of_forall₂ hrow fun v w hv => checkValue_eq (r := r) (hR v w hv)
    simp only [checkRows, checkValues, hrow.length_eq, values, ih]

/-- **Related statements are judged alike** where related values have one shape. -/
theorem check_eq (hR : ∀ v w, R v w → v.shape = w.shape) {s s' : Statement}
    (h : Statement.Related R s s') : r.check s = r.check s' := by
  cases h with
  | select q h hg =>
    simp only [check, checkSelect, checkClauses, checkConditions_eq hR h, checkConditions_eq hR hg]
    rfl
  | insert q h =>
    simp only [check, checkInsert, checkRows_eq hR h, isEmpty_eq_of_forall₂ h]
  | update q ha h =>
    have assigned := judgeAll_eq_of_forall₂ ha fun a b hab => by
      have : r.checkAssignment a = r.checkAssignment b := by
        rw [checkAssignment, checkAssignment, hab.1, checkValue_eq (hR _ _ hab.2)]
      exact this
    simp only [check, checkUpdate, checkConditions_eq hR h, isEmpty_eq_of_forall₂ ha, assigned]
  | delete q h =>
    simp only [check, checkDelete, checkConditions_eq hR h]

end Rules

end BoundSql
