import BoundSql.Proofs.Generator.Alignment

/-!
# Every position has an operand

How many operands an operator takes is said twice: the rules count them (`Operator.arity?`), and the
text of a condition refers to them by position. Here a statement is written with its operands read
by position, so that there is no text where a position has no operand (`Statement.render?`). Such a
text exists exactly if every condition is complete, and it is then the one that is written
(`render?_eq_some_iff`). The two counts agree: the rules accept a number of operands exactly if the
text of the condition binds each of them once, an empty list apart (`checkArity_eq_ok_iff_bound`).

Headline: **`accepted_statements_written`**.
-/

namespace BoundSql

open Piece

variable {α β : Type}

/-- What is made of a reading is there exactly if the reading is. -/
theorem bind_some_eq_some_iff {read : Option α} {ready : Prop} {a : α}
    (h : ∀ x, read = some x ↔ ready ∧ x = a) (f : α → β) {y : β} :
    (do let x ← read; some (f x)) = some y ↔ ready ∧ y = f a := by
  simp only [Option.bind_eq_bind, Option.bind_eq_some_iff, Option.some.injEq, h]
  constructor
  · rintro ⟨x, ⟨hr, rfl⟩, rfl⟩
    exact ⟨hr, rfl⟩
  · rintro ⟨hr, rfl⟩
    exact ⟨a, ⟨hr, rfl⟩, rfl⟩

/-- Where members can be read if they are ready, a list can be read if all of its members are. -/
theorem mapM_eq_some_iff {read : α → Option β} {ready : α → Prop} {f : α → β}
    (h : ∀ x y, read x = some y ↔ ready x ∧ y = f x) {xs : List α} {ys : List β} :
    xs.mapM read = some ys ↔ (∀ x ∈ xs, ready x) ∧ ys = xs.map f := by
  induction xs generalizing ys with
  | nil => simp [eq_comm]
  | cons x xs ih =>
    simp only [List.mapM_cons, Option.bind_eq_bind, Option.bind_eq_some_iff, Option.pure_def,
      Option.some.injEq, h, ih, List.forall_mem_cons, List.map_cons]
    constructor
    · rintro ⟨y, ⟨hx, rfl⟩, zs, ⟨hxs, rfl⟩, rfl⟩
      exact ⟨⟨hx, hxs⟩, rfl⟩
    · rintro ⟨⟨hx, hxs⟩, rfl⟩
      exact ⟨f x, ⟨hx, rfl⟩, xs.map f, ⟨hxs, rfl⟩, rfl⟩

/-! ## Conditions read by position -/

namespace Condition

variable {c : Condition}

/-- What follows the operator of a condition, its operands read by position. -/
def operandPieces? (c : Condition) : Option (List Piece) :=
  match c.operator with
  | .isNull | .isNotNull => some []
  | .isIn | .notIn =>
    some ([text " ("] ++ listed (c.operands.map fun v => [bind v]) ++ [text ")"])
  | .between => do
    let low ← c.operands[0]?
    let high ← c.operands[1]?
    some [text " ", bind low, text " AND ", bind high]
  | _ => do
    let operand ← c.operands[0]?
    some [text " ", bind operand]

/-- A condition, its operands read by position. -/
def pieces? (c : Condition) : Option (List Piece) := do
  let operands ← c.operandPieces?
  some (c.expr.pieces ++ [text " ", text c.operator.text] ++ operands)

/-- A keyword and conditions that all have to hold, their operands read by position. -/
def clause? (keyword : String) (conditions : List Condition) : Option (List Piece) :=
  if conditions.isEmpty then some []
  else do
    let groups ← conditions.mapM pieces?
    some ([text " ", text keyword, text " "] ++ separated " AND " groups)

/-- Every position that the text of the condition refers to has an operand. -/
def Complete (c : Condition) : Prop :=
  ∀ i ∈ c.operator.slots c.operands.length, i < c.operands.length

/-- A condition with the operands its operator takes is complete. -/
theorem complete_of_fits (h : Rules.Fits c.operator c.operands.length) : c.Complete := by
  intro i hi
  rw [Operator.slots_of_fits h] at hi
  exact List.mem_range.mp hi

/-- **The operands can be read by position exactly if none is missing**, and then what is read is
what is written. -/
theorem operandPieces?_eq_some_iff {p : List Piece} :
    c.operandPieces? = some p ↔ c.Complete ∧ p = c.operandPieces := by
  obtain ⟨expr, operator, operands⟩ := c
  -- The operators that take one operand are alike; the others differ in what they read.
  cases operator with
  | isNull => simp [operandPieces?, operandPieces, Complete, Operator.slots, eq_comm]
  | isNotNull => simp [operandPieces?, operandPieces, Complete, Operator.slots, eq_comm]
  | isIn =>
    simp [operandPieces?, operandPieces, Complete, referred, Operator.slots,
      filterMap_getElem?_range, eq_comm]
  | notIn =>
    simp [operandPieces?, operandPieces, Complete, referred, Operator.slots,
      filterMap_getElem?_range, eq_comm]
  | between =>
    rcases operands with _ | ⟨low, _ | ⟨high, rest⟩⟩
    · exact ⟨fun read => absurd read.symm (Option.some_ne_none p),
        fun h => absurd (h.1 0 List.mem_cons_self) (Nat.lt_irrefl 0)⟩
    · simp [operandPieces?, Complete, Operator.slots]
    · simp [operandPieces?, operandPieces, Complete, referred, Operator.slots,
        separated_cons_cons, eq_comm]
  | _ =>
    rcases operands with _ | ⟨v, rest⟩ <;>
      simp [operandPieces?, operandPieces, Complete, referred, Operator.slots, eq_comm]

theorem pieces?_eq_some_iff {p : List Piece} :
    c.pieces? = some p ↔ c.Complete ∧ p = c.pieces :=
  bind_some_eq_some_iff (fun _ => operandPieces?_eq_some_iff) _

theorem clause?_eq_some_iff {keyword : String} {conditions : List Condition} {p : List Piece} :
    clause? keyword conditions = some p ↔
      (∀ c ∈ conditions, c.Complete) ∧ p = clause keyword conditions := by
  unfold clause? clause
  split
  · rename_i empty
    simp [List.isEmpty_iff.mp empty, eq_comm]
  · exact bind_some_eq_some_iff (fun _ => mapM_eq_some_iff fun _ _ => pieces?_eq_some_iff) _

/-! ## The two counts -/

/-- A complete condition refers to one operand for each position in its text. -/
theorem length_referred (h : c.Complete) :
    c.referred.length = (c.operator.slots c.operands.length).length := by
  rw [referred, List.length_filterMap_eq_countP, List.countP_eq_length]
  intro i hi
  rw [List.getElem?_eq_getElem (h i hi)]
  rfl

end Condition

/-- **The rules and the text count alike**: an operator takes a number of operands exactly if its
text then refers to that many positions, where a list may not be empty. -/
theorem Operator.fits_iff_length_slots {op : Operator} {n : Nat} :
    Rules.Fits op n ↔ (op.slots n).length = n ∧ (op.arity? = none → n ≠ 0) := by
  cases op <;> simp [Rules.Fits, arity?, slots, eq_comm, Nat.pos_iff_ne_zero]

namespace Condition

/-- **The rules and the text agree on operands**: a number of operands is accepted exactly if the
text of the condition reads them all without a miss and binds each once, in order, where a list of
operands may not be empty. -/
theorem checkArity_eq_ok_iff_bound {c : Condition} :
    Rules.checkArity c.operator c.operands.length = .ok () ↔
      c.operandPieces?.map values = some c.operands ∧
        (c.operator.arity? = none → c.operands ≠ []) := by
  rw [Rules.checkArity_eq_ok_iff]
  constructor
  · intro fits
    rw [operandPieces?_eq_some_iff.mpr ⟨complete_of_fits fits, rfl⟩]
    refine ⟨congrArg some (values_operandPieces fits), fun unbounded empty => ?_⟩
    exact (Operator.fits_iff_length_slots.mp fits).2 unbounded (List.length_eq_zero_iff.mpr empty)
  · rintro ⟨bound, nonempty⟩
    obtain ⟨p, read, bound⟩ := Option.map_eq_some_iff.mp bound
    obtain ⟨complete, rfl⟩ := operandPieces?_eq_some_iff.mp read
    rw [values_operandPieces_eq_referred] at bound
    refine Operator.fits_iff_length_slots.mpr ⟨?_, fun unbounded empty => ?_⟩
    · rw [← length_referred complete, bound]
    · exact nonempty unbounded (List.length_eq_zero_iff.mp empty)

end Condition

/-! ## Statements read by position -/

/-- A SELECT statement, the operands of its conditions read by position. -/
def Select.pieces? (p : DialectProfile) (q : Select) : Option (List Piece) := do
  let rows ← Condition.clause? "WHERE" q.conditions
  let groups ← Condition.clause? "HAVING" q.groupConditions
  some (q.opening ++ limitHead p.limitSyntax q ++
    (itemsPieces q.items ++ [text " FROM "] ++ listed (q.tables.map TableRef.pieces) ++
      q.joins.flatMap joinPieces ++ rows ++ groupPieces q.groups ++ groups ++
      orderPieces q.orders) ++
    limitTail p.limitSyntax q)

/-- An UPDATE statement, the operands of its conditions read by position. -/
def Update.pieces? (p : DialectProfile) (q : Update) : Option (List Piece) := do
  let rows ← Condition.clause? "WHERE" q.conditions
  some ([text "UPDATE ", ident q.table, text " SET "] ++
    listed (q.assignments.map assignmentPieces) ++ rows ++ returningPieces p q.returned)

/-- A DELETE statement, the operands of its conditions read by position. -/
def Delete.pieces? (p : DialectProfile) (q : Delete) : Option (List Piece) := do
  let rows ← Condition.clause? "WHERE" q.conditions
  some ([text "DELETE FROM ", ident q.table] ++ rows ++ returningPieces p q.returned)

namespace Statement

variable {s : Statement}

/-- The pieces of a statement, the operands of its conditions read by position. -/
def pieces? (p : DialectProfile) : Statement → Option (List Piece)
  | select q => q.pieces? p
  | insert q => some (q.pieces p)
  | update q => q.pieces? p
  | delete q => q.pieces? p
  | createTable q => some (q.pieces p)

/-- A statement as a dialect writes it, the operands of its conditions read by position. -/
def render? (d : Dialect) (quotesIdentifiers : Bool) (s : Statement) : Option GeneratedQuery := do
  let pieces ← s.pieces? d.profile
  some ((Writer.new d quotesIdentifiers).write pieces).finish

/-- The conditions of a statement: on rows, then on groups. -/
def conditions : Statement → List Condition
  | select q => q.conditions ++ q.groupConditions
  | update q => q.conditions
  | delete q => q.conditions
  | insert _ | createTable _ => []

/-- The values that a statement stores. -/
def storedValues : Statement → List Value
  | insert q => q.rows.flatten
  | update q => q.assignments.map (·.2)
  | select _ | delete _ | createTable _ => []

/-- A statement binds what it stores, then the operands of its conditions. -/
theorem boundValues_eq (s : Statement) :
    s.boundValues = s.storedValues ++ operandsOf s.conditions := by
  cases s with
  | select q => exact List.flatMap_append.symm
  | insert q => exact (List.append_nil _).symm
  | update q => rfl
  | delete q => rfl
  | createTable q => rfl

theorem pieces?_eq_some_iff {profile : DialectProfile} {p : List Piece} :
    s.pieces? profile = some p ↔
      (∀ c ∈ s.conditions, c.Complete) ∧ p = s.pieces profile := by
  cases s with
  | select q =>
    simp only [pieces?, Select.pieces?, Option.bind_eq_bind, Option.bind_eq_some_iff,
      Option.some.injEq, Condition.clause?_eq_some_iff, conditions, List.forall_mem_append]
    constructor
    · rintro ⟨_, ⟨rows, rfl⟩, _, ⟨groups, rfl⟩, rfl⟩
      exact ⟨⟨rows, groups⟩, rfl⟩
    · rintro ⟨⟨rows, groups⟩, rfl⟩
      exact ⟨_, ⟨rows, rfl⟩, _, ⟨groups, rfl⟩, rfl⟩
  | insert q => simp [pieces?, pieces, conditions, eq_comm]
  | update q => exact bind_some_eq_some_iff (fun _ => Condition.clause?_eq_some_iff) _
  | delete q => exact bind_some_eq_some_iff (fun _ => Condition.clause?_eq_some_iff) _
  | createTable q => simp [pieces?, pieces, conditions, eq_comm]

/-- **A statement can be written by position exactly if its conditions are complete**, and then the
text read so is the text that is written. -/
theorem render?_eq_some_iff {d : Dialect} {quoted : Bool} {q : GeneratedQuery} :
    s.render? d quoted = some q ↔
      (∀ c ∈ s.conditions, c.Complete) ∧ q = s.render d quoted :=
  bind_some_eq_some_iff (fun _ => pieces?_eq_some_iff) _

/-- The conditions of an accepted statement are accepted, on rows and on groups. -/
theorem checkCondition_of_check {r : Rules} (h : r.check s = .ok ()) :
    ∀ c ∈ s.conditions, r.checkCondition c = .ok () := by
  cases s with
  | select q =>
    simp only [Rules.check, Rules.checkSelect, Rules.checkClauses, bind_eq_ok_iff] at h
    obtain ⟨-, -, -, conditions, -, groupConditions, -⟩ := h
    exact List.forall_mem_append.mpr
      ⟨judgeAll_eq_ok_iff.mp conditions, judgeAll_eq_ok_iff.mp groupConditions⟩
  | insert q => exact fun c hc => absurd hc List.not_mem_nil
  | update q =>
    simp only [Rules.check, Rules.checkUpdate, bind_eq_ok_iff] at h
    exact judgeAll_eq_ok_iff.mp h.2.2.2.1
  | delete q =>
    simp only [Rules.check, Rules.checkDelete, bind_eq_ok_iff] at h
    exact judgeAll_eq_ok_iff.mp h.2.1
  | createTable q => exact fun c hc => absurd hc List.not_mem_nil

end Statement

/-! ## Generated statements -/

namespace Generator

variable {c : GeneratorConfig} {s : Statement}

/-- **Accepted statements can be written.** Wherever the text of an accepted statement refers to an
operand by position, in conditions on rows and on groups, there is one, so that a call can only fail
at the limiter. Each condition binds its operands once each, and the parameters are the values
stored, then the operands of the conditions, one after the other. -/
theorem accepted_statements_written (accepted : c.rules.check s = .ok ()) :
    ∃ q, s.render? c.dialect c.quoteIdentifiers = some q ∧
      (∀ condition ∈ s.conditions,
        condition.operandPieces?.map Piece.values = some condition.operands) ∧
      q.parameters = s.storedValues ++ Statement.operandsOf s.conditions ∧
      ∀ l caller now,
        (generate c l s caller now).result = (admission c l caller now).1.map fun _ => q := by
  have fits : ∀ condition ∈ s.conditions,
      Rules.Fits condition.operator condition.operands.length := fun condition member =>
    Rules.fits_of_checkCondition (Statement.checkCondition_of_check accepted condition member)
  refine ⟨s.render c.dialect c.quoteIdentifiers, ?_, ?_, ?_, ?_⟩
  · exact Statement.render?_eq_some_iff.mpr
      ⟨fun condition member => Condition.complete_of_fits (fits condition member), rfl⟩
  · intro condition member
    have counted := Rules.checkArity_eq_ok_iff.mpr (fits condition member)
    exact (Condition.checkArity_eq_ok_iff_bound.mp counted).1
  · rw [Statement.parameters_render accepted, Statement.boundValues_eq]
  · exact fun l caller now => result_of_check_ok accepted

/-- A range on rows and a bound on groups: every operand is there, and each is bound once. A range
with one bound is not written, and is not accepted. -/
theorem accepted_statements_written_sample :
    let half : Condition :=
      { expr := .column "age", operator := .between, operands := [.int 18] }
    let s : Statement := .delete { table := "members", conditions := [half] }
    (∃ q, Samples.teamsBySize.render? .postgres true = some q ∧
      q.parameters = [.int 18, .int 65, .int 3]) ∧
    s.render? .postgres true = none ∧
    (GeneratorConfig.strict .postgres).rules.check s ≠ .ok () := by
  intro half s
  have accepted : (GeneratorConfig.strict .postgres).rules.check Samples.teamsBySize = .ok () := rfl
  obtain ⟨q, written, -, parameters, -⟩ := accepted_statements_written accepted
  exact ⟨⟨q, written, parameters⟩, rfl, by decide +kernel⟩

end Generator

end BoundSql
