import BoundSql.Proofs.Generator.Alignment
import BoundSql.Proofs.Generator.Budget

/-!
# More lenient levels accept more

The strict level lets through the least, the permissive one the most. The levels differ for tables,
which may be dotted at the permissive level only, for reserved keywords and for the screening of
values, both at the strict level only; everything else is judged alike. A name that passes at one
level passes at every more lenient one (`Identifier.check_of_le`,
`Identifier.checkQualified_of_le`), and so does a statement (`Rules.check_of_le`). What an accepted
statement comes to does not depend on the level.

Headline: **`lenient_levels_accept_more`**.
-/

namespace BoundSql

namespace SecurityLevel

/-- How much a level lets through. -/
def leniency : SecurityLevel → Nat
  | strict => 0
  | normal => 1
  | permissive => 2

instance : LE SecurityLevel := ⟨fun a b => a.leniency ≤ b.leniency⟩

instance (a b : SecurityLevel) : Decidable (a ≤ b) :=
  inferInstanceAs (Decidable (a.leniency ≤ b.leniency))

theorem allowsQualifiedNames_of_le {a b : SecurityLevel} :
    a ≤ b → a.allowsQualifiedNames = true → b.allowsQualifiedNames = true := by
  cases a <;> cases b <;> decide

theorem rejectsReservedKeywords_of_le {a b : SecurityLevel} :
    a ≤ b → b.rejectsReservedKeywords = true → a.rejectsReservedKeywords = true := by
  cases a <;> cases b <;> decide

theorem screensParameters_of_le {a b : SecurityLevel} :
    a ≤ b → b.screensParameters = true → a.screensParameters = true := by
  cases a <;> cases b <;> decide

theorem undotted_le_undotted {a b : SecurityLevel} : a ≤ b → a.undotted ≤ b.undotted := by
  cases a <;> cases b <;> decide

end SecurityLevel

/-! ## Names -/

namespace Identifier

variable {a b : SecurityLevel} {name : List Char}

theorem checkSegments_of_le (h : a ≤ b) (accepted : checkSegments a name = .ok ()) :
    checkSegments b name = .ok () := by
  rw [checkSegments] at accepted ⊢
  split at accepted
  · rename_i dotted
    rw [if_pos (SecurityLevel.allowsQualifiedNames_of_le h dotted)]
    exact accepted
  · split
    · rw [splitOn_of_checkSegment accepted]
      exact judgeAll_eq_ok_iff.mpr (List.forall_mem_singleton.mpr accepted)
    · exact accepted

/-- **A plain identifier stays one at a more lenient level.** -/
theorem check_of_le (h : a ≤ b) (accepted : check a name = .ok ()) : check b name = .ok () := by
  obtain ⟨nonempty, short, segments, unreserved⟩ := check_eq_ok_iff.mp accepted
  exact check_eq_ok_iff.mpr ⟨nonempty, short, checkSegments_of_le h segments, fun rejects =>
    unreserved (SecurityLevel.rejectsReservedKeywords_of_le h rejects)⟩

/-- **A qualified identifier stays one at a more lenient level.** -/
theorem checkQualified_of_le (h : a ≤ b) (accepted : checkQualified a name = .ok ()) :
    checkQualified b name = .ok () := by
  obtain ⟨nonempty, few, parts⟩ := checkQualified_eq_ok_iff.mp accepted
  exact checkQualified_eq_ok_iff.mpr ⟨nonempty, few, fun part hpart =>
    check_of_le (SecurityLevel.undotted_le_undotted h) (parts part hpart)⟩

end Identifier

/-- Members that pass one judgement and so the other. -/
theorem judgeAll_of_imp {α ε ε' : Type} {judge : α → Except ε Unit} {judge' : α → Except ε' Unit}
    {xs : List α} (h : ∀ x, judge x = .ok () → judge' x = .ok ())
    (accepted : judgeAll judge xs = .ok ()) : judgeAll judge' xs = .ok () :=
  judgeAll_eq_ok_iff.mpr fun x hx => h x (judgeAll_eq_ok_iff.mp accepted x hx)

/-! ## Parts of statements -/

namespace Rules

variable {r : Rules} {level : SecurityLevel} {name : String}

theorem checkTable_of_le (h : r.level ≤ level) (accepted : r.checkTable name = .ok ()) :
    { r with level }.checkTable name = .ok () :=
  checkTable_eq_ok_iff.mpr (Identifier.check_of_le h (checkTable_eq_ok_iff.mp accepted))

theorem checkColumn_of_le (h : r.level ≤ level) (accepted : r.checkColumn name = .ok ()) :
    { r with level }.checkColumn name = .ok () :=
  checkColumn_eq_ok_iff.mpr (Identifier.checkQualified_of_le h (checkColumn_eq_ok_iff.mp accepted))

theorem checkAlias_of_le (h : r.level ≤ level) (accepted : r.checkAlias name = .ok ()) :
    { r with level }.checkAlias name = .ok () :=
  checkAlias_eq_ok_iff.mpr (Identifier.check_of_le (SecurityLevel.undotted_le_undotted h)
    (checkAlias_eq_ok_iff.mp accepted))

theorem checkColumns_of_le {names : List String} (h : r.level ≤ level)
    (accepted : r.checkColumns names = .ok ()) : { r with level }.checkColumns names = .ok () :=
  judgeAll_of_imp (fun _ => checkColumn_of_le h) accepted

theorem checkOptionalAlias_of_le {as? : Option String} (h : r.level ≤ level)
    (accepted : r.checkOptionalAlias as? = .ok ()) :
    { r with level }.checkOptionalAlias as? = .ok () := by
  cases as? with
  | none => rfl
  | some name => exact checkAlias_of_le h accepted

theorem checkTableRef_of_le {t : TableRef} (h : r.level ≤ level)
    (accepted : r.checkTableRef t = .ok ()) : { r with level }.checkTableRef t = .ok () := by
  rw [checkTableRef, bind_eq_ok_iff] at accepted ⊢
  exact ⟨checkTable_of_le h accepted.1, checkOptionalAlias_of_le h accepted.2⟩

theorem checkExpr_of_le {e : Expr} (h : r.level ≤ level) (accepted : r.checkExpr e = .ok ()) :
    { r with level }.checkExpr e = .ok () := by
  cases e with
  | column name => exact checkColumn_of_le h accepted
  | aggregate function distinct column? =>
    cases column? with
    | none => exact accepted
    | some name => exact checkColumn_of_le h accepted

theorem checkText_of_le {s : String} (h : r.level ≤ level) (accepted : r.checkText s = .ok ()) :
    { r with level }.checkText s = .ok () := by
  rw [checkText, require_eq_ok_iff] at accepted ⊢
  obtain ⟨_, accepted⟩ := accepted
  obtain ⟨-, short, clean⟩ := Bounds.validateText_eq_ok_iff.mp accepted
  exact ⟨s, Bounds.validateText_eq_ok_iff.mpr ⟨rfl, short, fun screened =>
    clean (SecurityLevel.screensParameters_of_le h screened)⟩⟩

theorem checkValue_of_le {v : Value} (h : r.level ≤ level) (accepted : r.checkValue v = .ok ()) :
    { r with level }.checkValue v = .ok () :=
  judgeAll_of_imp (fun _ => checkText_of_le h) accepted

theorem checkValues_of_le {vs : List Value} (h : r.level ≤ level)
    (accepted : r.checkValues vs = .ok ()) : { r with level }.checkValues vs = .ok () :=
  judgeAll_of_imp (fun _ => checkValue_of_le h) accepted

theorem checkCondition_of_le {c : Condition} (h : r.level ≤ level)
    (accepted : r.checkCondition c = .ok ()) : { r with level }.checkCondition c = .ok () := by
  simp only [checkCondition, bind_eq_ok_iff] at accepted ⊢
  obtain ⟨expr, arity, values⟩ := accepted
  exact ⟨checkExpr_of_le h expr, arity, checkValues_of_le h values⟩

theorem checkConditions_of_le {cs : List Condition} (h : r.level ≤ level)
    (accepted : r.checkConditions cs = .ok ()) : { r with level }.checkConditions cs = .ok () :=
  judgeAll_of_imp (fun _ => checkCondition_of_le h) accepted

theorem checkTarget_of_le {kind : StatementKind} (h : r.level ≤ level)
    (accepted : r.checkTarget kind name = .ok ()) :
    { r with level }.checkTarget kind name = .ok () := by
  rw [checkTarget, bind_eq_ok_iff] at accepted ⊢
  exact accepted.imp id (checkTable_of_le h)

/-! ## Statements -/

theorem checkItem_of_le {item : SelectItem} (h : r.level ≤ level)
    (accepted : r.checkItem item = .ok ()) : { r with level }.checkItem item = .ok () := by
  cases item with
  | wildcard qualifier =>
    cases qualifier with
    | none => rfl
    | some name => exact checkColumn_of_le h accepted
  | expr e as? =>
    rw [checkItem, bind_eq_ok_iff] at accepted ⊢
    exact ⟨checkExpr_of_le h accepted.1, checkOptionalAlias_of_le h accepted.2⟩

theorem checkPair_of_le {pair : String × String} (h : r.level ≤ level)
    (accepted : r.checkPair pair = .ok ()) : { r with level }.checkPair pair = .ok () := by
  rw [checkPair, bind_eq_ok_iff] at accepted ⊢
  exact ⟨checkColumn_of_le h accepted.1, checkColumn_of_le h accepted.2⟩

theorem checkJoin_of_le {j : Join} (h : r.level ≤ level) (accepted : r.checkJoin j = .ok ()) :
    { r with level }.checkJoin j = .ok () := by
  simp only [checkJoin, bind_eq_ok_iff] at accepted ⊢
  obtain ⟨table, pairs, columns⟩ := accepted
  exact ⟨checkTableRef_of_le h table, pairs, judgeAll_of_imp (fun _ => checkPair_of_le h) columns⟩

theorem checkSelect_of_le {q : Select} (h : r.level ≤ level) (accepted : r.checkSelect q = .ok ()) :
    { r with level }.checkSelect q = .ok () := by
  simp only [checkSelect, checkSelection, checkClauses, bind_eq_ok_iff] at accepted ⊢
  obtain ⟨⟨reads, items⟩, tables, joins, conditions, groups, having, orders, limits⟩ := accepted
  exact ⟨⟨reads, judgeAll_of_imp (fun _ => checkItem_of_le h) items⟩,
    judgeAll_of_imp (fun _ => checkTableRef_of_le h) tables,
    judgeAll_of_imp (fun _ => checkJoin_of_le h) joins, checkConditions_of_le h conditions,
    checkColumns_of_le h groups, checkConditions_of_le h having, checkColumns_of_le h orders,
    limits⟩

theorem checkRows_of_le {columns position : Nat} {rows : List (List Value)} (h : r.level ≤ level)
    (accepted : r.checkRows columns position rows = .ok ()) :
    { r with level }.checkRows columns position rows = .ok () := by
  induction rows generalizing position with
  | nil => rfl
  | cons row rows ih =>
    simp only [checkRows, bind_eq_ok_iff] at accepted ⊢
    obtain ⟨width, values, rest⟩ := accepted
    exact ⟨width, checkValues_of_le h values, ih rest⟩

theorem checkInsert_of_le {q : Insert} (h : r.level ≤ level) (accepted : r.checkInsert q = .ok ()) :
    { r with level }.checkInsert q = .ok () := by
  simp only [checkInsert, bind_eq_ok_iff] at accepted ⊢
  obtain ⟨target, named, columns, filled, rows, returned⟩ := accepted
  exact ⟨checkTarget_of_le h target, named, checkColumns_of_le h columns, filled,
    checkRows_of_le h rows, checkColumns_of_le h returned⟩

theorem checkAssignment_of_le {a : String × Value} (h : r.level ≤ level)
    (accepted : r.checkAssignment a = .ok ()) : { r with level }.checkAssignment a = .ok () := by
  rw [checkAssignment, bind_eq_ok_iff] at accepted ⊢
  exact ⟨checkColumn_of_le h accepted.1, checkValue_of_le h accepted.2⟩

theorem checkUpdate_of_le {q : Update} (h : r.level ≤ level) (accepted : r.checkUpdate q = .ok ()) :
    { r with level }.checkUpdate q = .ok () := by
  simp only [checkUpdate, bind_eq_ok_iff] at accepted ⊢
  obtain ⟨target, assigns, assignments, conditions, returned⟩ := accepted
  exact ⟨checkTarget_of_le h target, assigns,
    judgeAll_of_imp (fun _ => checkAssignment_of_le h) assignments,
    checkConditions_of_le h conditions, checkColumns_of_le h returned⟩

theorem checkDelete_of_le {q : Delete} (h : r.level ≤ level) (accepted : r.checkDelete q = .ok ()) :
    { r with level }.checkDelete q = .ok () := by
  simp only [checkDelete, bind_eq_ok_iff] at accepted ⊢
  obtain ⟨target, conditions, returned⟩ := accepted
  exact ⟨checkTarget_of_le h target, checkConditions_of_le h conditions,
    checkColumns_of_le h returned⟩

theorem checkColumnDefinition_of_le {c : ColumnDefinition} (h : r.level ≤ level)
    (accepted : r.checkColumnDefinition c = .ok ()) :
    { r with level }.checkColumnDefinition c = .ok () := by
  rw [checkColumnDefinition, bind_eq_ok_iff] at accepted ⊢
  exact accepted.imp (checkAlias_of_le h) id

theorem checkForeignKey_of_le {q : CreateTable} {key : ForeignKey} (h : r.level ≤ level)
    (accepted : r.checkForeignKey q key = .ok ()) :
    { r with level }.checkForeignKey q key = .ok () := by
  simp only [checkForeignKey, bind_eq_ok_iff] at accepted ⊢
  obtain ⟨declared, table, column⟩ := accepted
  exact ⟨declared, checkTable_of_le h table, checkAlias_of_le h column⟩

theorem checkCreateTable_of_le {q : CreateTable} (h : r.level ≤ level)
    (accepted : r.checkCreateTable q = .ok ()) : { r with level }.checkCreateTable q = .ok () := by
  simp only [checkCreateTable, bind_eq_ok_iff] at accepted ⊢
  obtain ⟨target, supported, nonempty, columns, keys, foreignKeys⟩ := accepted
  exact ⟨checkTarget_of_le h target, supported, nonempty,
    judgeAll_of_imp (fun _ => checkColumnDefinition_of_le h) columns, keys,
    judgeAll_of_imp (fun _ => checkForeignKey_of_le h) foreignKeys⟩

/-- **A statement accepted at one level is accepted at every more lenient one.** -/
theorem check_of_le {s : Statement} (h : r.level ≤ level) (accepted : r.check s = .ok ()) :
    { r with level }.check s = .ok () := by
  cases s with
  | select q => exact checkSelect_of_le h accepted
  | insert q => exact checkInsert_of_le h accepted
  | update q => exact checkUpdate_of_le h accepted
  | delete q => exact checkDelete_of_le h accepted
  | createTable q => exact checkCreateTable_of_le h accepted

end Rules

/-! ## Generated statements -/

namespace Generator

variable {c : GeneratorConfig} {l : RateLimiter} {s : Statement} {caller : Option String}
  {now : Nat}

/-- A call that is not admitted has a caller, and the error is the limiter's. -/
theorem exists_caller_of_admission {e : QueryError} (h : (admission c l caller now).1 = .error e) :
    ∃ identity, caller = some identity ∧ e = .security (.rateLimitExceeded
      (Redaction.nameForLog identity) c.rateLimit.maxRequests c.rateLimit.windowSeconds) := by
  cases caller with
  | none => cases h
  | some identity =>
    refine ⟨identity, rfl, ?_⟩
    rw [admission] at h
    split at h
    · simp only [RateLimiter.checkWith] at h
      cases admitted : (l.request identity c.rateLimit.maxRequests c.rateLimit.windowSeconds
          now).admitted with
      | true =>
        rw [admitted] at h
        cases h
      | false =>
        rw [admitted] at h
        cases h
        rfl
    · cases h

/-- **More lenient levels accept more.** What is accepted at the strict level is accepted at the
normal one, and what is accepted there at the permissive one. Two levels that accept a statement
give it the same result and leave the same limiter: the text and parameters that its dialect writes,
or the refusal of the limiter. -/
theorem lenient_levels_accept_more (c : GeneratorConfig) (s : Statement) :
    ((c.withSecurityLevel .strict).rules.check s = .ok () →
      (c.withSecurityLevel .normal).rules.check s = .ok ()) ∧
    ((c.withSecurityLevel .normal).rules.check s = .ok () →
      (c.withSecurityLevel .permissive).rules.check s = .ok ()) ∧
    ∀ level level', (c.withSecurityLevel level).rules.check s = .ok () →
      (c.withSecurityLevel level').rules.check s = .ok () → ∀ l caller now,
        let o := generate (c.withSecurityLevel level) l s caller now
        let o' := generate (c.withSecurityLevel level') l s caller now
        o.result = o'.result ∧ o.limiter = o'.limiter ∧
          (o.result = .ok (s.render c.dialect c.quoteIdentifiers) ∨
            ∃ identity, caller = some identity ∧
              o.result = .error (.security (.rateLimitExceeded (Redaction.nameForLog identity)
                c.rateLimit.maxRequests c.rateLimit.windowSeconds))) := by
  have relaxed : ∀ level level', level ≤ level' →
      (c.withSecurityLevel level).rules.check s = .ok () →
      (c.withSecurityLevel level').rules.check s = .ok () := fun level level' h accepted =>
    Rules.check_of_le (r := (c.withSecurityLevel level).rules) h accepted
  refine ⟨relaxed _ _ (by decide), relaxed _ _ (by decide), ?_⟩
  intro level level' accepted accepted' l caller now o o'
  have result : o.result = (admission c l caller now).1.map fun _ =>
      s.render c.dialect c.quoteIdentifiers := result_of_check_ok accepted
  have result' : o'.result = (admission c l caller now).1.map fun _ =>
      s.render c.dialect c.quoteIdentifiers := result_of_check_ok accepted'
  have limiter : o.limiter = (admission c l caller now).2.1 := limiter_of_check_ok accepted
  have limiter' : o'.limiter = (admission c l caller now).2.1 := limiter_of_check_ok accepted'
  refine ⟨result.trans result'.symm, limiter.trans limiter'.symm, ?_⟩
  cases verdict : (admission c l caller now).1 with
  | ok u => exact Or.inl (by rw [result, verdict]; rfl)
  | error e =>
    obtain ⟨identity, hc, rfl⟩ := exists_caller_of_admission verdict
    exact Or.inr ⟨identity, hc, by rw [result, verdict]; rfl⟩

/-- What the strict level accepts is written the same at the permissive level. -/
theorem lenient_levels_accept_more_sample :
    let c := GeneratorConfig.strict .mySql
    (c.withSecurityLevel .strict).rules.check Samples.teamsBySize = .ok () ∧
      (c.withSecurityLevel .permissive).rules.check Samples.teamsBySize = .ok () ∧
      (generate (c.withSecurityLevel .strict) (.new {}) Samples.teamsBySize (some "ada")
          0).result =
        (generate (c.withSecurityLevel .permissive) (.new {}) Samples.teamsBySize (some "ada")
          0).result := by
  intro c
  obtain ⟨toNormal, toPermissive, same⟩ := lenient_levels_accept_more c Samples.teamsBySize
  have strict : (c.withSecurityLevel .strict).rules.check Samples.teamsBySize = .ok () := rfl
  have permissive := toPermissive (toNormal strict)
  exact ⟨strict, permissive, (same _ _ strict permissive _ _ _).1⟩

end Generator

end BoundSql
