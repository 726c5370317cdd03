import BoundSql.Generator
import BoundSql.Proofs.Statement.Related

/-!
# Bound values show in the parameters only

Two calls on statements that differ in bound values only are compared with their parameters hidden.
All that is reported and all that is asked of the limiter is read off the rest of the statement and
off the judgement (`hideParameters_generate_eq`), and the judgement sees no more of a value than its
shape (`check_eq`).

Headline: **`bound_values_hidden`**.
-/

namespace BoundSql

/-- The outcome without the parameters: the text of the statement or the error, the events, and the
limiter. -/
def Outcome.hideParameters (o : Outcome) : Outcome :=
  { o with result := o.result.map fun q => { q with parameters := [] } }

namespace Statement

variable {R : Value → Value → Prop} {s s' : Statement}

theorem kind_eq (h : Related R s s') : s.kind = s'.kind := by
  cases h <;> rfl

theorem tableName_eq (h : Related R s s') : s.tableName = s'.tableName := by
  cases h <;> rfl

end Statement

namespace Generator

variable {R : Value → Value → Prop} {c : GeneratorConfig} {l : RateLimiter} {s s' : Statement}
  {caller : Option String} {now : Nat}

theorem judgingEvents_eq (h : Statement.Related R s s') (r : Rules) :
    judgingEvents r s = judgingEvents r s' := by
  cases h <;> rfl

theorem writingEvents_eq (h : Statement.Related R s s') (d : Dialect) :
    writingEvents d s = writingEvents d s' := by
  cases h with
  | select q h hg => rfl
  | insert q h => rfl
  | update q ha h =>
    rw [writingEvents, writingEvents, unboundedEvents, unboundedEvents, isEmpty_eq_of_forall₂ h]
  | delete q h =>
    rw [writingEvents, writingEvents, unboundedEvents, unboundedEvents, isEmpty_eq_of_forall₂ h]

theorem refusalEvents_eq (h : Statement.Related R s s') (e : QueryError) :
    refusalEvents c s caller e = refusalEvents c s' caller e := by
  rw [refusalEvents, refusalEvents, Statement.kind_eq h, Statement.tableName_eq h]

theorem successEvents_eq (h : Statement.Related R s s') (d : Dialect) (quoted : Bool) :
    successEvents c s caller (s.render d quoted) =
      successEvents c s' caller (s'.render d quoted) := by
  rw [successEvents, successEvents, Statement.kind_eq h, Statement.tableName_eq h,
    Statement.length_parameters_eq h, Statement.sql_render_eq h]

/-- **Calls on related statements that are judged alike show the same.** -/
theorem hideParameters_generate_eq (h : Statement.Related R s s')
    (judged : c.rules.check s = c.rules.check s') :
    (generate c l s caller now).hideParameters = (generate c l s' caller now).hideParameters := by
  unfold generate
  rw [judgingEvents_eq h, judged]
  cases c.rules.check s' with
  | error e => simp only [refusalEvents_eq h, Outcome.hideParameters, Except.map]
  | ok u =>
    rcases admission c l caller now with ⟨verdict, limiter, notices⟩
    cases verdict with
    | error e => simp only [refusalEvents_eq h, Outcome.hideParameters, Except.map]
    | ok u =>
      have sql := Statement.sql_render_eq h c.dialect c.quoteIdentifiers
      have dialect : ∀ s : Statement, (s.render c.dialect c.quoteIdentifiers).dialect = c.dialect :=
        fun s => by rw [Statement.render, Writer.finish_write_new]
      simp only [writingEvents_eq h, successEvents_eq h, Outcome.hideParameters, Except.map, sql,
        dialect]

/-- **Bound values show in the parameters only.** Of two statements on rows that agree on everything
else, two accepted ones give outcomes that differ in parameters only; and so do any two, accepted or
not, whose values have the same shapes in pairs. -/
theorem bound_values_hidden (c : GeneratorConfig) (l : RateLimiter) (s s' : Statement)
    (caller : Option String) (now : Nat) :
    (Statement.Related (fun _ _ => True) s s' →
      c.rules.check s = .ok () → c.rules.check s' = .ok () →
        (generate c l s caller now).hideParameters =
          (generate c l s' caller now).hideParameters) ∧
    (Statement.Related (fun v w => v.shape = w.shape) s s' →
      (generate c l s caller now).hideParameters =
        (generate c l s' caller now).hideParameters) := by
  constructor
  · intro h accepted accepted'
    exact hideParameters_generate_eq h (accepted.trans accepted'.symm)
  · intro h
    exact hideParameters_generate_eq h (Rules.check_eq (fun _ _ same => same) h)

end Generator

namespace Samples

/-- Sets the text of a note. -/
def settingText (v : Value) : Statement := .update
  { table := "notes"
    assignments := [("body", v)]
    conditions := [{ expr := .column "id", operator := .equal, operands := [.int 7] }] }

theorem related_settingText {R : Value → Value → Prop} (refl : ∀ v, R v v) {v w : Value}
    (h : R v w) : Statement.Related R (settingText v) (settingText w) :=
  .update _ (.cons ⟨rfl, h⟩ .nil) (.cons (.intro _ _ (.cons (refl _) .nil)) .nil)

end Samples

namespace Generator

/-- A number and a list show the same where both are accepted; two attacks of one kind and length
show the same where both are refused. -/
theorem bound_values_hidden_samples :
    (generate (.new .postgres) (.new {}) (Samples.settingText (.int 1)) (some "ada")
        0).hideParameters =
      (generate (.new .postgres) (.new {}) (Samples.settingText (.list [.text "no", .null]))
        (some "ada") 0).hideParameters ∧
    (generate (.strict .mySql) (.new {}) (Samples.settingText (.text "1 or 1=1")) none
        0).hideParameters =
      (generate (.strict .mySql) (.new {}) (Samples.settingText (.text "8 or 7=7")) none
        0).hideParameters := by
  have one : (Value.text "1 or 1=1").shape = .text 8 (some .tautology) := rfl
  have other : (Value.text "8 or 7=7").shape = .text 8 (some .tautology) := rfl
  constructor
  · refine (bound_values_hidden _ _ _ _ _ _).1 ?_ rfl rfl
    exact Samples.related_settingText (fun _ => trivial) trivial
  · refine (bound_values_hidden _ _ _ _ _ _).2 ?_
    exact Samples.related_settingText (R := fun v w => v.shape = w.shape) (fun _ => rfl)
      (one.trans other.symm)

end Generator

end BoundSql
