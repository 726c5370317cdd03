import BoundSql.Proofs.Generator.Alignment
import BoundSql.Proofs.Value.Texts

/-!
# Every bound text is screened

The rules judge a value wherever a statement can bind one: in the conditions on rows and on groups,
in assignments and in every row (`checkValue_of_check`). So a statement that is written binds no
text that offends, however deep it stands in a value, and a statement that would bind one is refused
before the limiter is asked.

Headline: **`bound_texts_screened`**.
-/

namespace BoundSql

namespace Rules

variable {r : Rules} {v : Value}

/-! ## Where values are bound -/

theorem checkValue_of_checkConditions {conditions : List Condition}
    (h : r.checkConditions conditions = .ok ()) (hv : v ∈ Statement.operandsOf conditions) :
    r.checkValue v = .ok () := by
  obtain ⟨c, hc, hv⟩ := List.mem_flatMap.mp hv
  have condition := judgeAll_eq_ok_iff.mp h c hc
  simp only [checkCondition, bind_eq_ok_iff] at condition
  exact judgeAll_eq_ok_iff.mp condition.2.2 v hv

theorem checkValue_of_checkRows {columns position : Nat} {rows : List (List Value)}
    (h : r.checkRows columns position rows = .ok ()) (hv : v ∈ rows.flatten) :
    r.checkValue v = .ok () := by
  induction rows generalizing position with
  | nil => exact absurd hv List.not_mem_nil
  | cons row rows ih =>
    simp only [checkRows, bind_eq_ok_iff] at h
    rcases List.mem_append.mp (List.flatten_cons ▸ hv) with hv | hv
    · exact judgeAll_eq_ok_iff.mp h.2.1 v hv
    · exact ih h.2.2 hv

theorem checkValue_of_assignments {assignments : List (String × Value)}
    (h : judgeAll r.checkAssignment assignments = .ok ()) (hv : v ∈ assignments.map (·.2)) :
    r.checkValue v = .ok () := by
  obtain ⟨a, ha, rfl⟩ := List.mem_map.mp hv
  have assignment := judgeAll_eq_ok_iff.mp h a ha
  rw [checkAssignment, bind_eq_ok_iff] at assignment
  exact assignment.2

/-- **Every value that an accepted statement binds was judged.** -/
theorem checkValue_of_check {s : Statement} (h : r.check s = .ok ()) (hv : v ∈ s.boundValues) :
    r.checkValue v = .ok () := by
  cases s with
  | select q =>
    simp only [check, checkSelect, checkClauses, bind_eq_ok_iff] at h
    obtain ⟨-, -, -, conditions, -, groupConditions, -⟩ := h
    rcases List.mem_append.mp hv with hv | hv
    · exact checkValue_of_checkConditions conditions hv
    · exact checkValue_of_checkConditions groupConditions hv
  | insert q =>
    simp only [check, checkInsert, bind_eq_ok_iff] at h
    obtain ⟨-, -, -, -, rows, -⟩ := h
    exact checkValue_of_checkRows rows hv
  | update q =>
    simp only [check, checkUpdate, bind_eq_ok_iff] at h
    obtain ⟨-, -, assignments, conditions, -⟩ := h
    rcases List.mem_append.mp hv with hv | hv
    · exact checkValue_of_assignments assignments hv
    · exact checkValue_of_checkConditions conditions hv
  | delete q =>
    simp only [check, checkDelete, bind_eq_ok_iff] at h
    exact checkValue_of_checkConditions h.2.1 hv
  | createTable q => exact absurd hv List.not_mem_nil

end Rules

/-! ## Generated statements -/

namespace Generator

variable {c : GeneratorConfig} {s : Statement} {caller : Option String}

/-- What is reported of a refused statement is not from the limiter. -/
theorem limiter_not_mem_of_refused (n : RateLimiter.Notice) (e : QueryError) :
    Event.limiter n ∉ judgingEvents c.rules s ++ refusalEvents c s caller e := by
  rw [List.mem_append, not_or]
  constructor
  · unfold judgingEvents
    split
    · split <;> simp
    · simp
  · unfold refusalEvents
    split <;> simp

/-- **Every bound text is screened.** No text in a parameter of a generated statement, at whatever
depth, is longer than allowed, and none shows an injection technique at the strict level. A
statement that would bind such a text anywhere is refused with one error for all callers and
limiters, and the limiter is not asked. -/
theorem bound_texts_screened (c : GeneratorConfig) (s : Statement) :
    (∀ l caller now q, (generate c l s caller now).result = .ok q →
      ∀ v ∈ q.parameters, ∀ t, v.Holds t →
        t.length ≤ c.maxParameterLength ∧
          (c.securityLevel = .strict → InjectionClass.firstIn? t = none)) ∧
    ∀ v ∈ s.boundValues, ∀ t, v.Holds t →
      (c.maxParameterLength < t.length ∨
        c.securityLevel = .strict ∧ InjectionClass.firstIn? t ≠ none) →
      ∃ e, ∀ l caller now,
        let o := generate c l s caller now
        o.result = .error e ∧ o.limiter = l ∧ ∀ n, Event.limiter n ∉ o.events := by
  constructor
  · intro l caller now q written v hv t ht
    obtain ⟨accepted, -, rfl⟩ := result_eq_ok_iff.mp written
    rw [Statement.parameters_render accepted] at hv
    have clean := Rules.checkValue_eq_ok_iff.mp (Rules.checkValue_of_check accepted hv) t ht
    refine ⟨Nat.not_lt.mp fun long => clean (Or.inl long), fun strict => ?_⟩
    cases found : InjectionClass.firstIn? t with
    | none => rfl
    | some technique => exact absurd (Or.inr ⟨strict, by simp [found]⟩) clean
  · intro v hv t ht offends
    cases judged : c.rules.check s with
    | ok u =>
      have clean := Rules.checkValue_eq_ok_iff.mp (Rules.checkValue_of_check judged hv) t ht
      exact absurd offends clean
    | error e =>
      refine ⟨e, fun l caller now => ?_⟩
      simp only [generate, judged, true_and]
      exact fun n => limiter_not_mem_of_refused n e

/-- An attack in the member of a list in a field is found in a row, and refused whoever calls. -/
theorem bound_texts_screened_sample :
    let nested : Value := .object [("tags", .list [.null, .text "1 or 1=1"])]
    let s : Statement := .insert
      { table := "notes", columnNames := ["id", "body"]
        rows := [[.int 1, .null], [.int 2, nested]] }
    nested.Holds "1 or 1=1" ∧
      ∃ e, ∀ l caller now, (generate (.strict .oracle) l s caller now).result = .error e := by
  intro nested s
  have holds : nested.Holds "1 or 1=1" :=
    .field (List.mem_singleton.mpr rfl) (.member (List.mem_cons_of_mem _ List.mem_cons_self) .text)
  have bound : nested ∈ s.boundValues := by simp [s, Statement.boundValues]
  have offends : InjectionClass.firstIn? "1 or 1=1" ≠ none := by decide +kernel
  obtain ⟨e, refused⟩ := (bound_texts_screened (.strict .oracle) s).2 nested bound _ holds
    (Or.inr ⟨rfl, offends⟩)
  exact ⟨holds, e, fun l caller now => (refused l caller now).1⟩

end Generator

end BoundSql
