import BoundSql.Proofs.RateLimit.Capacity

/-!
# Windows of several lengths

An identity may ask for windows of different lengths, as where generators with different limits
share a limiter. Each call drops what is outside the window that it asks for itself, and what is
dropped does not come back for a longer one. So a call is not judged against all admitted calls
inside its window, but against those that *stand*: at each call of the identity since then they were
inside the window that this call asked for, and at each sweep inside the window asked for last.

Of an identity a limiter keeps exactly the standing instants (`instants_run`), as long as time does
not go back and no more identities call than may be tracked (`Mixed`). Where no earlier call asked
for a shorter window than a call does, all admitted calls inside its window stand
(`countInside_standing`). Otherwise a shorter window makes room under a longer one
(`longer_limit_bypassed`).

Headline: **`judged_against_standing`**.
-/

namespace BoundSql.RateLimiter

/-! ## Standing -/

/-- The length of the window that a call of an identity asks for, if the operation is one. -/
def Operation.spanOf? (config : RateLimitConfig) (perSecond : Nat) (x : String) (op : Operation) :
    Option Nat :=
  ((op.call? config).filter (·.identity == x)).map (perSecond * ·.windowSeconds)

/-- Whether an instant of an identity outlasts a step: a call of the identity leaves what is inside
the window that it asks for, and a sweep what is inside the window asked for last. -/
def outlasts (config : RateLimitConfig) (perSecond : Nat) (x : String) (span now : Nat)
    (op : Operation) (t : Nat) : Bool :=
  match op.spanOf? config perSecond x with
  | some asked => decide (now - t ≤ asked)
  | none => decide (op = .sweep → now - t ≤ span)

/-- Whether an instant of an identity stands through steps, when a window of this length was asked
for last. -/
def stands (config : RateLimitConfig) (perSecond : Nat) (x : String) (t : Nat) :
    Nat → List (Nat × Operation) → Bool
  | _, [] => true
  | span, (now, op) :: steps =>
    outlasts config perSecond x span now op t &&
      stands config perSecond x t ((op.spanOf? config perSecond x).getD span) steps

/-- The instants of the admitted calls of an identity that stand to the end of a run. -/
def standing (x : String) : RateLimiter → List (Nat × Operation) → List Nat
  | _, [] => []
  | l, (now, op) :: steps =>
    (admittedAt x l now op).filter
        (fun t => stands l.config l.ticksPerSecond x t
          ((op.spanOf? l.config l.ticksPerSecond x).getD 0) steps) ++
      standing x (l.perform now op).limiter steps

/-- A run of calls and sweeps in the order of time, whose calls are those of the named identities,
no more than may be tracked. What they ask for may change from call to call. -/
structure Mixed (names : List String) (config : RateLimitConfig)
    (steps : List (Nat × Operation)) : Prop where
  ordered : steps.Pairwise fun a b => a.1 ≤ b.1
  noReset : ∀ step ∈ steps, step.2 ≠ .reset
  named : ∀ step ∈ steps, ∀ c ∈ step.2.call? config, c.identity ∈ names
  few : names.dedup.length ≤ config.maxTrackedIdentities

/-- A limiter of named identities that keeps past instants of an identity, in order. -/
structure Settled (names : List String) (x : String) (now : Nat) (l : RateLimiter) : Prop where
  among : Among names l
  ordered : (l.windowOf x).instants.Pairwise (· ≤ ·)
  past : ∀ t ∈ (l.windowOf x).instants, t ≤ now

variable {l : RateLimiter} {now now' span perSecond : Nat} {op : Operation} {c : Call} {x : String}
  {names : List String} {config : RateLimitConfig} {steps before : List (Nat × Operation)}

/-! ## What a step leaves -/

theorem spanOf?_of_call (call : op.call? config = some c) (x : String) :
    op.spanOf? config perSecond x =
      if c.identity = x then some (perSecond * c.windowSeconds) else none := by
  rw [Operation.spanOf?, call, Option.filter_some]
  by_cases same : c.identity = x
  · rw [if_pos (beq_iff_eq.mpr same), if_pos same]
    rfl
  · rw [if_neg fun e => same (eq_of_beq e), if_neg same]
    rfl

theorem spanOf?_of_no_call (call : op.call? config = none) (x : String) :
    op.spanOf? config perSecond x = none := by
  rw [Operation.spanOf?, call]
  rfl

/-- Only calls of the identity itself ask for a window, and only they are admitted. -/
theorem admittedAt_of_spanOf?_eq_none (h : op.spanOf? l.config perSecond x = none) :
    admittedAt x l now op = [] := by
  cases call : op.call? l.config with
  | none => exact admittedAt_of_no_call call x
  | some c =>
    rw [spanOf?_of_call call] at h
    have other : c.identity ≠ x := fun same => by simp [same] at h
    rw [admittedAt_of_call call, if_neg fun both => other both.1]

/-- In order, purging leaves what is inside the window. -/
theorem instants_purge {w : RateWindow} (ordered : w.instants.Pairwise (· ≤ ·)) (now : Nat) :
    (w.purge now).instants = w.instants.filter fun t => decide (now - t ≤ w.span) := by
  rw [RateWindow.purge_eq_unexpired ordered]
  refine List.filter_congr fun t _ => ?_
  rw [RateWindow.expired, ← decide_not, decide_eq_decide]
  exact Nat.not_lt

/-- In order, a call finds what is inside the window that it asks for. -/
theorem instants_opened {w : RateWindow} (ordered : w.instants.Pairwise (· ≤ ·)) (now span : Nat) :
    (w.opened now span).instants = w.instants.filter fun t => decide (now - t ≤ span) :=
  instants_purge (w := { w with span }) ordered now

theorem instants_after (w : RateWindow) (now span limit : Nat) :
    (w.after now span limit).instants =
      (w.opened now span).instants ++ if w.admits now span limit then [now] else [] := by
  rw [RateWindow.after]
  split
  · rfl
  · rw [List.append_nil]

/-- **A step leaves what outlasts it**, and the instant of an admitted call. -/
theorem instants_perform (h : Settled names x now l)
    (mixed : Mixed names l.config ((now, op) :: steps)) :
    ((l.perform now op).limiter.windowOf x).instants =
      (l.windowOf x).instants.filter
          (outlasts l.config l.ticksPerSecond x (l.windowOf x).span now op) ++
        admittedAt x l now op := by
  unfold outlasts
  cases call : op.call? l.config with
  | some c =>
    rw [h.among.limiter_perform mixed.few call (mixed.named _ List.mem_cons_self c call),
      spanOf?_of_call call, admittedAt_of_call call]
    by_cases same : c.identity = x
    · simp only [same, if_true, true_and, stored, windowOf_store_self, instants_after,
        instants_opened h.ordered, ticks]
    · simp only [if_neg same, if_neg fun both : _ ∧ _ => same both.1, stored,
        windowOf_store_of_ne fun e => same e.symm]
      have notSweep : op ≠ .sweep := fun e => by simp [e, Operation.call?] at call
      simp [notSweep]
  | none =>
    rw [spanOf?_of_no_call call, admittedAt_of_no_call call, List.append_nil]
    cases op with
    | sweep =>
      rw [perform, instants_windowOf_sweepIdle h.among.distinct, instants_purge h.ordered]
      simp
    | showConfig => simp [perform]
    | reset => exact absurd rfl (mixed.noReset _ List.mem_cons_self)
    | _ => cases call

/-- A step leaves the length asked for last, unless nothing is left. -/
theorem span_perform (h : Settled names x now l)
    (mixed : Mixed names l.config ((now, op) :: steps)) :
    ((l.perform now op).limiter.windowOf x).instants = [] ∨
      ((l.perform now op).limiter.windowOf x).span =
        (op.spanOf? l.config l.ticksPerSecond x).getD (l.windowOf x).span := by
  cases call : op.call? l.config with
  | some c =>
    right
    rw [h.among.limiter_perform mixed.few call (mixed.named _ List.mem_cons_self c call),
      spanOf?_of_call call]
    by_cases same : c.identity = x
    · rw [if_pos same, stored, same, windowOf_store_self, RateWindow.after]
      split <;> rfl
    · rw [if_neg same, stored, windowOf_store_of_ne fun e => same e.symm]
      rfl
  | none =>
    rw [spanOf?_of_no_call call, Option.getD_none]
    cases op with
    | sweep =>
      rw [perform, windowOf, window?_sweepIdle h.among.distinct, windowOf]
      cases l.window? x with
      | none => exact Or.inl rfl
      | some w =>
        rw [Option.map_some, Option.filter_some]
        split
        · exact Or.inr rfl
        · exact Or.inl rfl
    | showConfig => exact Or.inr rfl
    | reset => exact absurd rfl (mixed.noReset _ List.mem_cons_self)
    | _ => cases call

/-! ## What a run leaves -/

namespace Mixed

theorem tail (h : Mixed names l.config ((now, op) :: steps)) :
    Mixed names (l.perform now op).limiter.config steps := by
  rw [config_perform]
  exact ⟨h.ordered.tail, fun step hs => h.noReset step (List.mem_cons_of_mem _ hs),
    fun step hs => h.named step (List.mem_cons_of_mem _ hs), h.few⟩

theorem init {step : Nat × Operation} (h : Mixed names config (steps ++ [step])) :
    Mixed names config steps :=
  ⟨(List.pairwise_append.mp h.ordered).1, fun s hs => h.noReset s (List.mem_append_left _ hs),
    fun s hs => h.named s (List.mem_append_left _ hs), h.few⟩

end Mixed

namespace Settled

theorem new (names : List String) (x : String) (now : Nat) (config : RateLimitConfig)
    (perSecond : Nat) : Settled names x now (.new config perSecond) where
  among := ⟨List.nodup_nil, fun _ h => absurd h List.not_mem_nil⟩
  ordered := .nil
  past _ h := absurd h List.not_mem_nil

/-- Time may pass. -/
theorem later (h : Settled names x now l) (le : now ≤ now') : Settled names x now' l :=
  ⟨h.among, h.ordered, fun t ht => Nat.le_trans (h.past t ht) le⟩

theorem perform (h : Settled names x now l) (mixed : Mixed names l.config ((now, op) :: steps)) :
    Settled names x now (l.perform now op).limiter := by
  have last := admittedAt_sublist x l now op
  have atNow : ∀ t ∈ admittedAt x l now op, t = now := fun t ht =>
    List.mem_singleton.mp (last.subset ht)
  refine ⟨h.among.perform mixed.few (mixed.named _ List.mem_cons_self) now, ?_, ?_⟩
  · rw [instants_perform h mixed]
    refine List.pairwise_append.mpr ⟨h.ordered.filter _, ?_, fun t ht u hu => ?_⟩
    · exact (List.pairwise_singleton _ now).sublist last
    · rw [atNow u hu]
      exact h.past t (List.mem_of_mem_filter ht)
  · rw [instants_perform h mixed]
    intro t ht
    rcases List.mem_append.mp ht with ht | ht
    · exact h.past t (List.mem_of_mem_filter ht)
    · exact Nat.le_of_eq (atNow t ht)

end Settled

/-- **A limiter keeps what stands**: of the instants that it had, and of those admitted since. -/
theorem instants_run (h : Settled names x now l) (mixed : Mixed names l.config steps)
    (begins : ∀ step ∈ steps, now ≤ step.1) :
    ((l.run steps).windowOf x).instants =
      (l.windowOf x).instants.filter
          (stands l.config l.ticksPerSecond x · (l.windowOf x).span steps) ++
        standing x l steps := by
  induction steps generalizing l now with
  | nil => simp [run, stands, standing]
  | cons step steps ih =>
    obtain ⟨instant, op⟩ := step
    have h := h.later (begins _ List.mem_cons_self)
    have rest := ih (h.perform mixed) mixed.tail (List.pairwise_cons.mp mixed.ordered).1
    let onward t := stands l.config l.ticksPerSecond x t
      ((op.spanOf? l.config l.ticksPerSecond x).getD (l.windowOf x).span) steps
    -- What the step leaves is judged under the length asked for last, its own included.
    have left : ((l.perform instant op).limiter.windowOf x).instants.filter
        (stands l.config l.ticksPerSecond x ·
          ((l.perform instant op).limiter.windowOf x).span steps) =
          ((l.perform instant op).limiter.windowOf x).instants.filter onward := by
      rcases span_perform h mixed with none_left | span
      · rw [none_left]
        rfl
      · rw [span]
    have fresh : (admittedAt x l instant op).filter onward = (admittedAt x l instant op).filter
        (fun t => stands l.config l.ticksPerSecond x t
          ((op.spanOf? l.config l.ticksPerSecond x).getD 0) steps) := by
      cases asked : op.spanOf? l.config l.ticksPerSecond x with
      | none =>
        rw [admittedAt_of_spanOf?_eq_none asked]
        rfl
      | some span => simp only [onward, asked, Option.getD_some]
    rw [config_perform, ticksPerSecond_perform, left, instants_perform h mixed, List.filter_append,
      List.filter_filter,
      fresh, List.append_assoc] at rest
    rw [run_cons, rest, standing]
    refine congrArg (· ++ _) (List.filter_congr fun t _ => ?_)
    rw [stands, Bool.and_comm]

/-! ## Where no shorter window was asked for -/

/-- An instant inside a window that is not longer than those asked for before stands. -/
theorem stands_of_inside {t : Nat} (inside : now - t ≤ span)
    (longer : ∀ step ∈ steps, ∀ asked ∈ step.2.spanOf? config perSecond x, span ≤ asked)
    (ends : ∀ step ∈ steps, step.1 ≤ now) (last : Nat) (le : span ≤ last) :
    stands config perSecond x t last steps = true := by
  induction steps generalizing last with
  | nil => rfl
  | cons step steps ih =>
    obtain ⟨instant, op⟩ := step
    have before : instant ≤ now := ends _ List.mem_cons_self
    have first := longer _ List.mem_cons_self
    have rest := ih (fun step hs => longer step (List.mem_cons_of_mem _ hs))
      fun step hs => ends step (List.mem_cons_of_mem _ hs)
    rw [stands, outlasts, Bool.and_eq_true]
    cases asked : op.spanOf? config perSecond x with
    | none => exact ⟨decide_eq_true fun _ => by omega, rest last le⟩
    | some span' =>
      have := first span' asked
      exact ⟨decide_eq_true (by omega), rest span' this⟩

/-- **Where no shorter window was asked for, all that is inside the window stands.** -/
theorem countInside_standing
    (longer : ∀ step ∈ steps, ∀ asked ∈ step.2.spanOf? l.config l.ticksPerSecond x, span ≤ asked)
    (ends : ∀ step ∈ steps, step.1 ≤ now) :
    countInside span now (standing x l steps) =
      countInside span now (admissions x l steps) := by
  induction steps generalizing l with
  | nil => rfl
  | cons step steps ih =>
    obtain ⟨instant, op⟩ := step
    have later : ∀ step ∈ steps, step.1 ≤ now := fun step hs =>
      ends step (List.mem_cons_of_mem _ hs)
    have longerLater : ∀ step ∈ steps, ∀ asked ∈ step.2.spanOf? l.config l.ticksPerSecond x,
        span ≤ asked := fun step hs => longer step (List.mem_cons_of_mem _ hs)
    have rest := ih (l := (l.perform instant op).limiter)
      (by rw [config_perform, ticksPerSecond_perform]; exact longerLater) later
    rw [standing, admissions]
    unfold countInside at rest ⊢
    rw [List.countP_append, List.countP_append, rest, List.countP_filter]
    refine congrArg (· + _) (List.countP_congr fun t ht => ?_)
    cases asked : op.spanOf? l.config l.ticksPerSecond x with
    | none =>
      rw [admittedAt_of_spanOf?_eq_none asked] at ht
      exact absurd ht List.not_mem_nil
    | some span' =>
      have := longer _ List.mem_cons_self span' asked
      rw [Bool.and_eq_true, and_iff_left_iff_imp, decide_eq_true_eq]
      exact fun inside => stands_of_inside inside longerLater later span' this

/-! ## The headline -/

/-- **Calls are judged against what stands.** In a run of calls and sweeps in the order of time, by
no more identities than may be tracked and with any limits and windows, a call is admitted exactly
if fewer of the identity's standing instants are inside its window than its limit. If no earlier
call of the identity asked for a shorter window, these are all its admitted calls inside the
window. -/
theorem judged_against_standing (config : RateLimitConfig) (perSecond : Nat) (names : List String)
    (before : List (Nat × Operation)) (now : Nat) (op : Operation) (c : Call)
    (mixed : Mixed names config (before ++ [(now, op)])) (call : op.call? config = some c) :
    let start := new config perSecond
    let p := (start.run before).perform now op
    let span := perSecond * c.windowSeconds
    (p.answer.admits = true ↔ countInside span now (standing c.identity start before) < c.limit) ∧
      ((∀ step ∈ before, ∀ e ∈ step.2.call? config,
          e.identity = c.identity → c.windowSeconds ≤ e.windowSeconds) →
        (p.answer.admits = true ↔
          countInside span now (admissions c.identity start before) < c.limit)) := by
  intro start p span
  let l := start.run before
  have ends : ∀ step ∈ before, step.1 ≤ now := fun step hs =>
    (List.pairwise_append.mp mixed.ordered).2.2 step hs _ List.mem_cons_self
  have kept : (l.windowOf c.identity).instants = standing c.identity start before :=
    instants_run (Settled.new names c.identity 0 config perSecond) mixed.init fun step _ =>
      Nat.zero_le step.1
  have ordered : (l.windowOf c.identity).instants.Pairwise (· ≤ ·) :=
    (admissions_ordered mixed.init.ordered c.identity _).sublist
      ((keepsEnds_run_new config perSecond before).windowOf c.identity).sublist
  have opened : ((l.windowOf c.identity).opened now span).instants.length =
      countInside span now (standing c.identity start before) := by
    rw [instants_opened ordered, ← List.countP_eq_length_filter, ← kept]
    rfl
  have judged : p.answer.admits = true ↔
      countInside span now (standing c.identity start before) < c.limit := by
    have asked : op.call? l.config = some c := by rwa [config_run]
    have clock : l.ticks c.windowSeconds = span := by rw [ticks_run]; rfl
    rw [admits_perform_of_call asked, clock, RateWindow.admits, opened, decide_eq_true_eq]
  refine ⟨judged, fun longer => ?_⟩
  rw [judged, countInside_standing (l := start) _ ends]
  intro step hs asked ha
  obtain ⟨e, he, rfl⟩ := Option.map_eq_some_iff.mp ha
  rw [Option.filter_eq_some_iff, beq_iff_eq] at he
  exact Nat.mul_le_mul_left perSecond (longer step hs e he.1 he.2)

/-- Two generators that share a limiter: one of them allows two calls in a minute, the other one two
in a second. Another caller asks in between, and a sweep comes last. -/
def sharedRun : List (Nat × Operation) :=
  [(0, .checkWith "ada" 2 60), (500, .checkWith "bob" 2 60), (2000, .checkWith "ada" 2 1),
    (2500, .checkWith "ada" 2 60), (2600, .sweep)]

/-- Of the admitted calls of the first caller two stand, the ones since the short window. -/
theorem judged_against_standing_sample :
    let config : RateLimitConfig := { maxTrackedIdentities := 2 }
    let p := ((new config).run sharedRun).perform 3000 (.checkWith "ada" 3 60)
    p.answer.admits = true ∧ standing "ada" (new config) sharedRun = [2000, 2500] ∧
      admissions "ada" (new config) sharedRun = [0, 2000, 2500] := by
  intro config p
  have mixed : Mixed ["ada", "bob"] config (sharedRun ++ [(3000, .checkWith "ada" 3 60)]) :=
    ⟨by decide, by decide, by decide, by decide⟩
  obtain ⟨judged, -⟩ := judged_against_standing config 1000 _ _ _ _ ⟨"ada", 3, 60⟩ mixed rfl
  exact ⟨judged.mpr (by decide), by decide, by decide⟩

/-- **A shorter window makes room under a longer one.** A caller who was admitted twice within the
last minute is admitted again under a limit of two calls in a minute, since the second call asked
for a window of a second and dropped the first one. -/
theorem longer_limit_bypassed :
    let config : RateLimitConfig := {}
    let start := new config
    let before : List (Nat × Operation) :=
      [(0, .checkWith "ada" 2 60), (2000, .checkWith "ada" 2 1)]
    Mixed ["ada"] config (before ++ [(3000, .checkWith "ada" 2 60)]) ∧
      ((start.run before).perform 3000 (.checkWith "ada" 2 60)).answer.admits = true ∧
      ¬countInside (start.ticks 60) 3000 (admissions "ada" start before) < 2 := by
  intro config start before
  exact ⟨⟨by decide, by decide, by decide, by decide⟩, by decide, by decide⟩

end BoundSql.RateLimiter
