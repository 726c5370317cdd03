import Mathlib.Algebra.Group.Nat.Defs
import Mathlib.Data.List.DropRight
import Mathlib.Data.List.Induction
import Mathlib.Order.MinMax
import BoundSql.Proofs.RateLimit.Eviction

/-!
# How much a limiter holds

However it is asked, and whatever the clock says, a limiter tracks no more identities than it may,
and counts no more requests of an identity than the largest limit that the identity was ever judged
against (`Contained`). The first bound is kept by evictions, where a new identity makes them too
many; the second one by the admission test alone, since all else only drops instants
(`contained_perform`). So the number of counted requests that a call reports is never cut off
(`Tallied`), and only an admitted call makes it grow. It is the number that the limiter is left with
for the caller, unless the call evicts the caller itself (`left_or_evictedAtOnce`).

Where no more identities call than may be tracked, nobody is ever evicted (`Among.request_eq`).

Headline: **`limiter_stays_contained`**.
-/

namespace BoundSql

namespace RateWindow

variable {w : RateWindow} {now span limit : Nat}

theorem count_opened_le (w : RateWindow) (now span : Nat) : (w.opened now span).count ≤ w.count :=
  (List.dropWhile_suffix _).length_le

/-- An admitted call fills its limit at most. -/
theorem count_after_le_of_admits (h : w.admits now span limit = true) :
    (w.after now span limit).count ≤ limit := by
  have room : (w.opened now span).instants.length < limit := of_decide_eq_true h
  rw [after, if_pos h, count, List.length_append]
  exact room

/-- A refused call adds nothing. -/
theorem count_after_le_of_not_admits (h : w.admits now span limit = false) :
    (w.after now span limit).count ≤ w.count := by
  rw [after_of_not_admits h]
  exact count_opened_le w now span

theorem purge_opened (w : RateWindow) (now span : Nat) :
    (w.opened now span).purge now = w.opened now span := by
  have again : (w.opened now span).instants.dropWhile ((w.opened now span).expired now) =
      (w.opened now span).instants := List.dropWhile_idempotent _ _
  rw [purge, again]

/-- **Purging once more takes nothing** from what a call leaves. -/
theorem purge_after (w : RateWindow) (now span limit : Nat) :
    (w.after now span limit).purge now = w.after now span limit := by
  rw [after]
  split
  · have again : (w.opened now span).instants.dropWhile ((w.opened now span).expired now) =
        (w.opened now span).instants := congrArg instants (purge_opened w now span)
    have fresh : (w.opened now span).expired now now = false := by simp [expired]
    have kept : ((w.opened now span).instants ++ [now]).dropWhile
        ((w.opened now span).expired now) = (w.opened now span).instants ++ [now] := by
      rw [List.dropWhile_append, again]
      split
      · rename_i none_left
        rw [List.isEmpty_iff.mp none_left, List.dropWhile_cons_of_neg (by simp [fresh])]
        rfl
      · rfl
    exact congrArg (fun left => { w.opened now span with instants := left }) kept
  · exact purge_opened w now span

end RateWindow

namespace RateLimiter

variable {l : RateLimiter} {now : Nat} {op : Operation} {c : Call} {x : String}
  {config : RateLimitConfig} {steps before : List (Nat × Operation)}

/-! ## The number of identities -/

theorem tracked_eq_length_keys (l : RateLimiter) : l.tracked = l.keys.length :=
  (List.length_map _).symm

theorem keys_stored (l : RateLimiter) (now : Nat) (c : Call) :
    (l.stored now c).keys = if c.identity ∈ l.keys then l.keys else l.keys ++ [c.identity] :=
  keys_store _ _ _

/-- A call of a tracked identity leaves the number of identities as it is. -/
theorem tracked_stored_of_mem (known : c.identity ∈ l.keys) (now : Nat) :
    (l.stored now c).tracked = l.tracked := by
  rw [tracked_eq_length_keys, keys_stored, if_pos known, tracked_eq_length_keys]

theorem tracked_evict_le (nodup : l.keys.Nodup) (now : Nat) :
    (l.evict now).tracked ≤ l.config.maxTrackedIdentities := by
  rw [evict, tracked_dropOldest (nodup_keys_sweepIdle nodup now)]
  exact Nat.min_le_right _ _

theorem tracked_sweepIdle_le (l : RateLimiter) (now : Nat) :
    (l.sweepIdle now).tracked ≤ l.tracked := by
  refine Nat.le_trans (List.length_filter_le _ _) ?_
  rw [List.length_map]
  exact Nat.le_refl _

/-- **A step leaves no more identities than may be tracked.** -/
theorem tracked_perform_le (nodup : l.keys.Nodup) (few : l.tracked ≤ l.config.maxTrackedIdentities)
    (now : Nat) (op : Operation) :
    (l.perform now op).limiter.tracked ≤ l.config.maxTrackedIdentities := by
  cases call : op.call? l.config with
  | some c =>
    rw [limiter_perform_of_call call, limiter_request_eq]
    split
    · exact tracked_evict_le (l := l.stored now c) (nodup_keys_store nodup c.identity _) now
    · rename_i room
      by_cases known : c.identity ∈ l.keys
      · rw [tracked_stored_of_mem known]
        exact few
      · -- A new identity is stored without an eviction only where there is room for it.
        have new : l.window? c.identity = none := (window?_eq_none_iff nodup).mpr known
        exact Nat.not_lt.mp fun many => room ⟨new, many⟩
  | none =>
    cases op with
    | sweep => exact Nat.le_trans (tracked_sweepIdle_le l now) few
    | reset => exact Nat.zero_le _
    | showConfig => exact few
    | _ => cases call

/-! ## Where few identities call -/

/-- Where there is room for the identities that call, a call evicts nobody. -/
theorem request_of_room (room : (l.stored now c).tracked ≤ l.config.maxTrackedIdentities) :
    l.request c.identity c.limit c.windowSeconds now =
      { admitted := (l.windowOf c.identity).admits now (l.ticks c.windowSeconds) c.limit
        current := ((l.windowOf c.identity).after now (l.ticks c.windowSeconds) c.limit).count
        limiter := l.stored now c
        notices := [] } := by
  have keeps : ((l.window? c.identity).isNone &&
      decide (l.config.maxTrackedIdentities < (l.stored now c).tracked)) = false := by
    rw [decide_eq_false (Nat.not_lt.mpr room), Bool.and_false]
  unfold stored windowOf at keeps
  simp only [request, keeps, Bool.false_eq_true, if_false]
  rfl

/-- Nobody is tracked but identities of a list. -/
structure Among (names : List String) (l : RateLimiter) : Prop where
  distinct : l.keys.Nodup
  named : ∀ x ∈ l.keys, x ∈ names

namespace Among

variable {names : List String}

theorem tracked_le (h : Among names l) : l.tracked ≤ names.dedup.length := by
  rw [tracked_eq_length_keys]
  exact (h.distinct.subperm fun x hx => List.mem_dedup.mpr (h.named x hx)).length_le

theorem stored (h : Among names l) (named : c.identity ∈ names) (now : Nat) :
    Among names (l.stored now c) where
  distinct := nodup_keys_store h.distinct c.identity _
  named x hx := by
    rw [keys_stored] at hx
    split at hx
    · exact h.named x hx
    · rcases List.mem_append.mp hx with hx | hx
      · exact h.named x hx
      · rwa [List.mem_singleton.mp hx]

theorem sweepIdle (h : Among names l) (now : Nat) : Among names (l.sweepIdle now) where
  distinct := nodup_keys_sweepIdle h.distinct now
  named x hx := by
    obtain ⟨e, he, rfl⟩ := List.mem_map.mp hx
    obtain ⟨e', he', rfl⟩ := List.mem_map.mp (List.mem_of_mem_filter he)
    exact h.named _ (List.mem_map.mpr ⟨e', he', rfl⟩)

/-- **Where no more identities call than may be tracked, a call evicts nobody.** -/
theorem request_eq (h : Among names l) (few : names.dedup.length ≤ l.config.maxTrackedIdentities)
    (named : c.identity ∈ names) (now : Nat) :
    l.request c.identity c.limit c.windowSeconds now =
      { admitted := (l.windowOf c.identity).admits now (l.ticks c.windowSeconds) c.limit
        current := ((l.windowOf c.identity).after now (l.ticks c.windowSeconds) c.limit).count
        limiter := l.stored now c
        notices := [] } :=
  request_of_room (Nat.le_trans (h.stored named now).tracked_le few)

theorem limiter_perform (h : Among names l)
    (few : names.dedup.length ≤ l.config.maxTrackedIdentities) (call : op.call? l.config = some c)
    (named : c.identity ∈ names) (now : Nat) : (l.perform now op).limiter = l.stored now c := by
  rw [limiter_perform_of_call call, h.request_eq few named]

theorem perform (h : Among names l) (few : names.dedup.length ≤ l.config.maxTrackedIdentities)
    (named : ∀ c ∈ op.call? l.config, c.identity ∈ names) (now : Nat) :
    Among names (l.perform now op).limiter := by
  cases call : op.call? l.config with
  | some c =>
    rw [h.limiter_perform few call (named c call)]
    exact h.stored (named c call) now
  | none =>
    cases op with
    | sweep => exact h.sweepIdle now
    | reset => exact ⟨List.nodup_nil, fun _ hx => absurd hx List.not_mem_nil⟩
    | showConfig => exact h
    | _ => cases call

end Among

/-! ## The number of requests -/

theorem currentCount_eq (l : RateLimiter) (x : String) :
    l.currentCount x = (l.windowOf x).count := by
  unfold currentCount windowOf
  cases l.window? x <;> rfl

/-- Whatever a limiter holds is an end of itself. -/
theorem keepsEnds_self (nodup : l.keys.Nodup) :
    KeepsEnds (fun x => (l.windowOf x).instants) l where
  nodup := nodup
  ends e he := by
    have found := (window?_eq_some_iff nodup).mpr he
    simp only [windowOf, found, Option.getD_some]
    exact List.suffix_rfl

theorem KeepsEnds.currentCount_le {admitted : String → List Nat} (h : KeepsEnds admitted l)
    (x : String) : l.currentCount x ≤ (admitted x).length := by
  rw [currentCount_eq]
  exact (h.windowOf x).length_le

/-- **Only an admitted call lengthens a window**, its own and by one. -/
theorem currentCount_perform_le (nodup : l.keys.Nodup) (now : Nat) (op : Operation) (x : String) :
    (l.perform now op).limiter.currentCount x ≤
      l.currentCount x + (admittedAt x l now op).length := by
  have kept := (keepsEnds_perform (keepsEnds_self nodup) now op).currentCount_le x
  rwa [List.length_append, ← RateWindow.count, ← currentCount_eq] at kept

/-- An eviction only drops instants. -/
theorem currentCount_perform_le_stored (nodup : l.keys.Nodup) (call : op.call? l.config = some c)
    (now : Nat) (x : String) :
    (l.perform now op).limiter.currentCount x ≤ (l.stored now c).currentCount x := by
  have ends := keepsEnds_self (l := l.stored now c) (nodup_keys_store nodup c.identity _)
  rw [limiter_perform_of_call call, currentCount_eq (l.stored now c)]
  rcases limiter_request l now c with e | e
  · rw [e]
    exact ends.currentCount_le x
  · rw [e]
    exact (ends.evict now).currentCount_le x

theorem currentCount_stored_self (l : RateLimiter) (now : Nat) (c : Call) :
    (l.stored now c).currentCount c.identity =
      ((l.windowOf c.identity).after now (l.ticks c.windowSeconds) c.limit).count := by
  rw [currentCount_eq, stored, windowOf_store_self]

/-- **A step keeps to the limit** of its call. -/
theorem currentCount_perform_le_max (nodup : l.keys.Nodup) (now : Nat) (op : Operation)
    (x : String) :
    (l.perform now op).limiter.currentCount x ≤
      max (l.currentCount x) ((op.limitOf? l.config x).getD 0) := by
  have grown := currentCount_perform_le nodup now op x
  by_cases admitted : admittedAt x l now op = []
  · rw [admitted, List.length_nil] at grown
    exact Nat.le_trans grown (Nat.le_max_left _ _)
  · cases call : op.call? l.config with
    | none => exact absurd (admittedAt_of_no_call call x) admitted
    | some c =>
      rw [admittedAt_of_call call] at admitted
      obtain ⟨⟨rfl, admits⟩, -⟩ := ite_ne_right_iff.mp admitted
      rw [limitOf?_of_call call, if_pos rfl, Option.getD_some]
      refine Nat.le_trans (currentCount_perform_le_stored nodup call now _) ?_
      rw [currentCount_stored_self]
      exact Nat.le_trans (RateWindow.count_after_le_of_admits admits) (Nat.le_max_right _ _)

/-! ## What every run keeps -/

/-- The largest limit that the calls of an identity ask for. -/
def largestLimit (config : RateLimitConfig) (x : String) (steps : List (Nat × Operation)) : Nat :=
  ((callsOf config x steps).map (·.2)).foldr max 0

/-- A limiter holds no more than it may after steps. -/
structure Contained (config : RateLimitConfig) (steps : List (Nat × Operation)) (l : RateLimiter) :
    Prop where
  config_eq : l.config = config
  distinct : l.keys.Nodup
  tracked : l.tracked ≤ config.maxTrackedIdentities
  counts : ∀ x, l.currentCount x ≤ largestLimit config x steps

theorem foldr_max_append (a b : List Nat) :
    (a ++ b).foldr max 0 = max (a.foldr max 0) (b.foldr max 0) := by
  induction a with
  | nil => exact (Nat.max_eq_right (Nat.zero_le _)).symm
  | cons n a ih => rw [List.cons_append, List.foldr_cons, List.foldr_cons, ih, Nat.max_assoc]

theorem largestLimit_concat (config : RateLimitConfig) (x : String)
    (steps : List (Nat × Operation)) (now : Nat) (op : Operation) :
    largestLimit config x (steps ++ [(now, op)]) =
      max (largestLimit config x steps) ((op.limitOf? config x).getD 0) := by
  have last : callsOf config x [(now, op)] =
      ((op.limitOf? config x).map fun limit => (now, limit)).toList := by
    rw [callsOf_cons]
    cases op.limitOf? config x <;> rfl
  rw [largestLimit, callsOf, List.filterMap_append, List.map_append, foldr_max_append]
  refine congrArg _ ?_
  rw [← callsOf, last]
  cases op.limitOf? config x with
  | none => rfl
  | some limit => exact Nat.max_zero limit

theorem largestLimit_lt {bound : Nat} (positive : 0 < bound)
    (h : ∀ step ∈ steps, ∀ c ∈ step.2.call? config, c.limit < bound) (x : String) :
    largestLimit config x steps < bound := by
  induction steps using List.reverseRecOn with
  | nil => exact positive
  | append_singleton steps step ih =>
    rw [largestLimit_concat, Nat.max_lt]
    refine ⟨ih fun step hs => h step (List.mem_append_left _ hs), ?_⟩
    cases limit : step.2.limitOf? config x with
    | none => exact positive
    | some limit =>
      obtain ⟨c, hc, rfl⟩ := Option.map_eq_some_iff.mp limit
      exact h step (List.mem_append_right _ List.mem_cons_self) c
        (Option.eq_some_of_filter_eq_some hc)

theorem contained_new (config : RateLimitConfig) (perSecond : Nat) :
    Contained config [] (new config perSecond) where
  config_eq := rfl
  distinct := List.nodup_nil
  tracked := Nat.zero_le _
  counts _ := Nat.le_refl _

/-- **A step keeps a limiter contained**, whatever it is and whenever. -/
theorem contained_perform (h : Contained config before l) (now : Nat) (op : Operation) :
    Contained config (before ++ [(now, op)]) (l.perform now op).limiter := by
  obtain ⟨rfl, distinct, tracked, counts⟩ := h
  refine ⟨config_perform l now op, (keepsEnds_perform (keepsEnds_self distinct) now op).nodup,
    tracked_perform_le distinct tracked now op, fun x => ?_⟩
  rw [largestLimit_concat]
  refine Nat.le_trans (currentCount_perform_le_max distinct now op x) ?_
  exact max_le_max_right _ (counts x)

/-- **A run keeps a limiter contained.** -/
theorem contained_run (h : Contained config before l) (steps : List (Nat × Operation)) :
    Contained config (before ++ steps) (l.run steps) := by
  induction steps generalizing before l with
  | nil =>
    rw [List.append_nil]
    exact h
  | cons step steps ih =>
    rw [run_cons, List.append_cons]
    exact ih (contained_perform h step.1 step.2)

/-- In the order of time admitted instants are in order. -/
theorem admissions_ordered (inOrder : steps.Pairwise fun a b => a.1 ≤ b.1) (x : String)
    (l : RateLimiter) : (admissions x l steps).Pairwise (· ≤ ·) :=
  (List.pairwise_map.mpr inOrder).sublist (admissions_sublist x l steps)

theorem keepsEnds_run_new (config : RateLimitConfig) (perSecond : Nat)
    (steps : List (Nat × Operation)) :
    KeepsEnds (admissions · (new config perSecond) steps) ((new config perSecond).run steps) := by
  simpa using keepsEnds_run (keepsEnds_new config perSecond fun _ => []) steps

/-- In the order of time the instants of each window are in order. -/
theorem ordered_run (config : RateLimitConfig) (perSecond : Nat)
    (inOrder : steps.Pairwise fun a b => a.1 ≤ b.1) :
    ((new config perSecond).run steps).Ordered :=
  fun e he => (admissions_ordered inOrder e.1 _).sublist
    ((keepsEnds_run_new config perSecond steps).ends e he).sublist

/-! ## What a call reports -/

/-- A call of a new identity finds a full limiter, and the eviction takes the caller itself. -/
structure EvictedAtOnce (l : RateLimiter) (now : Nat) (op : Operation) (c : Call) : Prop where
  new : c.identity ∉ l.keys
  full : l.config.maxTrackedIdentities ≤ l.tracked
  gone : c.identity ∉ (l.perform now op).limiter.keys
  told : ∃ count tracked, .evicted count tracked ∈ (l.perform now op).notices

/-- A call reports the number of requests that its window holds once it is judged: in a word of 32
bits too, up to the limit if it is admitted, and without any window having grown if it is not. -/
structure Tallied (l : RateLimiter) (now : Nat) (op : Operation) (c : Call) : Prop where
  exact : (l.request c.identity c.limit c.windowSeconds now).current =
    (l.stored now c).currentCount c.identity
  /-- The limiter is left with this number for the caller, if the caller is left at all. -/
  left : c.identity ∈ (l.perform now op).limiter.keys ∧
      (l.perform now op).limiter.currentCount c.identity =
        (l.request c.identity c.limit c.windowSeconds now).current ∨
    EvictedAtOnce l now op c
  word : (l.request c.identity c.limit c.windowSeconds now).current.toUInt32.toNat =
    (l.request c.identity c.limit c.windowSeconds now).current
  told : ∀ info, (l.perform now op).answer = .checked (.ok info) →
    info.current = (l.request c.identity c.limit c.windowSeconds now).current ∧
      info.limit = c.limit
  admitted : (l.perform now op).answer.admits = true →
    (l.request c.identity c.limit c.windowSeconds now).current ≤ c.limit
  refused : (l.perform now op).answer.admits = false →
    ∀ x, (l.perform now op).limiter.currentCount x ≤ l.currentCount x

/-- What a call has to say, its step says. -/
theorem mem_notices_perform (call : op.call? l.config = some c) {n : Notice}
    (h : n ∈ (l.request c.identity c.limit c.windowSeconds now).notices) :
    n ∈ (l.perform now op).notices := by
  rcases perform_of_call call now with e | e <;> rw [e]
  · exact h
  · rw [checkWith]
    split
    · exact h
    · exact List.mem_append_left _ h

/-- A call that evicts says so. -/
theorem exists_evicted_mem_notices (new : l.window? c.identity = none)
    (many : l.config.maxTrackedIdentities < (l.stored now c).tracked) :
    ∃ count tracked, Notice.evicted count tracked ∈
      (l.request c.identity c.limit c.windowSeconds now).notices := by
  have evicts : ((l.window? c.identity).isNone &&
      decide (l.config.maxTrackedIdentities < (l.stored now c).tracked)) = true := by
    rw [new, decide_eq_true many]
    rfl
  unfold stored windowOf at evicts
  simp only [request, evicts, if_true]
  exact ⟨_, _, List.mem_singleton_self _⟩

/-- If an eviction leaves the caller, it leaves its window as the call does. -/
theorem window?_evict_stored (nodup : l.keys.Nodup) (now : Nat)
    (left : c.identity ∈ ((l.stored now c).evict now).keys) :
    ((l.stored now c).evict now).window? c.identity = (l.stored now c).window? c.identity := by
  have distinct : (l.stored now c).keys.Nodup := nodup_keys_store nodup c.identity _
  have swept := nodup_keys_sweepIdle distinct now
  have found : (l.stored now c).window? c.identity = some _ := lookup_store_self _ _ _
  have distinctLeft : ((l.stored now c).evict now).keys.Nodup :=
    (List.filter_sublist.map _).nodup swept
  obtain ⟨w, hw⟩ := (mem_keys_iff distinctLeft).mp left
  have kept := mem_windows_of_mem_dropOldest hw swept
  rw [window?_sweepIdle distinct, found, Option.map_some, RateWindow.purge_after,
    Option.filter_eq_some_iff] at kept
  exact hw.trans (kept.1 ▸ found).symm

/-- **The caller is left with its count**, unless a full limiter takes it in and evicts it again. -/
theorem left_or_evictedAtOnce (nodup : l.keys.Nodup) (call : op.call? l.config = some c)
    (now : Nat) :
    (c.identity ∈ (l.perform now op).limiter.keys ∧
        (l.perform now op).limiter.currentCount c.identity =
          (l.stored now c).currentCount c.identity) ∨
      EvictedAtOnce l now op c := by
  have distinct : (l.stored now c).keys.Nodup := nodup_keys_store nodup c.identity _
  have limiter : (l.perform now op).limiter = _ :=
    (limiter_perform_of_call call).trans (limiter_request_eq l now c)
  by_cases evicts : l.window? c.identity = none ∧
      l.config.maxTrackedIdentities < (l.stored now c).tracked
  · rw [if_pos evicts] at limiter
    by_cases left : c.identity ∈ ((l.stored now c).evict now).keys
    · rw [limiter, currentCount, currentCount, window?_evict_stored nodup now left]
      exact Or.inl ⟨left, rfl⟩
    · obtain ⟨new, many⟩ := evicts
      obtain ⟨count, tracked, told⟩ := exists_evicted_mem_notices new many
      have unknown := (window?_eq_none_iff nodup).mp new
      rw [tracked_eq_length_keys, keys_stored, if_neg unknown, List.length_append,
        ← tracked_eq_length_keys] at many
      exact Or.inr ⟨unknown, Nat.le_of_lt_succ many, limiter ▸ left, count, tracked,
        mem_notices_perform call told⟩
  · rw [if_neg evicts] at limiter
    rw [limiter]
    exact Or.inl ⟨(mem_keys_iff distinct).mpr ⟨_, lookup_store_self _ _ _⟩, rfl⟩

/-- What a check tells of an admitted call is what its request came to. -/
theorem told_perform (call : op.call? l.config = some c) {info : Admission}
    (h : (l.perform now op).answer = .checked (.ok info)) :
    info.current = (l.request c.identity c.limit c.windowSeconds now).current ∧
      info.limit = c.limit := by
  rcases perform_of_call call now with e | e <;> rw [e] at h
  · cases h
  · rw [checkWith] at h
    split at h
    · cases h
      exact ⟨rfl, rfl⟩
    · cases h

theorem tallied_of_contained (h : Contained config before l) (call : op.call? config = some c)
    (fits : ∀ x, l.currentCount x < 2 ^ 32) (word : c.limit < 2 ^ 32) : Tallied l now op c := by
  obtain ⟨rfl, distinct, -, -⟩ := h
  have exact : (l.request c.identity c.limit c.windowSeconds now).current =
      (l.stored now c).currentCount c.identity := (currentCount_stored_self l now c).symm
  have admitted : (l.perform now op).answer.admits = true →
      (l.request c.identity c.limit c.windowSeconds now).current ≤ c.limit := by
    intro admits
    rw [admits_perform_of_call call] at admits
    rw [exact, currentCount_stored_self]
    exact RateWindow.count_after_le_of_admits admits
  have left := left_or_evictedAtOnce distinct call now
  rw [← exact] at left
  refine ⟨exact, left, UInt32.toNat_ofNat_of_lt' ?_, fun _ => told_perform call, admitted, ?_⟩
  · cases admits : (l.perform now op).answer.admits with
    | true => exact Nat.lt_of_le_of_lt (admitted admits) word
    | false =>
      rw [admits_perform_of_call call] at admits
      rw [exact, currentCount_stored_self]
      refine Nat.lt_of_le_of_lt (RateWindow.count_after_le_of_not_admits admits) ?_
      rw [← currentCount_eq]
      exact fits c.identity
  · intro refused x
    have unrecorded : admittedAt x l now op = [] := by
      rw [admits_perform_of_call call] at refused
      rw [admittedAt_of_call call, refused, if_neg (by simp)]
    have grown := currentCount_perform_le distinct now op x
    rwa [unrecorded] at grown

/-! ## The headline -/

/-- **A limiter stays contained.** In any run from a limiter that tracks nobody, whatever is asked
and however the clock moves, no more identities are tracked than may be, and of each identity no
more requests are counted than the largest limit that it was ever judged against. Limits are words
of 32 bits, so counts are too: every call reports the number of requests that its window holds as
it is, up to its limit if it is admitted, and a refused call lengthens no window. With that number
the caller is left in the limiter, unless the limiter was full without it and evicts it at once. If
the clock does not go back, the instants of every window are in order. -/
theorem limiter_stays_contained (config : RateLimitConfig) (perSecond : Nat)
    (steps : List (Nat × Operation))
    (words : ∀ step ∈ steps, ∀ c ∈ step.2.call? config, c.limit < 2 ^ 32) :
    let l := (new config perSecond).run steps
    Contained config steps l ∧ (∀ x, l.currentCount x < 2 ^ 32) ∧
      (∀ now op c, op.call? config = some c → c.limit < 2 ^ 32 → Tallied l now op c) ∧
      ((steps.Pairwise fun a b => a.1 ≤ b.1) → l.Ordered) := by
  intro l
  have contained : Contained config steps l := contained_run (contained_new config perSecond) steps
  have fits : ∀ x, l.currentCount x < 2 ^ 32 := fun x =>
    Nat.lt_of_le_of_lt (contained.counts x) (largestLimit_lt (by decide) words x)
  exact ⟨contained, fits, fun now op c call => tallied_of_contained contained call fits,
    ordered_run config perSecond⟩

/-- Calls of three identities under a clock that goes back, where two may be tracked; one of them is
judged against several limits. -/
def backwardRun : List (Nat × Operation) :=
  [(5000, .request "ada" 3 1), (4000, .checkWith "ada" 2 9), (6000, .checkWith "bob" 4 1),
    (100, .request "eve" 1 60), (4500, .request "ada" 1 9)]

/-- Whom they leave tracked. -/
def backwardLimiter : RateLimiter where
  config := { maxTrackedIdentities := 2 }
  windows := [("ada", ⟨[5000, 4000], 9000⟩), ("bob", ⟨[6000], 1000⟩)]

/-- The third identity is evicted by its own call, since the clock went back for it. -/
theorem run_backwardRun :
    (new { maxTrackedIdentities := 2 }).run backwardRun = backwardLimiter := by
  let swept := (backwardLimiter.stored 100 ⟨"eve", 1, 60⟩).sweepIdle 100
  have windows : swept.windows = backwardLimiter.windows ++ [("eve", ⟨[100], 60000⟩)] := by decide
  have order : swept.byRecency = ["eve", "ada", "bob"] := by
    rw [byRecency, windows]
    simp [backwardLimiter, List.mergeSort, RateWindow.recency]
  have dropped : swept.dropOldest = backwardLimiter := by
    rw [dropOldest, order]
    rfl
  have third : (backwardLimiter.perform 100 (.request "eve" 1 60)).limiter = backwardLimiter := by
    rw [limiter_perform_of_call rfl, limiter_request_eq, if_pos (by decide)]
    exact dropped
  have first : (new { maxTrackedIdentities := 2 }).run (backwardRun.take 3) = backwardLimiter := rfl
  calc (new { maxTrackedIdentities := 2 }).run backwardRun
      = ((new { maxTrackedIdentities := 2 }).run (backwardRun.take 3)).run (backwardRun.drop 3) :=
        rfl
    _ = backwardLimiter.run (backwardRun.drop 3) := by rw [first]
    _ = (backwardLimiter.perform 4500 (.request "ada" 1 9)).limiter :=
        congrArg (fun l => (perform l 4500 (.request "ada" 1 9)).limiter) third
    _ = backwardLimiter := rfl

/-- Two identities are left, and the last call of all was refused under the smaller limit. -/
theorem limiter_stays_contained_sample :
    let config : RateLimitConfig := { maxTrackedIdentities := 2 }
    let l := (new config).run backwardRun
    l.tracked ≤ 2 ∧ l.currentCount "ada" ≤ 3 ∧ Tallied l 4600 (.request "ada" 1 9) ⟨"ada", 1, 9⟩ ∧
      (l.perform 4600 (.request "ada" 1 9)).answer.admits = false := by
  intro config l
  have refused : (l.perform 4600 (.request "ada" 1 9)).answer.admits = false := by
    rw [show l = backwardLimiter from run_backwardRun]
    decide
  obtain ⟨contained, -, tallied, -⟩ := limiter_stays_contained config 1000 backwardRun (by decide)
  exact ⟨contained.tracked, contained.counts "ada", tallied _ _ _ rfl (by decide), refused⟩

end RateLimiter

end BoundSql
