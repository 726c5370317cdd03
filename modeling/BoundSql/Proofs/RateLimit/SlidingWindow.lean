import BoundSql.Proofs.RateLimit.Room

/-!
# The limiter is an exact sliding window

A limiter forgets: it drops instants from the front of a window, sweeps out idle windows, and evicts
windows when they are too many. For an identity whose calls all ask for windows of one length none
of this shows, as long as there is room for all live identities: each of its calls is judged against
all of its admitted calls so far, of which those inside the window count.

The invariant is `Tracks`: the admitted instants are those the limiter dropped, all of them expired,
and then those it keeps. One lemma for each thing a step can do says that it is preserved
(`Tracks.sweep`, `Tracks.store_other`, `Tracks.store_self`), and `tracks_perform` puts them
together.

Headline: **`sliding_window`**.
-/

namespace BoundSql.RateLimiter

/-! ## Calls of one identity -/

/-- The limit of a call of one identity, if the operation is one. -/
def Operation.limitOf? (config : RateLimitConfig) (x : String) (op : Operation) : Option Nat :=
  ((op.call? config).filter (·.identity == x)).map (·.limit)

/-- The calls of an identity: their instants and limits. -/
def callsOf (config : RateLimitConfig) (x : String) (steps : List (Nat × Operation)) :
    List (Nat × Nat) :=
  steps.filterMap fun step => (step.2.limitOf? config x).map fun limit => (step.1, limit)

/-- What a run answers to the calls of an identity, in order. -/
def verdicts (x : String) : RateLimiter → List (Nat × Operation) → List Bool
  | _, [] => []
  | l, (now, op) :: steps =>
    let p := l.perform now op
    if (op.limitOf? l.config x).isSome then p.answer.admits :: verdicts x p.limiter steps
    else verdicts x p.limiter steps

/-- The instant of a step, if it is a call of the identity and admitted. -/
def admittedAt (x : String) (l : RateLimiter) (now : Nat) (op : Operation) : List Nat :=
  if (op.limitOf? l.config x).isSome && (l.perform now op).answer.admits then [now] else []

/-- The instants of the calls of an identity that a run admits, in order. -/
def admissions (x : String) : RateLimiter → List (Nat × Operation) → List Nat
  | _, [] => []
  | l, (now, op) :: steps =>
    admittedAt x l now op ++ admissions x (l.perform now op).limiter steps

/-- The number of instants inside the window of this length that ends at `now`. -/
def countInside (span now : Nat) (instants : List Nat) : Nat :=
  instants.countP fun t => decide (now - t ≤ span)

/-- What the full history answers: a call is admitted if fewer admitted calls are inside the window
than its limit. -/
def reference (span : Nat) : List Nat → List (Nat × Nat) → List Bool
  | _, [] => []
  | admitted, (now, limit) :: calls =>
    if countInside span now admitted < limit then
      true :: reference span (admitted ++ [now]) calls
    else false :: reference span admitted calls

/-- A run of calls and sweeps in the order of time, in which an identity asks for windows of one
length, and with room for all live identities. -/
structure Steady (x : String) (windowSeconds : Nat) (l : RateLimiter)
    (steps : List (Nat × Operation)) : Prop where
  ordered : steps.Pairwise fun a b => a.1 ≤ b.1
  noReset : ∀ step ∈ steps, step.2 ≠ .reset
  oneLength : ∀ step ∈ steps, ∀ c ∈ step.2.call? l.config, c.identity = x →
    c.windowSeconds = windowSeconds
  /-- The history of the calls can tell: `hasRoom_of_history`. -/
  room : l.HasRoom steps

/-! ## The invariant -/

/-- What the limiter keeps of an identity whose calls ask for windows of one length, when the given
instants are those of its admitted calls so far: all but some expired ones. -/
structure Tracks (x : String) (windowSeconds : Nat) (l : RateLimiter) (admitted : List Nat)
    (now : Nat) : Prop where
  nodup : l.keys.Nodup
  ordered : admitted.Pairwise (· ≤ ·)
  past : ∀ t ∈ admitted, t ≤ now
  span : ∀ w, l.window? x = some w → w.span = l.ticks windowSeconds
  kept : ∃ dropped, admitted = dropped ++ (l.windowOf x).instants ∧
    ∀ t ∈ dropped, l.ticks windowSeconds < now - t

variable {x : String} {windowSeconds now now' limit : Nat} {l : RateLimiter}
  {admitted : List Nat}

theorem tracks_new (config : RateLimitConfig) (perSecond : Nat) (x : String)
    (windowSeconds now : Nat) : Tracks x windowSeconds (new config perSecond) [] now where
  nodup := List.nodup_nil
  ordered := .nil
  past _ h := absurd h List.not_mem_nil
  span _ h := by cases h
  kept := ⟨[], rfl, fun _ h => absurd h List.not_mem_nil⟩

namespace Tracks

/-- Time may pass. -/
theorem later (h : Tracks x windowSeconds l admitted now) (le : now ≤ now') :
    Tracks x windowSeconds l admitted now' where
  nodup := h.nodup
  ordered := h.ordered
  past t ht := Nat.le_trans (h.past t ht) le
  span := h.span
  kept := by
    obtain ⟨dropped, split, old⟩ := h.kept
    refine ⟨dropped, split, fun t ht => ?_⟩
    have := old t ht
    omega

/-- **What a call finds in the window**: the admitted instants but for expired ones, and all that is
found is inside the window. -/
theorem exists_opened (h : Tracks x windowSeconds l admitted now) :
    ∃ dropped, admitted =
        dropped ++ ((l.windowOf x).opened now (l.ticks windowSeconds)).instants ∧
      (∀ t ∈ dropped, l.ticks windowSeconds < now - t) ∧
      ∀ t ∈ ((l.windowOf x).opened now (l.ticks windowSeconds)).instants,
        now - t ≤ l.ticks windowSeconds := by
  obtain ⟨dropped, split, old⟩ := h.kept
  let w : RateWindow := { l.windowOf x with span := l.ticks windowSeconds }
  obtain ⟨expired, front, hexpired⟩ := w.exists_purge now
  have ordered : w.instants.Pairwise (· ≤ ·) := by
    have := h.ordered
    rw [split] at this
    exact (List.pairwise_append.mp this).2.1
  refine ⟨dropped ++ expired, ?_, ?_, ?_⟩
  · rw [split, List.append_assoc]
    exact congrArg _ front
  · intro t ht
    rcases List.mem_append.mp ht with ht | ht
    · exact old t ht
    · have := hexpired t ht
      rwa [RateWindow.expired, decide_eq_true_eq] at this
  · intro t ht
    have := RateWindow.not_expired_of_mem_purge ordered ht
    rw [RateWindow.expired, decide_eq_false_iff_not] at this
    exact Nat.not_lt.mp this

/-- **A call is judged against the full history.** -/
theorem admits_eq (h : Tracks x windowSeconds l admitted now) (limit : Nat) :
    (l.windowOf x).admits now (l.ticks windowSeconds) limit =
      decide (countInside (l.ticks windowSeconds) now admitted < limit) := by
  obtain ⟨dropped, split, old, inside⟩ := h.exists_opened
  have count : countInside (l.ticks windowSeconds) now admitted =
      ((l.windowOf x).opened now (l.ticks windowSeconds)).instants.length := by
    have none_old : dropped.countP (fun t => decide (now - t ≤ l.ticks windowSeconds)) = 0 :=
      List.countP_eq_zero.mpr fun t ht => by
        have := old t ht
        rw [decide_eq_true_eq]
        omega
    rw [countInside, split, List.countP_append, none_old, Nat.zero_add]
    exact List.countP_eq_length.mpr fun t ht => by simpa using inside t ht
  rw [RateWindow.admits, count]

/-- A window that a sweep purges is purged as a call would purge it. -/
theorem instants_opened (h : Tracks x windowSeconds l admitted now) :
    ((l.windowOf x).opened now (l.ticks windowSeconds)).instants =
      ((l.windowOf x).purge now).instants := by
  unfold windowOf
  cases hw : l.window? x with
  | none => rfl
  | some w =>
    rw [Option.getD_some, ← h.span w hw]
    rfl

/-! ### What a step can do -/

theorem sweep (h : Tracks x windowSeconds l admitted now) :
    Tracks x windowSeconds (l.sweepIdle now) admitted now where
  nodup := nodup_keys_sweepIdle h.nodup now
  ordered := h.ordered
  past := h.past
  span w hw := by
    rw [window?_sweepIdle h.nodup, Option.filter_eq_some_iff, Option.map_eq_some_iff] at hw
    obtain ⟨⟨v, hv, rfl⟩, -⟩ := hw
    exact h.span v hv
  kept := by
    obtain ⟨dropped, split, old, -⟩ := h.exists_opened
    rw [h.instants_opened] at split
    exact ⟨dropped, by rw [instants_windowOf_sweepIdle h.nodup]; exact split, old⟩

/-- Where there is room, an eviction is a sweep. -/
theorem evict (h : Tracks x windowSeconds l admitted now)
    (room : l.live now ≤ l.config.maxTrackedIdentities) :
    Tracks x windowSeconds (l.evict now) admitted now := by
  rw [evict_eq_sweepIdle room]
  exact h.sweep

/-- The window of another identity is stored. -/
theorem store_other (h : Tracks x windowSeconds l admitted now) {other : String} (ne : x ≠ other)
    (w : RateWindow) :
    Tracks x windowSeconds { l with windows := store other w l.windows } admitted now where
  nodup := nodup_keys_store h.nodup other w
  ordered := h.ordered
  past := h.past
  span v hv := by
    rw [window?, lookup_store_of_ne ne] at hv
    exact h.span v hv
  kept := by
    rw [windowOf_store_of_ne ne]
    exact h.kept

/-- **The window of the identity is stored as a call leaves it**, with the instant of the call if it
is admitted. -/
theorem store_self (h : Tracks x windowSeconds l admitted now) (limit : Nat) :
    Tracks x windowSeconds
      { l with
        windows := store x ((l.windowOf x).after now (l.ticks windowSeconds) limit) l.windows }
      (admitted ++ if (l.windowOf x).admits now (l.ticks windowSeconds) limit then [now] else [])
      now where
  nodup := nodup_keys_store h.nodup x _
  ordered := by
    refine List.pairwise_append.mpr ⟨h.ordered, ?_, fun t ht u hu => ?_⟩
    · split
      · exact List.pairwise_singleton _ _
      · exact .nil
    · split at hu
      · rw [List.mem_singleton.mp hu]
        exact h.past t ht
      · exact absurd hu List.not_mem_nil
  past t ht := by
    rcases List.mem_append.mp ht with ht | ht
    · exact h.past t ht
    · split at ht
      · exact Nat.le_of_eq (List.mem_singleton.mp ht)
      · exact absurd ht List.not_mem_nil
  span v hv := by
    rw [window?, lookup_store_self, Option.some.injEq] at hv
    rw [← hv, RateWindow.after]
    split <;> rfl
  kept := by
    obtain ⟨dropped, split, old, -⟩ := h.exists_opened
    refine ⟨dropped, ?_, old⟩
    rw [windowOf_store_self, RateWindow.after]
    split
    · rw [← List.append_assoc, ← split]
    · rw [List.append_nil, ← split]

end Tracks

/-! ## Steps -/

variable {op : Operation} {c : Call} {steps : List (Nat × Operation)}

theorem limitOf?_of_call (h : op.call? l.config = some c) (x : String) :
    op.limitOf? l.config x = if c.identity = x then some c.limit else none := by
  rw [Operation.limitOf?, h, Option.filter_some]
  by_cases same : c.identity = x
  · rw [if_pos (beq_iff_eq.mpr same), if_pos same]
    rfl
  · rw [if_neg (fun e => same (eq_of_beq e)), if_neg same]
    rfl

theorem admittedAt_of_none (h : op.limitOf? l.config x = none) : admittedAt x l now op = [] := by
  rw [admittedAt, h]
  rfl

theorem admittedAt_of_some (h : op.limitOf? l.config x = some limit) :
    admittedAt x l now op = if (l.perform now op).answer.admits then [now] else [] := by
  rw [admittedAt, h, Option.isSome_some, Bool.true_and]

theorem callsOf_cons (config : RateLimitConfig) (x : String) (now : Nat) (op : Operation)
    (steps : List (Nat × Operation)) :
    callsOf config x ((now, op) :: steps) =
      match op.limitOf? config x with
      | none => callsOf config x steps
      | some limit => (now, limit) :: callsOf config x steps := by
  rw [callsOf, List.filterMap_cons]
  cases op.limitOf? config x <;> rfl

/-- **A step keeps the invariant.** -/
theorem tracks_perform (h : Tracks x windowSeconds l admitted now) (noReset : op ≠ .reset)
    (oneLength : ∀ c ∈ op.call? l.config, c.identity = x → c.windowSeconds = windowSeconds)
    (room : (l.judged now op).live now ≤ l.config.maxTrackedIdentities) :
    Tracks x windowSeconds (l.perform now op).limiter (admitted ++ admittedAt x l now op) now := by
  cases call : op.call? l.config with
  | none =>
    have nobody : op.limitOf? l.config x = none := by
      rw [Operation.limitOf?, call]
      rfl
    rw [admittedAt_of_none nobody, List.append_nil]
    cases op with
    | sweep => exact h.sweep
    | showConfig => exact h
    | reset => exact absurd rfl noReset
    | _ => cases call
  | some c =>
    rw [judged, call] at room
    rw [limiter_perform_of_call call, admittedAt, limitOf?_of_call call,
      admits_perform_of_call call]
    have tracks : Tracks x windowSeconds (l.stored now c)
        (admitted ++ if (if c.identity = x then some c.limit else none).isSome &&
          (l.windowOf c.identity).admits now (l.ticks c.windowSeconds) c.limit then [now] else [])
        now := by
      by_cases same : c.identity = x
      · have length := oneLength c call same
        rw [if_pos same, Option.isSome_some, Bool.true_and, stored, same, length]
        exact h.store_self c.limit
      · rw [if_neg same, Option.isSome_none, Bool.false_and, if_neg Bool.false_ne_true,
          List.append_nil]
        exact h.store_other (fun e => same e.symm) _
    rcases limiter_request l now c with e | e
    · rw [e]
      exact tracks
    · rw [e]
      exact tracks.evict room

/-! ## Runs -/

namespace Steady

/-- A steady run is steady up to any step and from there on. -/
theorem split {before after : List (Nat × Operation)}
    (h : Steady x windowSeconds l (before ++ after)) :
    Steady x windowSeconds l before ∧ Steady x windowSeconds (l.run before) after := by
  have ordered := List.pairwise_append.mp h.ordered
  have room := hasRoom_append_iff.mp h.room
  refine ⟨⟨ordered.1, ?_, ?_, room.1⟩, ⟨ordered.2.1, ?_, ?_, room.2⟩⟩
  · exact fun step hs => h.noReset step (List.mem_append_left _ hs)
  · exact fun step hs => h.oneLength step (List.mem_append_left _ hs)
  · exact fun step hs => h.noReset step (List.mem_append_right _ hs)
  · rw [config_run]
    exact fun step hs => h.oneLength step (List.mem_append_right _ hs)

theorem head (h : Steady x windowSeconds l ((now, op) :: steps))
    (tracks : Tracks x windowSeconds l admitted now) :
    Tracks x windowSeconds (l.perform now op).limiter (admitted ++ admittedAt x l now op) now :=
  tracks_perform tracks (h.noReset _ List.mem_cons_self) (h.oneLength _ List.mem_cons_self)
    h.room.1

theorem tail (h : Steady x windowSeconds l ((now, op) :: steps)) :
    Steady x windowSeconds (l.perform now op).limiter steps := by
  have first : Steady x windowSeconds l ([(now, op)] ++ steps) := h
  exact first.split.2

theorem ordered_tail (h : Steady x windowSeconds l ((now, op) :: steps)) :
    ∀ step ∈ steps, now ≤ step.1 :=
  (List.pairwise_cons.mp h.ordered).1

end Steady

/-- **A run keeps the invariant.** -/
theorem tracks_run (tracks : Tracks x windowSeconds l admitted now)
    (steady : Steady x windowSeconds l steps) (begins : ∀ step ∈ steps, now ≤ step.1)
    (later : now ≤ now') (ends : ∀ step ∈ steps, step.1 ≤ now') :
    Tracks x windowSeconds (l.run steps) (admitted ++ admissions x l steps) now' := by
  induction steps generalizing l admitted now with
  | nil =>
    rw [admissions, List.append_nil]
    exact tracks.later later
  | cons step steps ih =>
    obtain ⟨instant, op⟩ := step
    have first := steady.head (tracks.later (begins _ List.mem_cons_self))
    rw [run_cons, admissions, ← List.append_assoc]
    exact ih first steady.tail steady.ordered_tail (ends _ List.mem_cons_self)
      fun step hs => ends step (List.mem_cons_of_mem _ hs)

/-- A call of the identity is judged against its full history. -/
theorem admits_perform (tracks : Tracks x windowSeconds l admitted now)
    (oneLength : ∀ c ∈ op.call? l.config, c.identity = x → c.windowSeconds = windowSeconds)
    (call : op.limitOf? l.config x = some limit) :
    (l.perform now op).answer.admits =
      decide (countInside (l.ticks windowSeconds) now admitted < limit) := by
  cases h : op.call? l.config with
  | none =>
    rw [Operation.limitOf?, h] at call
    cases call
  | some c =>
    rw [limitOf?_of_call h] at call
    by_cases same : c.identity = x
    · rw [if_pos same, Option.some.injEq] at call
      rw [admits_perform_of_call h, oneLength c h same, same, call]
      exact tracks.admits_eq limit
    · rw [if_neg same] at call
      cases call

/-- **The answers to the calls of the identity are those of the full history.** -/
theorem verdicts_eq (tracks : Tracks x windowSeconds l admitted now)
    (steady : Steady x windowSeconds l steps) (begins : ∀ step ∈ steps, now ≤ step.1) :
    verdicts x l steps = reference (l.ticks windowSeconds) admitted (callsOf l.config x steps) := by
  induction steps generalizing l admitted now with
  | nil => rfl
  | cons step steps ih =>
    obtain ⟨instant, op⟩ := step
    have tracks := tracks.later (begins _ List.mem_cons_self)
    have ih := ih (steady.head tracks) steady.tail steady.ordered_tail
    rw [config_perform, ticks_perform] at ih
    rw [verdicts, ih, callsOf_cons]
    cases call : op.limitOf? l.config x with
    | none =>
      rw [admittedAt_of_none call, List.append_nil]
      rfl
    | some limit =>
      have judged := admits_perform tracks (steady.oneLength _ List.mem_cons_self) call
      rw [admittedAt_of_some call, judged]
      simp only [Option.isSome_some, if_true, reference, decide_eq_true_eq]
      by_cases fits : countInside (l.ticks windowSeconds) instant admitted < limit
      · rw [if_pos fits, if_pos fits, decide_eq_true fits]
      · rw [if_neg fits, if_neg fits, decide_eq_false fits, List.append_nil]

/-! ## The greatest number of admitted calls -/

/-- No closed interval of the length of the window holds more than so many of the instants. -/
def Sparse (span limit : Nat) (instants : List Nat) : Prop :=
  ∀ a, instants.countP (fun t => decide (a ≤ t ∧ t ≤ a + span)) ≤ limit

theorem sparse_nil (span limit : Nat) : Sparse span limit [] := fun _ => Nat.zero_le limit

/-- One more instant, not before the others, where fewer are inside the window that it ends. -/
theorem Sparse.append {span : Nat} (h : Sparse span limit admitted) (past : ∀ t ∈ admitted, t ≤ now)
    (fits : countInside span now admitted < limit) : Sparse span limit (admitted ++ [now]) := by
  intro a
  rw [List.countP_append, List.countP_singleton]
  by_cases inside : a ≤ now ∧ now ≤ a + span
  · -- An interval that reaches `now` has its other instants inside the window that `now` ends.
    have fewer : admitted.countP (fun t => decide (a ≤ t ∧ t ≤ a + span)) ≤
        countInside span now admitted :=
      List.countP_mono_left fun t ht h => by
        have := past t ht
        rw [decide_eq_true_eq] at h ⊢
        omega
    rw [if_pos (decide_eq_true inside)]
    omega
  · rw [if_neg (by simpa using inside), Nat.add_zero]
    exact h a

/-- **A run under one limit stays sparse.** -/
theorem sparse_run (sparse : Sparse (l.ticks windowSeconds) limit admitted)
    (tracks : Tracks x windowSeconds l admitted now) (steady : Steady x windowSeconds l steps)
    (begins : ∀ step ∈ steps, now ≤ step.1)
    (one : ∀ call ∈ callsOf l.config x steps, call.2 = limit) :
    Sparse (l.ticks windowSeconds) limit (admitted ++ admissions x l steps) := by
  induction steps generalizing l admitted now with
  | nil =>
    rw [admissions, List.append_nil]
    exact sparse
  | cons step steps ih =>
    obtain ⟨instant, op⟩ := step
    have tracks := tracks.later (begins _ List.mem_cons_self)
    rw [admissions, ← List.append_assoc, ← ticks_perform l instant op]
    refine ih ?_ (steady.head tracks) steady.tail steady.ordered_tail ?_
    · rw [ticks_perform]
      cases call : op.limitOf? l.config x with
      | none =>
        rw [admittedAt_of_none call, List.append_nil]
        exact sparse
      | some bound =>
        have same : bound = limit := by
          refine one (instant, bound) ?_
          rw [callsOf_cons, call]
          exact List.mem_cons_self
        have judged := admits_perform tracks (steady.oneLength _ List.mem_cons_self) call
        rw [admittedAt_of_some call, judged, same]
        simp only [decide_eq_true_eq]
        split
        · rename_i fits
          exact sparse.append tracks.past fits
        · rw [List.append_nil]
          exact sparse
    · intro call hc
      rw [config_perform] at hc
      refine one call ?_
      rw [callsOf_cons]
      split
      · exact hc
      · exact List.mem_cons_of_mem _ hc

/-! ## The headline -/

/-- **The limiter is an exact sliding window.** Let a run of calls and sweeps start from a limiter
that tracks nobody, in the order of time, and let all calls of one identity ask for windows of one
length; others may ask for anything, and the clock may tick at any rate. If there is room for all
live identities after each step, a call of the identity is admitted exactly if fewer of its admitted
calls so far are inside the window than its limit. So its answers follow from its own calls alone,
refused ones leave no trace, and under one limit no closed interval of that length has more admitted
calls than the limit. -/
theorem sliding_window (config : RateLimitConfig) (perSecond : Nat) (x : String)
    (windowSeconds : Nat) (steps : List (Nat × Operation))
    (steady : Steady x windowSeconds (new config perSecond) steps) :
    let start := new config perSecond
    let span := perSecond * windowSeconds
    (∀ before now op after limit, steps = before ++ (now, op) :: after →
      op.limitOf? config x = some limit →
        (((start.run before).perform now op).answer.admits = true ↔
          countInside span now (admissions x start before) < limit)) ∧
    verdicts x start steps = reference span [] (callsOf config x steps) ∧
    ∀ limit, (∀ call ∈ callsOf config x steps, call.2 = limit) →
      Sparse span limit (admissions x start steps) := by
  intro start span
  have begins : ∀ step ∈ steps, 0 ≤ step.1 := fun step _ => Nat.zero_le step.1
  have tracked := tracks_new config perSecond x windowSeconds 0
  refine ⟨?_, verdicts_eq tracked steady begins, ?_⟩
  · rintro before now op after limit rfl call
    obtain ⟨soFar, onward⟩ := steady.split
    have ends : ∀ step ∈ before, step.1 ≤ now := fun step hs =>
      (List.pairwise_append.mp steady.ordered).2.2 step hs _ List.mem_cons_self
    have tracks := tracks_run tracked soFar (fun step _ => Nat.zero_le step.1) (Nat.zero_le now)
      ends
    have limitOf : op.limitOf? (start.run before).config x = some limit := by
      rw [config_run]
      exact call
    rw [admits_perform tracks (onward.oneLength _ List.mem_cons_self) limitOf, ticks_run,
      decide_eq_true_eq]
    rfl
  · intro limit one
    have sparse : Sparse (start.ticks windowSeconds) limit [] := sparse_nil _ _
    exact sparse_run sparse tracked steady begins one

/-- Two identities in turn, with a sweep between; the first one asks at the end of its window and
one instant later. -/
def sampleRun : List (Nat × Operation) :=
  [(0, .request "ada" 1 1), (500, .checkWith "bob" 5 9), (700, .checkWith "ada" 1 1), (900, .sweep),
    (1000, .request "ada" 1 1), (1001, .request "ada" 1 1)]

/-- The window is closed at its far end: the third call is refused, the fourth one admitted. -/
theorem sliding_window_sample :
    verdicts "ada" (new { maxTrackedIdentities := 2 }) sampleRun = [true, false, false, true] := by
  have steady : Steady "ada" 1 (new { maxTrackedIdentities := 2 }) sampleRun := by
    refine ⟨by decide, by decide, by decide, hasRoom_of_history (recorded_new _ _) (by decide) ?_⟩
    exact ⟨by decide, by decide, by decide, by decide, by decide, by decide, trivial⟩
  obtain ⟨-, answers, -⟩ := sliding_window _ _ _ _ _ steady
  rw [answers]
  decide

end BoundSql.RateLimiter
