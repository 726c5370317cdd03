import Mathlib.Data.List.Dedup
import Mathlib.Data.List.Perm.Subperm
import BoundSql.Proofs.RateLimit.Calls

/-!
# Room by the history alone

Whether there is room for all live identities can be told from the calls so far and their answers,
without a look at the limiter: what a limiter keeps of an identity is among its admitted instants,
and its window has the length of its latest call (`Recorded`). So where by the history no more
identities hold an admitted instant inside their own window than may be tracked, there is room
(`hasRoom_of_history`).
-/

namespace BoundSql.RateLimiter

/-- A call that was answered. -/
structure Entry where
  call : Call
  /-- The length of the window that it asked for. -/
  span : Nat
  instant : Nat
  admitted : Bool
  deriving DecidableEq, Repr

/-- The calls answered so far, the latest one first. -/
abbrev History := List Entry

namespace History

/-- The length of the window of an identity: that of its latest call. -/
def span (h : History) (x : String) : Nat :=
  match h.find? (·.call.identity == x) with
  | some e => e.span
  | none => 0

theorem span_cons (e : Entry) (h : History) (x : String) :
    span (e :: h) x = if e.call.identity = x then e.span else h.span x := by
  rw [span, List.find?_cons]
  by_cases same : e.call.identity = x
  · rw [if_pos same, beq_iff_eq.mpr same]
  · rw [if_neg same, beq_eq_false_iff_ne.mpr same]
    rfl

/-- Whether an identity has an admitted instant inside its own window. -/
def holds (h : History) (now : Nat) (x : String) : Bool :=
  h.any fun e => e.admitted && e.call.identity == x && decide (now - e.instant ≤ h.span x)

/-- The number of identities that have an admitted instant inside their own window. -/
def holders (h : History) (now : Nat) : Nat :=
  ((h.map (·.call.identity)).dedup.filter (h.holds now)).length

/-- The history after a step. -/
def extend (h : History) (l : RateLimiter) (now : Nat) (op : Operation) : History :=
  match op.call? l.config with
  | some call =>
    { call, span := l.ticks call.windowSeconds, instant := now,
      admitted := (l.perform now op).answer.admits } :: h
  | none => h

/-- After every step, no more identities have an admitted instant inside their own window than may
be tracked. -/
def HasRoom : History → RateLimiter → List (Nat × Operation) → Prop
  | _, _, [] => True
  | h, l, (now, op) :: steps =>
    (h.extend l now op).holders now ≤ l.config.maxTrackedIdentities ∧
      (h.extend l now op).HasRoom (l.perform now op).limiter steps

end History

/-- The identity has a call admitted at the instant. -/
def AdmittedIn (h : History) (x : String) (t : Nat) : Prop :=
  ∃ e ∈ h, e.admitted = true ∧ e.call.identity = x ∧ e.instant = t

/-- What is kept of an identity comes from its calls. -/
def KeptFrom (h : History) (x : String) (w : RateWindow) : Prop :=
  w.span = h.span x ∧ ∀ t ∈ w.instants, AdmittedIn h x t

/-- Whatever a limiter keeps comes from the history. -/
structure Recorded (h : History) (l : RateLimiter) : Prop where
  nodup : l.keys.Nodup
  kept : ∀ e ∈ l.windows, KeptFrom h e.1 e.2

variable {h : History} {l : RateLimiter} {now : Nat} {op : Operation} {c : Call} {x : String}
  {w : RateWindow}

theorem recorded_new (config : RateLimitConfig) (perSecond : Nat) :
    Recorded [] (new config perSecond) where
  nodup := List.nodup_nil
  kept _ he := absurd he List.not_mem_nil

theorem KeptFrom.purge (hw : KeptFrom h x w) (now : Nat) : KeptFrom h x (w.purge now) :=
  ⟨hw.1, fun t ht => hw.2 t (RateWindow.mem_of_mem_purge ht)⟩

theorem AdmittedIn.cons {t : Nat} (ht : AdmittedIn h x t) (e : Entry) : AdmittedIn (e :: h) x t :=
  ht.imp fun _ hr => ⟨List.mem_cons_of_mem e hr.1, hr.2⟩

/-- A call of another identity changes nothing. -/
theorem KeptFrom.cons_other (hw : KeptFrom h x w) {e : Entry} (ne : e.call.identity ≠ x) :
    KeptFrom (e :: h) x w := by
  constructor
  · rw [History.span_cons, if_neg ne]
    exact hw.1
  · exact fun t ht => (hw.2 t ht).cons e

/-- A call leaves what was kept before it, and its own instant if it is admitted. -/
theorem keptFrom_after (kept : ∀ t ∈ w.instants, AdmittedIn h c.identity t) {span : Nat}
    {yes : Bool} (admits : w.admits now span c.limit = yes) :
    KeptFrom ({ call := c, span, instant := now, admitted := yes } :: h) c.identity
      (w.after now span c.limit) := by
  have opened : ∀ t ∈ (w.opened now span).instants, AdmittedIn h c.identity t := fun t ht =>
    kept t (RateWindow.mem_of_mem_purge (w := { w with span }) ht)
  rw [RateWindow.after, admits]
  constructor
  · rw [History.span_cons, if_pos rfl]
    split <;> rfl
  · intro t ht
    cases yes with
    | false => exact (opened t ht).cons _
    | true =>
      rcases List.mem_append.mp ht with ht | ht
      · exact (opened t ht).cons _
      · exact ⟨_, List.mem_cons_self, rfl, rfl, (List.mem_singleton.mp ht).symm⟩

namespace Recorded

theorem sweep (hl : Recorded h l) (now : Nat) : Recorded h (l.sweepIdle now) where
  nodup := nodup_keys_sweepIdle hl.nodup now
  kept e he := by
    obtain ⟨e', he', rfl⟩ := List.mem_map.mp (List.mem_of_mem_filter he)
    exact (hl.kept e' he').purge now

theorem dropOldest (hl : Recorded h l) : Recorded h l.dropOldest where
  nodup := (List.filter_sublist.map _).nodup hl.nodup
  kept e he := hl.kept e (List.mem_of_mem_filter he)

theorem admittedIn_of_windowOf (hl : Recorded h l) (x : String) :
    ∀ t ∈ (l.windowOf x).instants, AdmittedIn h x t := by
  unfold windowOf
  cases hw : l.window? x with
  | none => exact fun _ ht => absurd ht List.not_mem_nil
  | some w =>
    obtain ⟨before, after, hws, -⟩ := List.lookup_eq_some_iff.mp hw
    refine (hl.kept (x, w) ?_).2
    rw [hws]
    exact List.mem_append_right _ List.mem_cons_self

/-- What a stored window replaces is gone. -/
theorem mem_store {ws : List (String × RateWindow)} (nodup : (ws.map (·.1)).Nodup)
    {e : String × RateWindow} (he : e ∈ store x w ws) : e = (x, w) ∨ e ∈ ws ∧ e.1 ≠ x := by
  induction ws with
  | nil => exact Or.inl (List.mem_singleton.mp he)
  | cons first rest ih =>
    obtain ⟨k, v⟩ := first
    rw [List.map_cons, List.nodup_cons] at nodup
    unfold store at he
    by_cases same : k = x
    · subst same
      rw [if_pos rfl] at he
      rcases List.mem_cons.mp he with he | he
      · exact Or.inl he
      · refine Or.inr ⟨List.mem_cons_of_mem _ he, fun e' => nodup.1 ?_⟩
        exact List.mem_map.mpr ⟨e, he, e'⟩
    · rw [if_neg same] at he
      rcases List.mem_cons.mp he with rfl | he
      · exact Or.inr ⟨List.mem_cons_self, same⟩
      · rcases ih nodup.2 he with he | ⟨he, ne⟩
        · exact Or.inl he
        · exact Or.inr ⟨List.mem_cons_of_mem _ he, ne⟩

theorem stored (hl : Recorded h l) (call : op.call? l.config = some c) :
    Recorded (h.extend l now op) (l.stored now c) where
  nodup := nodup_keys_store hl.nodup c.identity _
  kept e he := by
    rw [History.extend, call]
    rcases mem_store hl.nodup he with rfl | ⟨he, ne⟩
    · exact keptFrom_after (hl.admittedIn_of_windowOf _) (admits_perform_of_call call).symm
    · exact (hl.kept e he).cons_other fun same => ne same.symm

/-- **A step records what it keeps**, before it evicts anything and after. -/
theorem perform (hl : Recorded h l) (noReset : op ≠ .reset) (now : Nat) :
    Recorded (h.extend l now op) (l.judged now op) ∧
      Recorded (h.extend l now op) (l.perform now op).limiter := by
  cases call : op.call? l.config with
  | some c =>
    have stored : Recorded (h.extend l now op) (l.stored now c) := hl.stored call
    rw [judged, call, limiter_perform_of_call call]
    refine ⟨stored, ?_⟩
    rcases limiter_request l now c with e | e
    · rw [e]
      exact stored
    · rw [e]
      exact (stored.sweep now).dropOldest
  | none =>
    rw [judged, History.extend, call]
    refine ⟨?_, ?_⟩ <;>
    · cases op with
      | sweep => exact hl.sweep now
      | showConfig => exact hl
      | reset => exact absurd rfl noReset
      | _ => cases call

/-- **Live identities have an admitted instant inside their own window.** -/
theorem live_le_holders (hl : Recorded h l) (now : Nat) : l.live now ≤ h.holders now := by
  rw [live, List.countP_eq_length_filter, ← List.length_map (f := (·.1)), History.holders]
  refine (List.Nodup.subperm ((List.filter_sublist.map _).nodup hl.nodup) fun y hy => ?_).length_le
  obtain ⟨⟨k, w⟩, he, rfl⟩ := List.mem_map.mp hy
  obtain ⟨he, live⟩ := List.mem_filter.mp he
  obtain ⟨span, kept⟩ := hl.kept _ he
  obtain ⟨t, ht, inside⟩ := List.any_eq_true.mp live
  obtain ⟨e, hm, admitted, rfl, rfl⟩ := kept t ht
  rw [RateWindow.expired, Bool.not_eq_true', decide_eq_false_iff_not, span] at inside
  refine List.mem_filter.mpr ⟨List.mem_dedup.mpr (List.mem_map.mpr ⟨e, hm, rfl⟩), ?_⟩
  refine List.any_eq_true.mpr ⟨e, hm, ?_⟩
  rw [admitted, beq_self_eq_true, Bool.true_and, Bool.true_and, decide_eq_true_eq]
  exact Nat.not_lt.mp inside

end Recorded

/-- **Where the history has room, there is room.** -/
theorem hasRoom_of_history {steps : List (Nat × Operation)} (hl : Recorded h l)
    (noReset : ∀ step ∈ steps, step.2 ≠ .reset) (room : h.HasRoom l steps) : l.HasRoom steps := by
  induction steps generalizing h l with
  | nil => trivial
  | cons step steps ih =>
    obtain ⟨now, op⟩ := step
    obtain ⟨judged, after⟩ := hl.perform (noReset _ List.mem_cons_self) now
    refine ⟨Nat.le_trans (judged.live_le_holders now) room.1, ?_⟩
    exact ih after (fun step hs => noReset step (List.mem_cons_of_mem _ hs)) room.2

end BoundSql.RateLimiter
