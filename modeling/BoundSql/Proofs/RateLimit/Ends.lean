import BoundSql.Proofs.RateLimit.SlidingWindow

/-!
# What is kept is an end of the history

Instants leave a window from the front, and windows leave a limiter whole. So whatever a limiter
keeps of an identity is an end of the list of its admitted instants (`KeepsEnds`), in any run
(`keepsEnds_run`). Where time never stands still the admitted instants of an identity are in order
(`admissions_sublist`), and no two identities share one (`eq_of_mem_admissions`).
-/

namespace BoundSql.RateLimiter

/-- Of each identity an end of its admitted instants is kept. -/
structure KeepsEnds (admitted : String → List Nat) (l : RateLimiter) : Prop where
  nodup : l.keys.Nodup
  ends : ∀ e ∈ l.windows, e.2.instants <:+ admitted e.1

variable {admitted : String → List Nat} {l : RateLimiter} {x y : String} {now t : Nat}
  {op : Operation} {c : Call} {w : RateWindow}

/-! ## Windows by identity -/

/-- Among distinct identities the windows are found by lookup. -/
theorem window?_eq_some_iff (nodup : l.keys.Nodup) : l.window? x = some w ↔ (x, w) ∈ l.windows := by
  rw [window?, List.lookup_eq_some_iff]
  constructor
  · rintro ⟨before, after, split, -⟩
    rw [split]
    exact List.mem_append_right _ List.mem_cons_self
  · intro h
    obtain ⟨before, after, split⟩ := List.append_of_mem h
    refine ⟨before, after, split, fun e he => bne_iff_ne.mpr fun same => ?_⟩
    rw [keys, split, List.map_append, List.map_cons, List.nodup_append] at nodup
    exact nodup.2.2 e.1 (List.mem_map_of_mem he) x List.mem_cons_self same.symm

theorem mem_keys_iff (nodup : l.keys.Nodup) : x ∈ l.keys ↔ ∃ w, l.window? x = some w := by
  simp only [window?_eq_some_iff nodup, keys, List.mem_map, Prod.exists, exists_and_right,
    exists_eq_right]

theorem window?_eq_none_iff (nodup : l.keys.Nodup) : l.window? x = none ↔ x ∉ l.keys := by
  rw [mem_keys_iff nodup, not_exists, Option.eq_none_iff_forall_ne_some]

theorem KeepsEnds.of_window? (h : KeepsEnds admitted l) (hw : l.window? x = some w) :
    w.instants <:+ admitted x :=
  h.ends (x, w) ((window?_eq_some_iff h.nodup).mp hw)

theorem KeepsEnds.windowOf (h : KeepsEnds admitted l) (x : String) :
    (l.windowOf x).instants <:+ admitted x := by
  unfold RateLimiter.windowOf
  cases hw : l.window? x with
  | none => exact List.nil_suffix
  | some w => exact h.of_window? hw

/-! ## Steps -/

theorem keepsEnds_new (config : RateLimitConfig) (perSecond : Nat) (admitted : String → List Nat) :
    KeepsEnds admitted (new config perSecond) where
  nodup := List.nodup_nil
  ends _ he := absurd he List.not_mem_nil

theorem instants_purge_suffix (w : RateWindow) (now : Nat) :
    (w.purge now).instants <:+ w.instants := List.dropWhile_suffix _

/-- What a call leaves is an end of the instants with its own, if it is admitted. -/
theorem instants_after_suffix {instants : List Nat} (h : w.instants <:+ instants)
    (now span limit : Nat) :
    (w.after now span limit).instants <:+
      instants ++ if w.admits now span limit then [now] else [] := by
  have opened : (w.opened now span).instants <:+ instants :=
    (instants_purge_suffix { w with span } now).trans h
  rw [RateWindow.after]
  split
  · exact List.suffix_append_self_iff.mpr opened
  · rwa [List.append_nil]

namespace KeepsEnds

theorem sweep (h : KeepsEnds admitted l) (now : Nat) : KeepsEnds admitted (l.sweepIdle now) where
  nodup := nodup_keys_sweepIdle h.nodup now
  ends e he := by
    obtain ⟨e', he', rfl⟩ := List.mem_map.mp (List.mem_of_mem_filter he)
    exact (instants_purge_suffix e'.2 now).trans (h.ends e' he')

theorem evict (h : KeepsEnds admitted l) (now : Nat) : KeepsEnds admitted (l.evict now) where
  nodup := (List.filter_sublist.map _).nodup (h.sweep now).nodup
  ends e he := (h.sweep now).ends e (List.mem_of_mem_filter he)

end KeepsEnds

/-- The instant of a call, for its identity and if it is admitted. -/
theorem admittedAt_of_call (call : op.call? l.config = some c) (x : String) :
    admittedAt x l now op =
      if c.identity = x ∧ (l.windowOf c.identity).admits now (l.ticks c.windowSeconds) c.limit
      then [now] else [] := by
  rw [admittedAt, limitOf?_of_call call, admits_perform_of_call call]
  by_cases same : c.identity = x
  · simp [same]
  · simp [same]

theorem admittedAt_of_no_call (call : op.call? l.config = none) (x : String) :
    admittedAt x l now op = [] := by
  refine admittedAt_of_none ?_
  rw [Operation.limitOf?, call]
  rfl

/-- A call stores an end of the instants of its identity, and leaves the others alone. -/
theorem KeepsEnds.stored (h : KeepsEnds admitted l) (call : op.call? l.config = some c) :
    KeepsEnds (fun x => admitted x ++ admittedAt x l now op) (l.stored now c) where
  nodup := nodup_keys_store h.nodup c.identity _
  ends e he := by
    rcases Recorded.mem_store h.nodup he with rfl | ⟨he, ne⟩
    · simp only [admittedAt_of_call call, true_and]
      exact instants_after_suffix (h.windowOf c.identity) _ _ _
    · rw [admittedAt_of_call call, if_neg fun same => ne same.1.symm, List.append_nil]
      exact h.ends e he

/-- **A step keeps ends**, whatever it is and whenever. -/
theorem keepsEnds_perform (h : KeepsEnds admitted l) (now : Nat) (op : Operation) :
    KeepsEnds (fun x => admitted x ++ admittedAt x l now op) (l.perform now op).limiter := by
  cases call : op.call? l.config with
  | some c =>
    rw [limiter_perform_of_call call]
    rcases limiter_request l now c with e | e
    · rw [e]
      exact h.stored call
    · rw [e]
      exact (h.stored call).evict now
  | none =>
    simp only [admittedAt_of_no_call call, List.append_nil]
    cases op with
    | sweep => exact h.sweep now
    | reset => exact ⟨List.nodup_nil, fun _ he => absurd he List.not_mem_nil⟩
    | showConfig => exact h
    | _ => cases call

/-! ## Runs -/

/-- **A run keeps ends.** -/
theorem keepsEnds_run (h : KeepsEnds admitted l) (steps : List (Nat × Operation)) :
    KeepsEnds (fun x => admitted x ++ admissions x l steps) (l.run steps) := by
  induction steps generalizing admitted l with
  | nil =>
    simp only [admissions, List.append_nil]
    exact h
  | cons step steps ih =>
    obtain ⟨now, op⟩ := step
    have := ih (keepsEnds_perform h now op)
    simp only [List.append_assoc] at this
    exact this

theorem admissions_append (x : String) (l : RateLimiter) (before after : List (Nat × Operation)) :
    admissions x l (before ++ after) =
      admissions x l before ++ admissions x (l.run before) after := by
  induction before generalizing l with
  | nil => rfl
  | cons step before ih =>
    obtain ⟨now, op⟩ := step
    rw [List.cons_append, admissions, admissions, ih, run_cons, List.append_assoc]

theorem admittedAt_sublist (x : String) (l : RateLimiter) (now : Nat) (op : Operation) :
    (admittedAt x l now op).Sublist [now] := by
  unfold admittedAt
  split
  · exact List.Sublist.refl _
  · exact List.nil_sublist _

/-- The admitted instants are instants of the run, in its order. -/
theorem admissions_sublist (x : String) (l : RateLimiter) (steps : List (Nat × Operation)) :
    (admissions x l steps).Sublist (steps.map (·.1)) := by
  induction steps generalizing l with
  | nil => exact List.nil_sublist _
  | cons step steps ih => exact (admittedAt_sublist x l step.1 step.2).append (ih _)

/-- A step is a call of one identity at most. -/
theorem eq_of_mem_admittedAt (hx : t ∈ admittedAt x l now op) (hy : t ∈ admittedAt y l now op) :
    x = y := by
  cases call : op.call? l.config with
  | none =>
    rw [admittedAt_of_no_call call] at hx
    exact absurd hx List.not_mem_nil
  | some c =>
    rw [admittedAt_of_call call] at hx hy
    split at hx
    · rename_i mine
      split at hy
      · rename_i yours
        exact mine.1.symm.trans yours.1
      · exact absurd hy List.not_mem_nil
    · exact absurd hx List.not_mem_nil

/-- **Where time never stands still, no instant is one of two identities.** -/
theorem eq_of_mem_admissions {steps : List (Nat × Operation)}
    (increasing : steps.Pairwise fun a b => a.1 < b.1) (hx : t ∈ admissions x l steps)
    (hy : t ∈ admissions y l steps) : x = y := by
  induction steps generalizing l with
  | nil => exact absurd hx List.not_mem_nil
  | cons step steps ih =>
    obtain ⟨now, op⟩ := step
    rw [List.pairwise_cons] at increasing
    -- The instant of the first step is in no admission of a later one.
    have first : ∀ z, t ∈ admittedAt z l now op → t = now := fun z hz =>
      List.mem_singleton.mp ((admittedAt_sublist z l now op).subset hz)
    have later : ∀ z, t ∈ admissions z (l.perform now op).limiter steps → now < t := by
      intro z hz
      obtain ⟨s, hs, rfl⟩ := List.mem_map.mp ((admissions_sublist z _ steps).subset hz)
      exact increasing.1 s hs
    rw [admissions, List.mem_append] at hx hy
    rcases hx with hx | hx <;> rcases hy with hy | hy
    · exact eq_of_mem_admittedAt hx hy
    · have := later y hy
      have := first x hx
      omega
    · have := later x hx
      have := first y hy
      omega
    · exact ih increasing.2 hx hy

end BoundSql.RateLimiter
