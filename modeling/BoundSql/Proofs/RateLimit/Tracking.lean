import Mathlib.Data.List.Nodup
import Mathlib.Data.List.TakeWhile
import BoundSql.RateLimit.Limiter

/-!
# What a limiter keeps of an identity

The lemmas on which statements about runs rest: what purging leaves of a window whose instants are
in order (`not_expired_of_mem_purge`), what a sweep leaves of each identity (`window?_sweepIdle`),
and when an eviction is a sweep and nothing else (`evict_eq_sweepIdle`): when no more identities are
*live*, holding an instant inside their own window, than may be tracked.
-/

namespace BoundSql

namespace RateWindow

variable {w : RateWindow} {now t : Nat}

/-- **In order, no instant that purging leaves is expired.** -/
theorem not_expired_of_mem_purge (ordered : w.instants.Pairwise (· ≤ ·))
    (h : t ∈ (w.purge now).instants) : w.expired now t = false := by
  unfold purge at h
  simp only at h
  revert h
  generalize w.instants = instants at ordered
  induction instants with
  | nil => exact fun h => absurd h List.not_mem_nil
  | cons first rest ih =>
    rw [List.pairwise_cons] at ordered
    intro h
    by_cases old : w.expired now first = true
    · rw [List.dropWhile_cons_of_pos old] at h
      exact ih ordered.2 h
    · rw [List.dropWhile_cons_of_neg old] at h
      have later : first ≤ t := by
        rcases List.mem_cons.mp h with rfl | h
        · exact Nat.le_refl _
        · exact ordered.1 t h
      simp only [expired, decide_eq_true_eq, decide_eq_false_iff_not] at old ⊢
      omega

/-- Purging takes expired instants from the front. -/
theorem exists_purge (w : RateWindow) (now : Nat) :
    ∃ old, w.instants = old ++ (w.purge now).instants ∧ ∀ t ∈ old, w.expired now t = true :=
  ⟨w.instants.takeWhile (w.expired now), List.takeWhile_append_dropWhile.symm,
    fun _ h => List.mem_takeWhile_imp h⟩

/-- Whether an instant stands inside the window. -/
def isLive (w : RateWindow) (now : Nat) : Bool := w.instants.any (!w.expired now ·)

/-- What purging leaves is nothing, or starts inside the window. -/
theorem isLive_of_purge (h : (w.purge now).isIdle = false) : w.isLive now = true := by
  unfold isIdle purge at h
  simp only at h
  unfold isLive
  generalize w.instants = instants at h ⊢
  induction instants with
  | nil => exact absurd h (by simp)
  | cons first rest ih =>
    by_cases old : w.expired now first = true
    · rw [List.dropWhile_cons_of_pos old] at h
      rw [List.any_cons, ih h, Bool.or_true]
    · rw [List.any_cons, Bool.eq_false_iff.mpr old]
      rfl

end RateWindow

namespace RateLimiter

/-- The window of an identity, a new one if it has none. -/
def windowOf (l : RateLimiter) (identity : String) : RateWindow := (l.window? identity).getD {}

/-- The tracked identities. -/
def keys (l : RateLimiter) : List String := l.windows.map (·.1)

/-- The number of identities that hold an instant inside their own window. -/
def live (l : RateLimiter) (now : Nat) : Nat := l.windows.countP (·.2.isLive now)

variable {l : RateLimiter} {x : String} {now : Nat}

/-! ## Storing -/

/-- The keys stay where they are; a new one comes last. -/
theorem keys_store (identity : String) (w : RateWindow) (ws : List (String × RateWindow)) :
    (store identity w ws).map (·.1) =
      if identity ∈ ws.map (·.1) then ws.map (·.1) else ws.map (·.1) ++ [identity] := by
  induction ws with
  | nil => rfl
  | cons e rest ih =>
    obtain ⟨k, v⟩ := e
    unfold store
    by_cases same : k = identity
    · subst same
      simp
    · rw [if_neg same, List.map_cons, ih, List.map_cons]
      by_cases hm : identity ∈ rest.map (·.1)
      · rw [if_pos hm, if_pos (List.mem_cons_of_mem k hm)]
      · have apart : identity ∉ k :: rest.map (·.1) := fun h =>
          (List.mem_cons.mp h).elim (fun e => same e.symm) hm
        rw [if_neg hm, if_neg apart, List.cons_append]

theorem nodup_keys_store {ws : List (String × RateWindow)} (h : (ws.map (·.1)).Nodup)
    (identity : String) (w : RateWindow) : ((store identity w ws).map (·.1)).Nodup := by
  rw [keys_store]
  split
  · exact h
  · rename_i apart
    exact List.nodup_append.mpr ⟨h, List.nodup_singleton _, fun a ha b hb e => by
      rw [List.mem_singleton.mp hb] at e
      exact apart (e ▸ ha)⟩

theorem windowOf_store_self (l : RateLimiter) (x : String) (w : RateWindow) :
    windowOf { l with windows := store x w l.windows } x = w := by
  rw [windowOf, window?, lookup_store_self]
  rfl

theorem windowOf_store_of_ne {other : String} (ne : x ≠ other) (l : RateLimiter) (w : RateWindow) :
    windowOf { l with windows := store other w l.windows } x = l.windowOf x := by
  rw [windowOf, window?, lookup_store_of_ne ne]
  rfl

/-! ## Sweeping -/

theorem nodup_keys_sweepIdle (h : l.keys.Nodup) (now : Nat) : (l.sweepIdle now).keys.Nodup := by
  have sub : (l.sweepIdle now).keys.Sublist l.keys := by
    have purged : (l.windows.map fun e => (e.1, e.2.purge now)).map (·.1) = l.keys := by
      rw [List.map_map]
      rfl
    rw [← purged]
    exact List.filter_sublist.map _
  exact sub.nodup h

/-- Among distinct keys a filter keeps what it finds or nothing. -/
theorem lookup_filter {ws : List (String × RateWindow)} (h : (ws.map (·.1)).Nodup)
    (p : RateWindow → Bool) (x : String) :
    (ws.filter fun e => p e.2).lookup x = (ws.lookup x).filter p := by
  induction ws with
  | nil => rfl
  | cons e rest ih =>
    obtain ⟨k, w⟩ := e
    rw [List.map_cons, List.nodup_cons] at h
    have ih := ih h.2
    by_cases same : x = k
    · subst same
      have absent : rest.lookup x = none := by
        rw [List.lookup_eq_none_iff]
        intro e he
        exact bne_iff_ne.mpr fun same => h.1 (List.mem_map.mpr ⟨e, he, same.symm⟩)
      rw [List.filter_cons, List.lookup_cons_self, Option.filter_some]
      by_cases hp : p w = true
      · rw [if_pos hp, if_pos hp, List.lookup_cons_self]
      · rw [if_neg hp, if_neg hp, ih, absent]
        rfl
    · have apart : (x == k) = false := beq_eq_false_iff_ne.mpr same
      rw [List.filter_cons, List.lookup_cons, apart]
      by_cases hp : p w = true
      · rw [if_pos hp, List.lookup_cons, apart]
        exact ih
      · rw [if_neg hp]
        exact ih

theorem lookup_map_purge (ws : List (String × RateWindow)) (now : Nat) (x : String) :
    (ws.map fun e => (e.1, e.2.purge now)).lookup x = (ws.lookup x).map (·.purge now) := by
  induction ws with
  | nil => rfl
  | cons e rest ih =>
    rw [List.map_cons, List.lookup_cons, List.lookup_cons, ih]
    cases x == e.1 <;> rfl

/-- **A sweep purges each window, and drops it if it is idle then.** -/
theorem window?_sweepIdle (h : l.keys.Nodup) (now : Nat) (x : String) :
    (l.sweepIdle now).window? x = ((l.window? x).map (·.purge now)).filter (!·.isIdle) := by
  have nodup : ((l.windows.map fun e => (e.1, e.2.purge now)).map (·.1)).Nodup := by
    rw [List.map_map]
    exact h
  rw [window?, sweepIdle, lookup_filter nodup (fun w => !w.isIdle), lookup_map_purge]
  rfl

theorem instants_windowOf_sweepIdle (h : l.keys.Nodup) (now : Nat) (x : String) :
    ((l.sweepIdle now).windowOf x).instants = ((l.windowOf x).purge now).instants := by
  rw [windowOf, window?_sweepIdle h, windowOf]
  cases hw : l.window? x with
  | none => rfl
  | some w =>
    rw [Option.map_some, Option.filter_some, Option.getD_some]
    cases idle : (w.purge now).isIdle with
    | false => rfl
    | true => exact (List.isEmpty_iff.mp idle).symm

/-! ## Evicting -/

theorem tracked_sweepIdle_le_live (l : RateLimiter) (now : Nat) :
    (l.sweepIdle now).tracked ≤ l.live now := by
  rw [tracked, sweepIdle, live, ← List.countP_eq_length_filter, List.countP_map]
  refine List.countP_mono_left fun e _ kept => ?_
  exact RateWindow.isLive_of_purge (by simpa using kept)

/-- **Where no more identities are live than may be tracked, an eviction only sweeps.** -/
theorem evict_eq_sweepIdle (h : l.live now ≤ l.config.maxTrackedIdentities) :
    l.evict now = l.sweepIdle now := by
  have few := Nat.le_trans (tracked_sweepIdle_le_live l now) h
  have none_left : (l.sweepIdle now).tracked - (l.sweepIdle now).config.maxTrackedIdentities = 0 :=
    Nat.sub_eq_zero_of_le few
  rw [evict, dropOldest, none_left, List.take_zero]
  simp

end RateLimiter

end BoundSql
