import BoundSql.Proofs.RateLimit.Ends

/-!
# Who is left after an eviction

An eviction takes the identities without a live instant first, each judged by the length of its own
window, and then the least recently admitted ones, until no more are left than may be tracked. What
is left of an identity is its own window without the expired instants. `Evicted` says this of two
limiters; it holds of every eviction of a limiter whose windows are in order and share no instant
(`evicted_evict`), as all windows do in a run in which time never stands still.

Headline: **`eviction_keeps_latest`**.
-/

namespace BoundSql

/-! ## Expired instants -/

namespace RateWindow

/-- The window without its expired instants, wherever they stand. -/
def unexpired (w : RateWindow) (now : Nat) : RateWindow :=
  { w with instants := w.instants.filter (!w.expired now ·) }

/-- The window was last admitted before another one was. -/
def LastBefore (v w : RateWindow) : Prop :=
  ∃ s ∈ v.instants.getLast?, ∃ t ∈ w.instants.getLast?, s < t

variable {v w : RateWindow} {now s t : Nat}

/-- **In order, purging leaves exactly what has not expired.** -/
theorem purge_eq_unexpired (ordered : w.instants.Pairwise (· ≤ ·)) (now : Nat) :
    w.purge now = w.unexpired now := by
  obtain ⟨old, split, expired⟩ := w.exists_purge now
  have gone : old.filter (!w.expired now ·) = [] :=
    List.filter_eq_nil_iff.mpr fun t ht => by simp [expired t ht]
  have left : (w.purge now).instants.filter (!w.expired now ·) = (w.purge now).instants :=
    List.filter_eq_self.mpr fun t ht => by simp [not_expired_of_mem_purge ordered ht]
  have same : w.instants.filter (!w.expired now ·) = (w.purge now).instants := by
    rw [split, List.filter_append, gone, left, List.nil_append]
  rw [unexpired, same]
  rfl

theorem isIdle_unexpired (w : RateWindow) (now : Nat) :
    (w.unexpired now).isIdle = !w.isLive now := by
  rw [isIdle, isLive, unexpired]
  generalize w.instants = instants
  induction instants with
  | nil => rfl
  | cons t instants ih =>
    rw [List.filter_cons, List.any_cons]
    cases w.expired now t with
    | false => rfl
    | true => exact ih

theorem getLast?_unexpired (ordered : w.instants.Pairwise (· ≤ ·)) (live : w.isLive now = true) :
    (w.unexpired now).instants.getLast? = w.instants.getLast? := by
  obtain ⟨old, split, -⟩ := w.exists_purge now
  have nonempty : (w.purge now).instants ≠ [] := by
    intro empty
    have idle := isIdle_unexpired w now
    rw [← purge_eq_unexpired ordered, live, isIdle, empty] at idle
    exact absurd idle (by decide)
  rw [← purge_eq_unexpired ordered]
  conv_rhs => rw [split]
  rw [List.getLast?_append_of_ne_nil _ nonempty]

theorem recency_eq_of_mem (h : t ∈ w.instants.getLast?) : w.recency = t + 1 := by
  rw [recency, h]

theorem isLive_of_mem (h : t ∈ w.instants) (inside : w.expired now t = false) :
    w.isLive now = true :=
  List.any_eq_true.mpr ⟨t, h, by simp [inside]⟩

theorem exists_getLast?_of_isLive (h : w.isLive now = true) : ∃ t, t ∈ w.instants.getLast? := by
  obtain ⟨t, ht, -⟩ := List.any_eq_true.mp h
  exact ⟨_, List.getLast?_eq_some_getLast (List.ne_nil_of_mem ht)⟩

end RateWindow

namespace RateLimiter

/-! ## The least recently admitted -/

/-- The windows from the least to the most recently admitted one. -/
def ranked (l : RateLimiter) : List (String × RateWindow) :=
  l.windows.mergeSort fun a b => decide (a.2.recency ≤ b.2.recency)

variable {l : RateLimiter} {x y : String} {now : Nat} {v w : RateWindow}

theorem ranked_perm (l : RateLimiter) : l.ranked.Perm l.windows := List.mergeSort_perm _ _

theorem ranked_ordered (l : RateLimiter) :
    l.ranked.Pairwise fun a b => a.2.recency ≤ b.2.recency := by
  have sorted : l.ranked.Pairwise fun a b => decide (a.2.recency ≤ b.2.recency) = true :=
    List.pairwise_mergeSort
      (fun a b c hab hbc => by simp only [decide_eq_true_eq] at *; omega)
      (fun a b => by simp only [Bool.or_eq_true, decide_eq_true_eq]; omega) l.windows
  simpa only [decide_eq_true_eq] using sorted

/-- **The least recently admitted windows are dropped**, as many as are too many. -/
theorem dropOldest_perm (nodup : l.keys.Nodup) :
    l.dropOldest.windows.Perm (l.ranked.drop (l.tracked - l.config.maxTrackedIdentities)) := by
  let n := l.tracked - l.config.maxTrackedIdentities
  let stays : String × RateWindow → Bool := fun e => !((l.ranked.take n).map (·.1)).contains e.1
  have dropped : l.dropOldest.windows = l.windows.filter stays := by
    simp only [dropOldest, byRecency, stays, n, ranked, List.map_take]
  have split := List.take_append_drop n l.ranked
  have distinct : ((l.ranked.take n ++ l.ranked.drop n).map (·.1)).Nodup := by
    rw [split]
    exact (l.ranked_perm.map _).nodup_iff.mpr nodup
  rw [List.map_append, List.nodup_append] at distinct
  have first : (l.ranked.take n).filter stays = [] :=
    List.filter_eq_nil_iff.mpr fun e he => by
      simp only [stays, Bool.not_eq_true', Bool.not_eq_false, List.contains_iff_mem]
      exact List.mem_map_of_mem he
  have rest : (l.ranked.drop n).filter stays = l.ranked.drop n :=
    List.filter_eq_self.mpr fun e he => by
      simp only [stays, Bool.not_eq_true', Bool.eq_false_iff, ne_eq, List.contains_iff_mem]
      exact fun h => distinct.2.2 e.1 h e.1 (List.mem_map_of_mem he) rfl
  calc l.dropOldest.windows = l.windows.filter stays := dropped
    List.Perm _ (l.ranked.filter stays) := (l.ranked_perm.filter stays).symm
    _ = l.ranked.drop n := by rw [← split, List.filter_append, first, rest, List.nil_append, split]

theorem tracked_dropOldest (nodup : l.keys.Nodup) :
    l.dropOldest.tracked = min l.tracked l.config.maxTrackedIdentities := by
  have count := (dropOldest_perm nodup).length_eq
  rw [List.length_drop, l.ranked_perm.length_eq] at count
  have : l.windows.length = l.tracked := rfl
  rw [tracked]
  omega

/-- Whoever is dropped was not admitted after anyone who is left. -/
theorem recency_le_of_dropped (nodup : l.keys.Nodup) (hx : (x, v) ∈ l.windows)
    (dropped : (x, v) ∉ l.dropOldest.windows) (hy : (y, w) ∈ l.dropOldest.windows) :
    v.recency ≤ w.recency := by
  have perm := dropOldest_perm nodup
  have ordered := l.ranked_ordered
  rw [← List.take_append_drop (l.tracked - l.config.maxTrackedIdentities) l.ranked,
    List.pairwise_append] at ordered
  refine ordered.2.2 (x, v) ?_ (y, w) (perm.mem_iff.mp hy)
  have ranked := l.ranked_perm.mem_iff.mpr hx
  rw [← List.take_append_drop (l.tracked - l.config.maxTrackedIdentities) l.ranked,
    List.mem_append] at ranked
  exact ranked.resolve_right fun h => dropped (perm.mem_iff.mpr h)

/-! ## Evictions -/

/-- What an eviction makes of a limiter. -/
structure Evicted (now : Nat) (l l' : RateLimiter) : Prop where
  /-- Only live identities are left, with their unexpired instants and their own length. -/
  own : ∀ x w, l'.window? x = some w →
    ∃ v, l.window? x = some v ∧ v.isLive now = true ∧ w = v.unexpired now
  /-- As many are left as may be tracked, if so many are live. -/
  count : l'.tracked = min (l.live now) l.config.maxTrackedIdentities
  /-- All live ones are left if they are few enough. -/
  all : l.live now ≤ l.config.maxTrackedIdentities →
    ∀ x v, l.window? x = some v → v.isLive now = true → x ∈ l'.keys
  /-- A live one that had to go was admitted last before any one that is left. -/
  latest : ∀ x v, l.window? x = some v → v.isLive now = true → x ∉ l'.keys →
    ∀ y w, l'.window? y = some w → v.LastBefore w

/-- The instants of each window are in order. -/
def Ordered (l : RateLimiter) : Prop := ∀ e ∈ l.windows, e.2.instants.Pairwise (· ≤ ·)

/-- No instant stands in the windows of two identities. -/
def Apart (l : RateLimiter) : Prop :=
  ∀ e ∈ l.windows, ∀ e' ∈ l.windows, ∀ t ∈ e.2.instants, t ∈ e'.2.instants → e.1 = e'.1

theorem window?_sweepIdle_eq_some_iff (nodup : l.keys.Nodup) (ordered : l.Ordered) :
    (l.sweepIdle now).window? x = some w ↔
      ∃ v, l.window? x = some v ∧ v.isLive now = true ∧ w = v.unexpired now := by
  rw [window?_sweepIdle nodup]
  cases hv : l.window? x with
  | none => simp
  | some v =>
    have order := ordered (x, v) ((window?_eq_some_iff nodup).mp hv)
    simp only [Option.map_some, RateWindow.purge_eq_unexpired order, Option.filter_some,
      RateWindow.isIdle_unexpired, Bool.not_not, Option.some.injEq, exists_eq_left']
    cases v.isLive now with
    | false => simp
    | true => simp [eq_comm]

theorem tracked_sweepIdle (ordered : l.Ordered) (now : Nat) :
    (l.sweepIdle now).tracked = l.live now := by
  rw [tracked, sweepIdle, live, ← List.countP_eq_length_filter, List.countP_map]
  refine List.countP_congr fun e he => ?_
  have same : (!(e.2.purge now).isIdle) = e.2.isLive now := by
    rw [RateWindow.purge_eq_unexpired (ordered e he), RateWindow.isIdle_unexpired, Bool.not_not]
  simp only [Function.comp_apply, same]

theorem mem_windows_of_mem_dropOldest (h : l.dropOldest.window? x = some w)
    (nodup : l.keys.Nodup) : l.window? x = some w := by
  have dropped : l.dropOldest.keys.Nodup := (List.filter_sublist.map _).nodup nodup
  rw [window?_eq_some_iff dropped] at h
  exact (window?_eq_some_iff nodup).mpr (List.mem_of_mem_filter h)

/-- **Evictions take the idle and then the least recently admitted.** -/
theorem evicted_evict (nodup : l.keys.Nodup) (ordered : l.Ordered) (apart : l.Apart) (now : Nat) :
    Evicted now l (l.evict now) := by
  have swept : (l.sweepIdle now).keys.Nodup := nodup_keys_sweepIdle nodup now
  have left : (l.evict now).keys.Nodup := (List.filter_sublist.map _).nodup swept
  have found : ∀ x w, (l.evict now).window? x = some w → (l.sweepIdle now).window? x = some w :=
    fun x w h => mem_windows_of_mem_dropOldest h swept
  refine ⟨fun x w h => ?_, ?_, fun few x v hv live => ?_, fun x v hv live gone y w hw => ?_⟩
  · exact (window?_sweepIdle_eq_some_iff nodup ordered).mp (found x w h)
  · rw [evict, tracked_dropOldest swept, tracked_sweepIdle ordered]
    rfl
  · rw [evict_eq_sweepIdle few, mem_keys_iff swept]
    exact ⟨_, (window?_sweepIdle_eq_some_iff nodup ordered).mpr ⟨v, hv, live, rfl⟩⟩
  · have mine := (window?_eq_some_iff nodup).mp hv
    have hx := (window?_sweepIdle_eq_some_iff nodup ordered).mpr ⟨v, hv, live, rfl⟩
    obtain ⟨u, hu, liveU, rfl⟩ :=
      (window?_sweepIdle_eq_some_iff nodup ordered).mp (found y w hw)
    have yours := (window?_eq_some_iff nodup).mp hu
    obtain ⟨s, hs⟩ := RateWindow.exists_getLast?_of_isLive live
    obtain ⟨t, ht⟩ := RateWindow.exists_getLast?_of_isLive liveU
    have last := RateWindow.getLast?_unexpired (ordered _ mine) live
    have lastU := RateWindow.getLast?_unexpired (ordered _ yours) liveU
    have le : (v.unexpired now).recency ≤ (u.unexpired now).recency :=
      recency_le_of_dropped swept ((window?_eq_some_iff swept).mp hx)
        (fun h => gone (List.mem_map_of_mem h)) ((window?_eq_some_iff left).mp hw)
    rw [RateWindow.recency_eq_of_mem (last ▸ hs), RateWindow.recency_eq_of_mem (lastU ▸ ht)] at le
    refine ⟨s, hs, t, lastU ▸ ht, Nat.lt_of_le_of_ne (by omega) fun same => ?_⟩
    -- A shared last instant would make the two identities one.
    have one := apart _ mine _ yours s (List.mem_of_getLast? hs)
      (same ▸ List.mem_of_getLast? ht)
    have hy := (mem_keys_iff left).mpr ⟨_, hw⟩
    exact gone ((show x = y from one) ▸ hy)

/-! ## Runs -/

variable {admitted : String → List Nat} {op : Operation} {c : Call} {s t : Nat}

theorem KeepsEnds.ordered (h : KeepsEnds admitted l)
    (increasing : ∀ x, (admitted x).Pairwise (· < ·)) : l.Ordered := fun e he =>
  ((increasing e.1).imp Nat.le_of_lt).sublist (h.ends e he).sublist

theorem KeepsEnds.apart (h : KeepsEnds admitted l)
    (distinct : ∀ x y t, t ∈ admitted x → t ∈ admitted y → x = y) : l.Apart :=
  fun e he e' he' t ht ht' => distinct _ _ t ((h.ends e he).subset ht) ((h.ends e' he').subset ht')

/-- The last instant kept is the last one admitted. -/
theorem le_of_suffix {instants history : List Nat} (suffix : instants <:+ history)
    (increasing : history.Pairwise (· < ·)) (last : s ∈ instants.getLast?) (h : t ∈ history) :
    t ≤ s := by
  obtain ⟨front, rfl⟩ := suffix
  obtain ⟨init, rfl⟩ := List.getLast?_eq_some_iff.mp last
  rw [← List.append_assoc] at h increasing
  rcases List.mem_append.mp h with h | h
  · exact Nat.le_of_lt ((List.pairwise_append.mp increasing).2.2 t h s List.mem_cons_self)
  · exact Nat.le_of_eq (List.mem_singleton.mp h)

/-- The limiter evicts exactly where a new identity makes them too many. -/
theorem limiter_request_eq (l : RateLimiter) (now : Nat) (c : Call) :
    (l.request c.identity c.limit c.windowSeconds now).limiter =
      if l.window? c.identity = none ∧
          l.config.maxTrackedIdentities < (l.stored now c).tracked
      then (l.stored now c).evict now else l.stored now c := by
  have evicts : ((l.window? c.identity).isNone &&
      decide (l.config.maxTrackedIdentities < (l.stored now c).tracked)) = true ↔
        l.window? c.identity = none ∧
          l.config.maxTrackedIdentities < (l.stored now c).tracked := by
    rw [Bool.and_eq_true, Option.isNone_iff_eq_none, decide_eq_true_eq]
  exact if_congr evicts rfl rfl

theorem window?_stored_of_ne (ne : x ≠ c.identity) (l : RateLimiter) (now : Nat) :
    (l.stored now c).window? x = l.window? x := lookup_store_of_ne ne _ _

/-- An admitted call leaves its instant last. -/
theorem exists_window?_stored (l : RateLimiter) (now : Nat) (c : Call)
    (admits : (l.windowOf c.identity).admits now (l.ticks c.windowSeconds) c.limit = true) :
    ∃ w, (l.stored now c).window? c.identity = some w ∧ now ∈ w.instants.getLast? ∧
      w.isLive now = true := by
  refine ⟨_, lookup_store_self _ _ _, ?_, ?_⟩
  · rw [RateWindow.after, if_pos admits]
    exact List.getLast?_concat
  · refine RateWindow.isLive_of_mem (RateWindow.mem_after_of_admits admits) ?_
    simp [RateWindow.expired]

/-- A call forgets nobody before it evicts. -/
theorem mem_keys_stored (nodup : l.keys.Nodup) (hv : l.window? x = some v) (now : Nat) (c : Call) :
    x ∈ (l.stored now c).keys := by
  have distinct : (l.stored now c).keys.Nodup := nodup_keys_store nodup c.identity _
  refine (mem_keys_iff distinct).mpr ?_
  by_cases same : x = c.identity
  · rw [same]
    exact ⟨_, lookup_store_self _ _ _⟩
  · exact ⟨v, (window?_stored_of_ne same l now).trans hv⟩

/-- Nothing but a call or a reset takes a live identity away. -/
theorem mem_keys_perform_of_no_call (nodup : l.keys.Nodup) (ordered : l.Ordered)
    (call : op.call? l.config = none) (noReset : op ≠ .reset) (hv : l.window? x = some v)
    (live : v.isLive now = true) : x ∈ (l.perform now op).limiter.keys := by
  cases op with
  | sweep =>
    rw [perform, mem_keys_iff (nodup_keys_sweepIdle nodup now)]
    exact ⟨_, (window?_sweepIdle_eq_some_iff nodup ordered).mpr ⟨v, hv, live, rfl⟩⟩
  | reset => exact absurd rfl noReset
  | showConfig => exact (mem_keys_iff nodup).mpr ⟨v, hv⟩
  | _ => cases call

/-- The admitted instants of each identity in a run, the last step included. -/
theorem admissions_concat (x : String) (l : RateLimiter) (before : List (Nat × Operation))
    (now : Nat) (op : Operation) :
    admissions x l (before ++ [(now, op)]) =
      admissions x l before ++ admittedAt x (l.run before) now op := by
  rw [admissions_append, admissions, admissions, List.append_nil]

/-- If a live identity is gone, as many are left as may be tracked. -/
theorem Evicted.tracked_of_gone {l' : RateLimiter} (h : Evicted now l l')
    (hv : l.window? x = some v) (live : v.isLive now = true) (gone : x ∉ l'.keys) :
    l'.tracked = l.config.maxTrackedIdentities := by
  have many : l.config.maxTrackedIdentities < l.live now := by
    by_contra few
    exact gone (h.all (by omega) x v hv live)
  rw [h.count, Nat.min_eq_right (Nat.le_of_lt many)]

/-- **A live identity loses its history to later ones only**: as many as may be tracked, each of
which was admitted after its own last admission. -/
theorem Evicted.exists_others {l' : RateLimiter} (h : Evicted now l l')
    (ends : KeepsEnds admitted l) (left : KeepsEnds admitted l')
    (increasing : ∀ x, (admitted x).Pairwise (· < ·)) (hv : l.window? x = some v)
    (live : v.isLive now = true) (gone : x ∉ l'.keys) :
    ∃ others : List String, others.Nodup ∧ others.length = l.config.maxTrackedIdentities ∧
      x ∉ others ∧ ∀ y ∈ others, ∃ t ∈ admitted y, ∀ s ∈ admitted x, s < t := by
  refine ⟨l'.keys, left.nodup, ?_, gone, fun y hy => ?_⟩
  · rw [keys, List.length_map]
    exact h.tracked_of_gone hv live gone
  · obtain ⟨w, hw⟩ := (mem_keys_iff left.nodup).mp hy
    obtain ⟨s, hs, t, ht, lt⟩ := h.latest x v hv live gone y w hw
    refine ⟨t, (left.of_window? hw).subset (List.mem_of_getLast? ht), fun u hu => ?_⟩
    exact Nat.lt_of_le_of_lt (le_of_suffix (ends.of_window? hv) (increasing x) hs hu) lt

/-- Whoever was admitted last of all is left. -/
theorem Evicted.mem_keys_of_last {l' : RateLimiter} (h : Evicted now l l')
    (left : KeepsEnds admitted l') (some_room : 1 ≤ l.config.maxTrackedIdentities)
    (past : ∀ y, ∀ t ∈ admitted y, t ≤ now) (hv : l.window? x = some v)
    (live : v.isLive now = true) (last : now ∈ v.instants.getLast?) : x ∈ l'.keys := by
  by_contra gone
  have count : l'.windows.length = l.config.maxTrackedIdentities := h.tracked_of_gone hv live gone
  obtain ⟨e, he⟩ := List.exists_mem_of_length_pos (show 0 < l'.windows.length by omega)
  have hw := (window?_eq_some_iff left.nodup).mpr he
  obtain ⟨s, hs, t, ht, lt⟩ := h.latest x v hv live gone e.1 e.2 hw
  have := past e.1 t ((left.ends e he).subset (List.mem_of_getLast? ht))
  rw [last, Option.mem_some_iff] at hs
  omega

/-! ## The last step of a run -/

/-- A call of a new identity that makes them too many evicts. -/
theorem evicted_of_call (ends : KeepsEnds admitted (l.stored now c))
    (increasing : ∀ x, (admitted x).Pairwise (· < ·))
    (distinct : ∀ x y t, t ∈ admitted x → t ∈ admitted y → x = y)
    (call : op.call? l.config = some c) (new : l.window? c.identity = none)
    (many : l.config.maxTrackedIdentities < (l.stored now c).tracked) :
    Evicted now (l.stored now c) (l.perform now op).limiter := by
  rw [limiter_perform_of_call call, limiter_request_eq, if_pos ⟨new, many⟩]
  exact evicted_evict ends.nodup (ends.ordered increasing) (ends.apart distinct) now

/-- Any other call evicts nobody. -/
theorem limiter_eq_stored (call : op.call? l.config = some c)
    (within : l.window? c.identity ≠ none ∨
      (l.stored now c).tracked ≤ l.config.maxTrackedIdentities) :
    (l.perform now op).limiter = l.stored now c := by
  rw [limiter_perform_of_call call, limiter_request_eq, if_neg]
  rintro ⟨new, many⟩
  exact within.elim (fun old => old new) (fun few => by omega)

/-- In time that never stands still the admitted instants of each identity are in order. -/
theorem admissions_increasing {steps : List (Nat × Operation)}
    (increasing : steps.Pairwise fun a b => a.1 < b.1) (x : String) (l : RateLimiter) :
    (admissions x l steps).Pairwise (· < ·) :=
  (List.pairwise_map.mpr increasing).sublist (admissions_sublist x l steps)

/-- Nobody is admitted after the last step. -/
theorem le_of_mem_admissions {before : List (Nat × Operation)}
    (increasing : (before ++ [(now, op)]).Pairwise fun a b => a.1 < b.1)
    (h : t ∈ admissions x l (before ++ [(now, op)])) : t ≤ now := by
  obtain ⟨step, hs, rfl⟩ := List.mem_map.mp ((admissions_sublist x l _).subset h)
  rcases List.mem_append.mp hs with hs | hs
  · exact Nat.le_of_lt ((List.pairwise_append.mp increasing).2.2 step hs _ List.mem_cons_self)
  · rw [List.mem_singleton.mp hs]

/-- **Evictions keep the latest.** Let time never stand still in a run that starts from a limiter
that tracks nobody and is never reset. A call of a new identity that makes them too many evicts: of
the live identities all are left, or those last admitted latest, as many as may be tracked; each has
its own length and its unexpired instants; and the caller is left if it was admitted. Any other call
leaves the windows of all other identities as they are. So a live identity loses its history only to
as many others as may be tracked, each of which was admitted after its own last admission. -/
theorem eviction_keeps_latest (config : RateLimitConfig) (perSecond : Nat)
    (some_room : 1 ≤ config.maxTrackedIdentities) (before : List (Nat × Operation)) (now : Nat)
    (op : Operation)
    (increasing : (before ++ [(now, op)]).Pairwise fun a b => a.1 < b.1)
    (noReset : ∀ step ∈ before ++ [(now, op)], step.2 ≠ .reset) :
    let start := new config perSecond
    let l := start.run before
    let p := l.perform now op
    (∀ c, op.call? config = some c →
      (l.window? c.identity = none → config.maxTrackedIdentities < (l.stored now c).tracked →
        Evicted now (l.stored now c) p.limiter ∧
          (p.answer.admits = true → c.identity ∈ p.limiter.keys)) ∧
      (l.window? c.identity ≠ none ∨ (l.stored now c).tracked ≤ config.maxTrackedIdentities →
        ∀ x, x ≠ c.identity → p.limiter.window? x = l.window? x)) ∧
    ∀ x v, l.window? x = some v → v.isLive now = true → x ∉ p.limiter.keys →
      ∃ others : List String, others.Nodup ∧ others.length = config.maxTrackedIdentities ∧
        x ∉ others ∧ ∀ y ∈ others,
          ∃ t ∈ admissions y start (before ++ [(now, op)]),
            ∀ s ∈ admissions x start (before ++ [(now, op)]), s < t := by
  intro start l p
  have config_l : l.config = config := config_run _ _
  -- Before the last step and after it, an end of the admitted instants is kept.
  let admitted x := admissions x start (before ++ [(now, op)])
  have sofar : KeepsEnds (fun x => admissions x start before) l := by
    simpa using keepsEnds_run (keepsEnds_new config perSecond fun _ => []) before
  have split : admitted =
      fun x => admissions x start before ++ admittedAt x l now op :=
    funext fun x => admissions_concat x _ _ _ _
  have left : KeepsEnds admitted p.limiter := split ▸ keepsEnds_perform sofar now op
  have order : ∀ x, (admitted x).Pairwise (· < ·) := fun x => admissions_increasing increasing x _
  have evicted : ∀ c, op.call? config = some c → l.window? c.identity = none →
      config.maxTrackedIdentities < (l.stored now c).tracked →
        KeepsEnds admitted (l.stored now c) ∧ Evicted now (l.stored now c) p.limiter := by
    intro c call new many
    rw [← config_l] at call many
    have ends : KeepsEnds admitted (l.stored now c) := split ▸ sofar.stored call
    exact ⟨ends, evicted_of_call ends order (fun _ _ _ => eq_of_mem_admissions increasing) call new
      many⟩
  refine ⟨fun c call => ⟨fun new many => ?_, fun within x ne => ?_⟩, fun x v hv live gone => ?_⟩
  · obtain ⟨-, ev⟩ := evicted c call new many
    refine ⟨ev, fun admits => ?_⟩
    rw [admits_perform_of_call (config_l.symm ▸ call)] at admits
    obtain ⟨w, hw, last, live⟩ := exists_window?_stored l now c admits
    have room : 1 ≤ (l.stored now c).config.maxTrackedIdentities := by
      rw [show (l.stored now c).config = config from config_l]
      exact some_room
    exact ev.mem_keys_of_last left room (fun y t => le_of_mem_admissions increasing) hw live last
  · rw [← config_l] at call within
    rw [limiter_eq_stored call within, window?_stored_of_ne ne]
  · cases call : op.call? config with
    | some c =>
      by_cases new : l.window? c.identity = none ∧
          config.maxTrackedIdentities < (l.stored now c).tracked
      · obtain ⟨ends, ev⟩ := evicted c call new.1 new.2
        have ne : x ≠ c.identity := fun same => by
          rw [same, new.1] at hv
          cases hv
        have := ev.exists_others ends left order (by rwa [window?_stored_of_ne ne]) live gone
        rwa [show (l.stored now c).config = config from config_l] at this
      · rw [not_and_or, Nat.not_lt, ← config_l] at new
        rw [limiter_eq_stored (config_l.symm ▸ call) new] at gone
        exact absurd (mem_keys_stored sofar.nodup hv now c) gone
    | none =>
      have earlier := (List.pairwise_append.mp increasing).1
      have ordered := sofar.ordered fun x => admissions_increasing earlier x _
      exact absurd (mem_keys_perform_of_no_call sofar.nodup ordered (config_l.symm ▸ call)
        (noReset _ (List.mem_append_right _ List.mem_cons_self)) hv live) gone

/-- Two identities in turn, one of them twice. -/
def crowdedRun : List (Nat × Operation) :=
  [(0, .request "ada" 2 1), (100, .checkWith "bob" 5 9), (200, .request "ada" 2 1)]

/-- A third caller is one too many for two to be tracked. The one admitted first of all stays, since
it was admitted again, and the other one goes, although its own window is still open. -/
theorem eviction_keeps_latest_sample :
    let config : RateLimitConfig := { maxTrackedIdentities := 2 }
    let l := (new config).run crowdedRun
    let p := l.perform 300 (.request "eve" 3 1)
    Evicted 300 (l.stored 300 ⟨"eve", 3, 1⟩) p.limiter ∧ p.limiter.keys = ["ada", "eve"] ∧
      ∃ others : List String, others.length = 2 ∧ "bob" ∉ others := by
  intro config l p
  let swept := (l.stored 300 ⟨"eve", 3, 1⟩).sweepIdle 300
  have windows : swept.windows =
      [("ada", ⟨[0, 200], 1000⟩), ("bob", ⟨[100], 9000⟩), ("eve", ⟨[300], 1000⟩)] := by decide
  have order : swept.byRecency = ["bob", "ada", "eve"] := by
    rw [byRecency, windows]
    simp [List.mergeSort, RateWindow.recency]
  have evicts : p.limiter = swept.dropOldest := rfl
  have left : p.limiter.keys = ["ada", "eve"] := by
    rw [evicts, keys, dropOldest, order, windows]
    decide
  obtain ⟨calls, evicted⟩ := eviction_keeps_latest config 1000 (by decide) crowdedRun 300
    (.request "eve" 3 1) (by decide) (by decide)
  obtain ⟨others, -, count, apart, -⟩ := evicted "bob" ⟨[100], 9000⟩ (by decide) (by decide)
    (show "bob" ∉ p.limiter.keys by rw [left]; decide)
  exact ⟨((calls _ rfl).1 (by decide) (by decide)).1, left, others, count, apart⟩

end RateLimiter

end BoundSql
