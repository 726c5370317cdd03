import BoundSql.Proofs.RateLimit.Capacity

/-!
# Identities under other names

A limiter compares identities and does nothing else with them. So where one identity is given
another name, one that nobody else has, a request is answered as before and leaves the limiter as
before, but for the name (`request_rename`). A check also tells the identity, as logs may show it:
nothing of it changes where the two names show as one (`checkWith_rename`).
-/

namespace BoundSql.RateLimiter

/-- A name, with one name given up for another. -/
def renamed (old new x : String) : String := if x = old then new else x

/-- The limiter, with an identity under another name. -/
def rename (old new : String) (l : RateLimiter) : RateLimiter :=
  { l with windows := l.windows.map fun e => (renamed old new e.1, e.2) }

variable {old new x y : String} {l : RateLimiter} {now : Nat} {c : Call}
  {ws : List (String × RateWindow)}

/-- Names stay apart unless one of them is the new one. -/
theorem renamed_eq_iff (old : String) (hx : x ≠ new) (hy : y ≠ new) :
    renamed old new x = renamed old new y ↔ x = y := by
  unfold renamed
  by_cases mine : x = old
  · by_cases yours : y = old
    · simp [mine, yours]
    · rw [if_pos mine, if_neg yours]
      exact ⟨fun e => absurd e.symm hy, fun e => absurd (e ▸ mine) yours⟩
  · by_cases yours : y = old
    · rw [if_neg mine, if_pos yours]
      exact ⟨fun e => absurd e hx, fun e => absurd (e ▸ yours) mine⟩
    · rw [if_neg mine, if_neg yours]

theorem lookup_rename (fresh : new ∉ ws.map (·.1)) (hx : x ≠ new) :
    (ws.map fun e => (renamed old new e.1, e.2)).lookup (renamed old new x) = ws.lookup x := by
  induction ws with
  | nil => rfl
  | cons e rest ih =>
    rw [List.map_cons, List.mem_cons, not_or] at fresh
    have same : (renamed old new x == renamed old new e.1) = (x == e.1) := by
      rw [Bool.eq_iff_iff, beq_iff_eq, beq_iff_eq]
      exact renamed_eq_iff old hx fun h => fresh.1 h.symm
    rw [List.map_cons, List.lookup_cons, List.lookup_cons, same, ih fresh.2]

theorem store_rename (fresh : new ∉ ws.map (·.1)) (hx : x ≠ new) (w : RateWindow) :
    store (renamed old new x) w (ws.map fun e => (renamed old new e.1, e.2)) =
      (store x w ws).map fun e => (renamed old new e.1, e.2) := by
  induction ws with
  | nil => rfl
  | cons e rest ih =>
    obtain ⟨k, v⟩ := e
    rw [List.map_cons, List.mem_cons, not_or] at fresh
    have same := renamed_eq_iff old (fun h : k = new => fresh.1 h.symm) hx
    by_cases mine : k = x
    · simp [store, mine]
    · rw [List.map_cons, store, store, if_neg mine, if_neg fun e => mine (same.mp e),
        List.map_cons, ih fresh.2]

/-- The call, with an identity under another name. -/
def Call.rename (old new : String) (c : Call) : Call :=
  { c with identity := renamed old new c.identity }

theorem tracked_rename (old new : String) (l : RateLimiter) :
    (l.rename old new).tracked = l.tracked := List.length_map _

theorem ticks_rename (old new : String) (l : RateLimiter) : (l.rename old new).ticks = l.ticks :=
  rfl

theorem windowOf_rename (fresh : new ∉ l.keys) (hx : x ≠ new) :
    (l.rename old new).windowOf (renamed old new x) = l.windowOf x := by
  rw [windowOf, window?, rename, lookup_rename fresh hx]
  rfl

theorem stored_rename (old : String) (fresh : new ∉ l.keys) (hc : c.identity ≠ new) (now : Nat) :
    (l.rename old new).stored now (c.rename old new) = (l.stored now c).rename old new := by
  rw [stored, stored, Call.rename, windowOf_rename fresh hc, ticks_rename]
  simp only [rename, store_rename fresh hc]

/-- **A request does not depend on the name.** -/
theorem request_rename (old : String)
    (room : (l.stored now c).tracked ≤ l.config.maxTrackedIdentities)
    (fresh : new ∉ l.keys) (hc : c.identity ≠ new) :
    let d := l.request c.identity c.limit c.windowSeconds now
    (l.rename old new).request (renamed old new c.identity) c.limit c.windowSeconds now =
      { d with limiter := d.limiter.rename old new } := by
  intro d
  have stored := stored_rename old fresh hc now
  have roomToo : ((l.rename old new).stored now (c.rename old new)).tracked ≤
      (l.rename old new).config.maxTrackedIdentities := by
    rw [stored, tracked_rename]
    exact room
  have renamedToo := request_of_room roomToo
  rw [stored] at renamedToo
  simp only [Call.rename, windowOf_rename fresh hc, ticks_rename] at renamedToo
  simp only [d, renamedToo, request_of_room room]

/-- Names that logs show as one are shown as one whoever has them. -/
theorem nameForLog_renamed (shown : Redaction.nameForLog old = Redaction.nameForLog new)
    (x : String) : Redaction.nameForLog (renamed old new x) = Redaction.nameForLog x := by
  unfold renamed
  split
  · rename_i mine
    rw [mine, shown]
  · rfl

/-- **A check tells nothing of the name** but what logs show. -/
theorem checkWith_rename (shown : Redaction.nameForLog old = Redaction.nameForLog new)
    (room : (l.stored now c).tracked ≤ l.config.maxTrackedIdentities)
    (fresh : new ∉ l.keys) (hc : c.identity ≠ new) :
    let k := l.checkWith c.identity c.limit c.windowSeconds now
    (l.rename old new).checkWith (renamed old new c.identity) c.limit c.windowSeconds now =
      { k with limiter := k.limiter.rename old new } := by
  intro k
  have asked := request_rename old room fresh hc
  simp only [k, checkWith, asked, nameForLog_renamed shown]
  split <;> rfl

end BoundSql.RateLimiter
