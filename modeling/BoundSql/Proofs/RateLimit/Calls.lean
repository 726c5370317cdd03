import BoundSql.Proofs.RateLimit.Tracking

/-!
# Calls on a limiter

The operations that judge a caller, seen as one kind of call (`perform_of_call`): each is judged
against the window of its identity (`admits_perform_of_call`), and leaves that window stored, after
an eviction or without one (`limiter_request`, `limiter_perform_of_call`). No step changes anything
but windows (`limiter_perform_eq`), so a run keeps the limits and the clock (`config_run`,
`ticks_run`). `HasRoom` says of a run that there is room for the live identities after every step.
-/

namespace BoundSql.RateLimiter

/-- A call on a limiter: whose it is, and what it is judged against. -/
structure Call where
  identity : String
  limit : Nat
  windowSeconds : Nat
  deriving DecidableEq, Repr

/-- The call that an operation makes on a limiter with these limits, if it makes one. -/
def Operation.call? (config : RateLimitConfig) : Operation → Option Call
  | request identity limit windowSeconds => some { identity, limit, windowSeconds }
  | check identity =>
    some { identity, limit := config.maxRequests, windowSeconds := config.windowSeconds }
  | checkWith identity limit windowSeconds => some { identity, limit, windowSeconds }
  | sweep => none
  | reset => none
  | showConfig => none

/-- Whether an answer admits a call. -/
def Answer.admits : Answer → Bool
  | admitted yes => yes
  | checked (.ok _) => true
  | _ => false

/-- The limiter with the window stored that a call leaves, and nothing evicted yet. -/
def stored (l : RateLimiter) (now : Nat) (c : Call) : RateLimiter :=
  let w := (l.windowOf c.identity).after now (l.ticks c.windowSeconds) c.limit
  { l with windows := store c.identity w l.windows }

/-- The limiter after a step, before it evicts anything. -/
def judged (l : RateLimiter) (now : Nat) (op : Operation) : RateLimiter :=
  match op.call? l.config with
  | some c => l.stored now c
  | none => (l.perform now op).limiter

/-- After every step there is room for the identities that hold an admitted instant inside their own
window. They are counted before the step evicts any, since afterwards there are never too many. -/
def HasRoom : RateLimiter → List (Nat × Operation) → Prop
  | _, [] => True
  | l, (now, op) :: steps =>
    (l.judged now op).live now ≤ l.config.maxTrackedIdentities ∧
      (l.perform now op).limiter.HasRoom steps

/-! ## Steps -/

variable {l : RateLimiter} {now : Nat} {op : Operation} {c : Call}

theorem limiter_request (l : RateLimiter) (now : Nat) (c : Call) :
    (l.request c.identity c.limit c.windowSeconds now).limiter = l.stored now c ∨
      (l.request c.identity c.limit c.windowSeconds now).limiter = (l.stored now c).evict now := by
  unfold request
  simp only
  split
  · exact Or.inr rfl
  · exact Or.inl rfl

theorem limiter_checkWith (l : RateLimiter) (identity : String) (limit windowSeconds now : Nat) :
    (l.checkWith identity limit windowSeconds now).limiter =
      (l.request identity limit windowSeconds now).limiter := by
  rw [checkWith]
  split <;> rfl

theorem admits_checkWith (l : RateLimiter) (identity : String) (limit windowSeconds now : Nat) :
    (Answer.checked (l.checkWith identity limit windowSeconds now).result).admits =
      (l.request identity limit windowSeconds now).admitted := by
  rw [checkWith]
  cases admits : (l.request identity limit windowSeconds now).admitted <;> rfl

/-- **What a call does**: a request is answered with whether it is admitted, a check with its
result. -/
theorem perform_of_call (h : op.call? l.config = some c) (now : Nat) :
    let d := l.request c.identity c.limit c.windowSeconds now
    let k := l.checkWith c.identity c.limit c.windowSeconds now
    l.perform now op = ⟨.admitted d.admitted, d.limiter, d.notices⟩ ∨
      l.perform now op = ⟨.checked k.result, k.limiter, k.notices⟩ := by
  cases op with
  | request identity limit windowSeconds => cases h; exact Or.inl rfl
  | check identity => cases h; exact Or.inr rfl
  | checkWith identity limit windowSeconds => cases h; exact Or.inr rfl
  | sweep => cases h
  | reset => cases h
  | showConfig => cases h

theorem limiter_perform_of_call (h : op.call? l.config = some c) :
    (l.perform now op).limiter = (l.request c.identity c.limit c.windowSeconds now).limiter := by
  rcases perform_of_call h now with e | e <;> rw [e]
  exact limiter_checkWith _ _ _ _ _

theorem admits_perform_of_call (h : op.call? l.config = some c) :
    (l.perform now op).answer.admits =
      (l.windowOf c.identity).admits now (l.ticks c.windowSeconds) c.limit := by
  rcases perform_of_call h now with e | e <;> rw [e]
  · rfl
  · exact admits_checkWith _ _ _ _ _

/-- **A step changes windows only**, neither the limits nor the clock. -/
theorem limiter_perform_eq (l : RateLimiter) (now : Nat) (op : Operation) :
    (l.perform now op).limiter = { l with windows := (l.perform now op).limiter.windows } := by
  cases h : op.call? l.config with
  | some c =>
    rw [limiter_perform_of_call h]
    rcases limiter_request l now c with h | h <;> rw [h] <;> rfl
  | none =>
    cases op with
    | sweep => rfl
    | reset => rfl
    | showConfig => rfl
    | _ => cases h

theorem config_perform (l : RateLimiter) (now : Nat) (op : Operation) :
    (l.perform now op).limiter.config = l.config := by
  rw [limiter_perform_eq]

theorem ticksPerSecond_perform (l : RateLimiter) (now : Nat) (op : Operation) :
    (l.perform now op).limiter.ticksPerSecond = l.ticksPerSecond := by
  rw [limiter_perform_eq]

theorem ticks_perform (l : RateLimiter) (now : Nat) (op : Operation) :
    (l.perform now op).limiter.ticks = l.ticks := by
  rw [limiter_perform_eq]
  rfl

/-! ## Runs -/

theorem run_cons (l : RateLimiter) (now : Nat) (op : Operation) (steps : List (Nat × Operation)) :
    l.run ((now, op) :: steps) = (l.perform now op).limiter.run steps := rfl

/-- A run changes windows only. -/
theorem run_eq (l : RateLimiter) (steps : List (Nat × Operation)) :
    l.run steps = { l with windows := (l.run steps).windows } := by
  induction steps generalizing l with
  | nil => rfl
  | cons step steps ih =>
    rw [run_cons]
    refine (ih _).trans ?_
    rw [limiter_perform_eq l step.1 step.2]

theorem config_run (l : RateLimiter) (steps : List (Nat × Operation)) :
    (l.run steps).config = l.config := by
  rw [run_eq]

theorem ticks_run (l : RateLimiter) (steps : List (Nat × Operation)) :
    (l.run steps).ticks = l.ticks := by
  rw [run_eq]
  rfl

theorem hasRoom_append_iff {before after : List (Nat × Operation)} :
    l.HasRoom (before ++ after) ↔ l.HasRoom before ∧ (l.run before).HasRoom after := by
  induction before generalizing l with
  | nil => exact ⟨fun h => ⟨trivial, h⟩, fun h => h.2⟩
  | cons step before ih =>
    rw [List.cons_append, HasRoom, HasRoom, run_cons, ih, and_assoc]

end BoundSql.RateLimiter
