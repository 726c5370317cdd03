import BoundSql.RateLimit.Config
import BoundSql.RateLimit.Window
import BoundSql.Redaction
import BoundSql.SecurityError

/-!
# The rate limiter

A limiter keeps a window for each identity it tracks. A request opens the window of its identity,
or a new one. When a new identity makes them more than the limiter may track, the idle ones are
swept out, each judged by its own length, and if that is not enough the least recently admitted
ones go. What a limiter has to say is returned as a list of notices, in order.
-/

namespace BoundSql

/-- A limiter: its limits, and the tracked identities in the order in which they came. -/
structure RateLimiter where
  config : RateLimitConfig := {}
  /-- How often its clock ticks in a second. Instants and lengths of windows are in ticks. -/
  ticksPerSecond : Nat := 1000
  windows : List (String × RateWindow) := []
  deriving Repr, Inhabited

namespace RateLimiter

/-- What a limiter has to say. -/
inductive Notice
  /-- Identities were dropped, and so many are left. -/
  | evicted (count tracked : Nat)
  /-- A request was refused; the identity is held as logs may show it. -/
  | exceeded (identity : String) (current limit windowSeconds : Nat)
  deriving DecidableEq, Repr

/-- What to say to a reader. -/
def Notice.message : Notice → String
  | evicted count tracked =>
    "Rate limiter evicted " ++ toString count ++ " identities (" ++ toString tracked ++
      " still tracked)"
  | exceeded identity current limit windowSeconds =>
    "Rate limit exceeded for '" ++ identity ++ "': " ++ toString current ++ "/" ++
      toString limit ++ " requests in " ++ toString windowSeconds ++ "s window"

/-- A limiter that tracks nobody. -/
def new (config : RateLimitConfig) (ticksPerSecond : Nat := 1000) : RateLimiter :=
  { config, ticksPerSecond }

/-- So many seconds in ticks. -/
def ticks (l : RateLimiter) (seconds : Nat) : Nat := l.ticksPerSecond * seconds

/-- The window of an identity. -/
def window? (l : RateLimiter) (identity : String) : Option RateWindow := l.windows.lookup identity

/-- The number of tracked identities. -/
def tracked (l : RateLimiter) : Nat := l.windows.length

/-- The number of requests counted against an identity. -/
def currentCount (l : RateLimiter) (identity : String) : Nat :=
  match l.window? identity with
  | none => 0
  | some w => w.count

/-- The windows with that of one identity replaced, or added at the end. -/
def store (identity : String) (w : RateWindow) :
    List (String × RateWindow) → List (String × RateWindow)
  | [] => [(identity, w)]
  | (k, v) :: rest => if k = identity then (k, w) :: rest else (k, v) :: store identity w rest

/-! ## Eviction -/

/-- The limiter without the identities that have no request left in their own window. -/
def sweepIdle (l : RateLimiter) (now : Nat) : RateLimiter :=
  { l with windows := (l.windows.map fun e => (e.1, e.2.purge now)).filter (!·.2.isIdle) }

/-- The identities from the least to the most recently admitted one. -/
def byRecency (l : RateLimiter) : List String :=
  (l.windows.mergeSort fun a b => decide (a.2.recency ≤ b.2.recency)).map (·.1)

/-- The limiter without the least recently admitted identities that are too many. -/
def dropOldest (l : RateLimiter) : RateLimiter :=
  let dropped := l.byRecency.take (l.tracked - l.config.maxTrackedIdentities)
  { l with windows := l.windows.filter fun e => !dropped.contains e.1 }

/-- The limiter brought back to the identities it may track. -/
def evict (l : RateLimiter) (now : Nat) : RateLimiter := (l.sweepIdle now).dropOldest

/-! ## Requests -/

/-- The outcome of a request. -/
structure Decision where
  admitted : Bool
  /-- The number of requests counted against the identity, an admitted one included. -/
  current : Nat
  limiter : RateLimiter
  notices : List Notice

/-- Judges a request of an identity at an instant, against at most `limit` requests in a window of
so many seconds. -/
def request (l : RateLimiter) (identity : String) (limit windowSeconds now : Nat) : Decision :=
  let found := l.window? identity
  let w := found.getD {}
  let span := l.ticks windowSeconds
  let asked := { l with windows := store identity (w.after now span limit) l.windows }
  let evicts := found.isNone && decide (l.config.maxTrackedIdentities < asked.tracked)
  let limiter := if evicts then asked.evict now else asked
  { admitted := w.admits now span limit
    current := (w.after now span limit).count
    limiter
    notices := if evicts then [.evicted (asked.tracked - limiter.tracked) limiter.tracked] else [] }

/-- An admitted request: how many are counted, and how many are allowed. -/
structure Admission where
  current : Nat
  limit : Nat
  deriving DecidableEq, Repr

/-- The outcome of a check. -/
structure Check where
  result : Except SecurityError Admission
  limiter : RateLimiter
  notices : List Notice

/-- Judges a request, and refuses it with an error that names the identity as logs may show it. -/
def checkWith (l : RateLimiter) (identity : String) (limit windowSeconds now : Nat) : Check :=
  let d := l.request identity limit windowSeconds now
  if d.admitted then
    { result := .ok { current := d.current, limit }, limiter := d.limiter, notices := d.notices }
  else
    let shown := Redaction.nameForLog identity
    { result := .error (.rateLimitExceeded shown limit windowSeconds)
      limiter := d.limiter
      notices := d.notices ++ [.exceeded shown d.current limit windowSeconds] }

/-- Judges a request against the limits of the limiter. -/
def check (l : RateLimiter) (identity : String) (now : Nat) : Check :=
  l.checkWith identity l.config.maxRequests l.config.windowSeconds now

/-- The limiter without any tracked identity. -/
def reset (l : RateLimiter) : RateLimiter := { l with windows := [] }

/-! ## Operations in sequence -/

/-- Something asked of a limiter. -/
inductive Operation
  | request (identity : String) (limit windowSeconds : Nat)
  | check (identity : String)
  | checkWith (identity : String) (limit windowSeconds : Nat)
  | sweep
  | reset
  | showConfig
  deriving DecidableEq, Repr

/-- What a limiter answers. -/
inductive Answer
  | admitted (yes : Bool)
  | checked (result : Except SecurityError Admission)
  | swept (count : Nat)
  | done
  | config (config : RateLimitConfig)

/-- The limiter after an operation, its answer and its notices. -/
structure Performed where
  answer : Answer
  limiter : RateLimiter
  notices : List Notice

/-- Carries out an operation at an instant. -/
def perform (l : RateLimiter) (now : Nat) : Operation → Performed
  | .request identity limit windowSeconds =>
    let d := l.request identity limit windowSeconds now
    ⟨.admitted d.admitted, d.limiter, d.notices⟩
  | .check identity =>
    let c := l.check identity now
    ⟨.checked c.result, c.limiter, c.notices⟩
  | .checkWith identity limit windowSeconds =>
    let c := l.checkWith identity limit windowSeconds now
    ⟨.checked c.result, c.limiter, c.notices⟩
  | .sweep =>
    let swept := l.sweepIdle now
    ⟨.swept (l.tracked - swept.tracked), swept, []⟩
  | .reset => ⟨.done, l.reset, []⟩
  | .showConfig => ⟨.config l.config, l, []⟩

/-- The limiter after operations at given instants. -/
def run (l : RateLimiter) (steps : List (Nat × Operation)) : RateLimiter :=
  steps.foldl (fun l step => (l.perform step.1 step.2).limiter) l

/-! ## Lemmas -/

theorem lookup_store_self (identity : String) (w : RateWindow) (ws : List (String × RateWindow)) :
    (store identity w ws).lookup identity = some w := by
  induction ws with
  | nil => simp [store]
  | cons e rest ih =>
    obtain ⟨k, v⟩ := e
    unfold store
    by_cases h : k = identity
    · simp [h]
    · rw [if_neg h]
      have hne : (identity == k) = false := by simpa using fun e => h e.symm
      simpa [List.lookup_cons, hne] using ih

theorem lookup_store_of_ne {identity other : String} (h : other ≠ identity) (w : RateWindow)
    (ws : List (String × RateWindow)) : (store identity w ws).lookup other = ws.lookup other := by
  induction ws with
  | nil =>
    have hne : (other == identity) = false := by simpa using h
    simp [store, List.lookup_cons, hne]
  | cons e rest ih =>
    obtain ⟨k, v⟩ := e
    unfold store
    by_cases hk : k = identity
    · subst hk
      have hne : (other == k) = false := by simpa using h
      simp [List.lookup_cons, hne]
    · rw [if_neg hk]
      cases hok : other == k <;> simp [List.lookup_cons, hok, ih]

end RateLimiter

end BoundSql
