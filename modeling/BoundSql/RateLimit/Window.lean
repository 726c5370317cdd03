/-!
# The sliding window of one identity

A window holds the instants of the admitted requests of one identity, oldest first, and the length
under which they were last judged. Instants and lengths are in ticks of one clock. Before each
decision the instants that fell out of the window are dropped from the front; a refused request
leaves no instant behind.
-/

namespace BoundSql

/-- The admitted requests of one identity. -/
structure RateWindow where
  /-- Instants of admitted requests, oldest first. -/
  instants : List Nat := []
  /-- The length of the window. -/
  span : Nat := 0
  deriving DecidableEq, Repr, Inhabited

namespace RateWindow

/-- Whether an instant fell out of the window. An instant that lies ahead did not. -/
def expired (w : RateWindow) (now t : Nat) : Bool := decide (w.span < now - t)

/-- The window without the expired instants at its front. -/
def purge (w : RateWindow) (now : Nat) : RateWindow :=
  { w with instants := w.instants.dropWhile (w.expired now) }

/-- The window as a request finds it: under the length of this request, and purged. -/
def opened (w : RateWindow) (now span : Nat) : RateWindow := { w with span }.purge now

/-- Whether a request is admitted when at most `limit` may stand in the window. -/
def admits (w : RateWindow) (now span limit : Nat) : Bool :=
  decide ((w.opened now span).instants.length < limit)

/-- The window after a request: an admitted one has left its instant. -/
def after (w : RateWindow) (now span limit : Nat) : RateWindow :=
  if w.admits now span limit then
    { w.opened now span with instants := (w.opened now span).instants ++ [now] }
  else w.opened now span

/-- The number of requests counted. -/
def count (w : RateWindow) : Nat := w.instants.length

/-- Whether no request is counted. -/
def isIdle (w : RateWindow) : Bool := w.instants.isEmpty

/-- The order of windows by the instant last admitted; a window without any comes first. -/
def recency (w : RateWindow) : Nat :=
  match w.instants.getLast? with
  | none => 0
  | some t => t + 1

/-! ## Lemmas -/

theorem mem_of_mem_purge {w : RateWindow} {now t : Nat} (h : t ∈ (w.purge now).instants) :
    t ∈ w.instants := (List.dropWhile_sublist _).subset h

/-- A refused request leaves no instant behind. -/
theorem after_of_not_admits {w : RateWindow} {now span limit : Nat}
    (h : w.admits now span limit = false) : w.after now span limit = w.opened now span := by
  simp [after, h]

/-- An admitted request is counted from then on. -/
theorem mem_after_of_admits {w : RateWindow} {now span limit : Nat}
    (h : w.admits now span limit = true) : now ∈ (w.after now span limit).instants := by
  simp [after, h]

end RateWindow

end BoundSql
