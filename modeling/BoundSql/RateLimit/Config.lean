import BoundSql.Value.Record

/-!
# Limits on callers

How many requests an identity may make within a sliding window, and how many identities are kept
track of. The record is read and written as JSON; a field that is missing has its default.
-/

namespace BoundSql

/-- Limits on callers. -/
structure RateLimitConfig where
  /-- The most requests of one identity within a window. -/
  maxRequests : Nat := 100
  /-- The length of the window in seconds. -/
  windowSeconds : Nat := 60
  /-- The most identities kept track of. -/
  maxTrackedIdentities : Nat := 10000
  deriving DecidableEq, Repr, Inhabited

namespace RateLimitConfig

/-- Ten requests a minute. -/
def strict : RateLimitConfig := { maxRequests := 10 }

/-- A thousand requests a minute. -/
def permissive : RateLimitConfig := { maxRequests := 1000 }

/-- The limits as a record. -/
def toValue (c : RateLimitConfig) : Value :=
  .object [("max_requests", .int c.maxRequests),
    ("max_tracked_identities", .int c.maxTrackedIdentities),
    ("window_seconds", .int c.windowSeconds)]

/-- The fields of the record in the order of their declaration. -/
def fieldNames : List String := ["max_requests", "window_seconds", "max_tracked_identities"]

/-- The limits of a record; what is missing has its default. -/
def ofValue? (v : Value) : Option RateLimitConfig := do
  let fields ← v.record? fieldNames
  let d : RateLimitConfig := {}
  return {
    maxRequests := ← Value.optional fields "max_requests" Value.word32? d.maxRequests
    windowSeconds := ← Value.optional fields "window_seconds" Value.word64? d.windowSeconds
    maxTrackedIdentities :=
      ← Value.optional fields "max_tracked_identities" Value.word64? d.maxTrackedIdentities }

end RateLimitConfig

end BoundSql
