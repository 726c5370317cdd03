import BoundSql.Generator

/-!
# Sessions

A session is a sequence of calls on several generators. Each generator asks one limiter; several
generators may ask the same one. The limiters are kept in a list, and a member of the session names
its limiter by position.
-/

namespace BoundSql

/-- A generator of a session: its configuration and the position of its limiter. -/
structure Member where
  config : GeneratorConfig
  limiter : Nat
  deriving Repr, Inhabited

/-- The generators of a session and their limiters. -/
structure Session where
  members : List Member
  limiters : List RateLimiter
  deriving Repr, Inhabited

/-- A call in a session: the position of the generator, the statement, the caller and the
instant. -/
structure Call where
  generator : Nat
  statement : Statement
  caller : Option String
  now : Nat

namespace Session

/-- Generators that all ask one limiter. -/
def sharing (configs : List GeneratorConfig) (limiter : RateLimiter) : Session :=
  { members := configs.map ({ config := ·, limiter := 0 }), limiters := [limiter] }

/-- Generators that each ask a limiter of their own. -/
def separate (configs : List GeneratorConfig) (ticksPerSecond : Nat := 1000) : Session :=
  { members := configs.zipIdx.map fun p => { config := p.1, limiter := p.2 }
    limiters := configs.map fun c => .new c.rateLimit ticksPerSecond }

/-- The outcome of a call and the session after it, if there is such a generator. -/
def call? (s : Session) (c : Call) : Option (Outcome × Session) := do
  let m ← s.members[c.generator]?
  let l ← s.limiters[m.limiter]?
  let outcome := Generator.generate m.config l c.statement c.caller c.now
  return (outcome, { s with limiters := s.limiters.set m.limiter outcome.limiter })

/-- The outcomes of calls one after the other; a call on no generator is passed over. -/
def run : Session → List Call → List Outcome
  | _, [] => []
  | s, c :: calls =>
    match s.call? c with
    | none => run s calls
    | some (outcome, s') => outcome :: run s' calls

end Session

end BoundSql
