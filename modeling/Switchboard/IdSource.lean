import Switchboard.RequestId

/-!
# The source of identifiers

Identifiers are handed out in strictly increasing order. The clock is an input of every step, so
nothing is assumed about it: it may stand still, jump or run backwards.
-/

namespace Switchboard

/-- How the next identifier is chosen. -/
inductive IdStrategy where
  /-- Count up from one. -/
  | counter
  /-- Follow the clock in milliseconds, but always past the identifier before. -/
  | timestamp
  deriving DecidableEq, Repr

/-- A source of identifiers, with the last one it handed out; zero before the first. -/
structure IdSource where
  strategy : IdStrategy
  last : UInt64 := 0
  deriving DecidableEq, Repr

namespace IdSource

/-- The identifier that would be handed out at clock reading `now`. -/
def peek (source : IdSource) (now : UInt64) : RequestId :=
  match source.strategy with
  | .counter => ⟨source.last + 1⟩
  | .timestamp => ⟨max now (source.last + 1)⟩

/-- Hands out an identifier. -/
def next (source : IdSource) (now : UInt64) : RequestId × IdSource :=
  let id := source.peek now
  (id, { source with last := id.value })

end IdSource

end Switchboard
