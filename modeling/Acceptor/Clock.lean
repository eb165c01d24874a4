import Acceptor.Decimal.Binary64

/-!
# Clocks

Time is read from a `Clock` that the caller provides: reading it advances it by a fixed number of
eighths of a second.  `Clock.timed` measures how long something takes by reading the clock before
and after it.
-/

namespace Acceptor

/-- A clock. -/
structure Clock where
  /-- The time it shows, in eighths of a second. -/
  now : Nat
  /-- How far a reading advances it. -/
  tick : Nat
  deriving Repr, DecidableEq

/-- The seconds that something took; zero until it has ended. -/
structure Stopwatch where
  /-- The seconds. -/
  elapsed : Float := 0.0

namespace Clock

/-- A clock at its start. -/
def start (tick : Nat) : Clock := ⟨0, tick⟩

/-- The time in seconds. -/
def seconds (c : Clock) : Float := Decimal.Binary64.nearest false c.now 8

/-- The clock after it was read. -/
def next (c : Clock) : Clock := { c with now := c.now + c.tick }

/-- Measure how long `body` takes, whatever comes out of it. -/
def timed {α : Type} (c : Clock) (body : Clock → α × Clock) : α × Stopwatch × Clock :=
  let (value, after) := body c.next
  (value, ⟨after.seconds - c.seconds⟩, after.next)

end Clock

end Acceptor
