import Acceptor.Decimal.Fixed

/-!
# Counters of a run

What a run reports about its own work.
-/

namespace Acceptor

/-- The counters of a run. -/
structure Stats where
  /-- How many sub-problems were solved. -/
  memoEntries : Int := 0
  /-- How many terminals were tried. -/
  terminalAttempts : Int := 0
  /-- How many of them did not match. -/
  terminalFailures : Int := 0
  /-- How many seconds it took. -/
  elapsed : Float := 0.0

namespace Stats

/-- The counters with the time rounded to millionths. -/
def rounded (s : Stats) : Stats := { s with elapsed := Decimal.Fixed.round 6 s.elapsed }

/-- A time in seconds, as messages show it. -/
def seconds (x : Float) : String := Decimal.Fixed.render 3 x ++ "s"

/-- The counters in words. -/
def summary (s : Stats) : String :=
  toString s.memoEntries ++ " memo entries, " ++ toString s.terminalAttempts ++
    " terminal attempts (" ++ toString s.terminalFailures ++ " failed) in " ++ seconds s.elapsed

end Stats

end Acceptor
