/-!
# Slices

A slice picks elements of a list by a start, a stop and a step, each of which may be absent or
negative.  Negative bounds count from the end, and bounds outside the list are moved to its ends.
-/

namespace Acceptor

/-- The bounds and the step of a slice. -/
structure Slice where
  /-- The first index. -/
  start : Option Int
  /-- The index before which, or behind which, the slice stops. -/
  stop : Option Int
  /-- The distance between two picked elements. -/
  step : Int
  deriving Repr, DecidableEq

namespace Slice

/-- A bound of a slice of `n` elements: counted from the end if negative, and moved between `low`
and `high`. -/
def clamp (n : Nat) (low high bound : Int) : Int :=
  if bound < 0 then max low (bound + n) else min high bound

/-- The least bound; going backwards, an index may stop in front of the first element. -/
def low (s : Slice) : Int := if s.step < 0 then -1 else 0

/-- The greatest bound. -/
def high (s : Slice) (n : Nat) : Int := if s.step < 0 then Int.ofNat n - 1 else n

/-- Where a slice of `n` elements starts. -/
def first (s : Slice) (n : Nat) : Int :=
  match s.start with
  | some bound => clamp n s.low (s.high n) bound
  | none => if s.step < 0 then s.high n else s.low

/-- Where a slice of `n` elements stops. -/
def last (s : Slice) (n : Nat) : Int :=
  match s.stop with
  | some bound => clamp n s.low (s.high n) bound
  | none => if s.step < 0 then s.low else s.high n

/-- How many elements a slice of `n` elements picks. -/
def count (s : Slice) (n : Nat) : Nat :=
  let span := if s.step < 0 then s.first n - s.last n else s.last n - s.first n
  if 0 < span then ((span - 1) / s.step.natAbs + 1).toNat else 0

/-- The indices that a slice of `n` elements picks, in order. -/
def indices (s : Slice) (n : Nat) : List Int :=
  (List.range (s.count n)).map fun i => s.first n + Int.ofNat i * s.step

/-- The elements that a slice picks from a list. -/
def pick {α : Type} (s : Slice) (l : List α) : List α :=
  (s.indices l.length).filterMap fun i => l[i.toNat]?

end Slice

end Acceptor
