import Acceptor.Decimal.Rounding

/-!
# Double precision numbers

A finite double is a sign, a mantissa `m` and an exponent `q`, standing for `m * 2 ^ q`.
`Binary64.ofFloat` takes a `Float` apart into these, and `Binary64.nearest` finds the double nearest
to a quotient of two whole numbers by exact arithmetic.  `Binary64.ofDecimal` reads a decimal.
-/

namespace Acceptor

namespace Decimal

/-- What the bits of a double say. -/
inductive Binary64 where
  /-- The number `m * 2 ^ q`, with a sign that zero has too. -/
  | finite (negative : Bool) (m : Nat) (q : Int)
  /-- An infinity. -/
  | infinite (negative : Bool)
  /-- Not a number. -/
  | undefined
  deriving Repr, DecidableEq

namespace Binary64

/-- The bit of the sign. -/
def signBit : Nat := twos 63

/-- The exponent of infinities, as the bits hold it. -/
def topExponent : Nat := 2047

/-- Read 64 bits as a double. -/
def ofBits (bits : Nat) : Binary64 :=
  let negative := decide (signBit ≤ bits)
  let biased := bits / twos 52 % twos 11
  let fraction := bits % twos 52
  if biased = topExponent then
    if fraction = 0 then .infinite negative else .undefined
  else if biased = 0 then .finite negative fraction (-1074)
  else .finite negative (twos 52 + fraction) (Int.ofNat biased - 1075)

/-- Take a floating point number apart. -/
def ofFloat (x : Float) : Binary64 := ofBits x.toBits.toNat

/-- The magnitude `m * 2 ^ q` as a quotient of whole numbers. -/
def quotient (m : Nat) (q : Int) : Nat × Nat :=
  (m * twos q.toNat, twos (-q).toNat)

/-! ### The nearest double -/

/-- The exponent of the doubles around `num / den`: their mantissas have 53 bits, or fewer below
the least normal number. -/
def exponentAt (num den : Nat) : Int :=
  let guess : Int := (num.log2 : Int) - den.log2 - 52
  let whole := num * twos (-guess).toNat / (den * twos guess.toNat)
  max (-1074) (if whole < twos 52 then guess - 1 else guess)

/-- The bits of the infinity. -/
def infinityBits : Nat := topExponent * twos 52

/-- The bits of the positive double nearest to `num / den`; a mantissa that rounds up to 54 bits
carries into the exponent by itself. -/
def nearestBits (num den : Nat) : Nat :=
  if num = 0 then 0
  else
    let q := exponentAt num den
    let m := roundQuotient (num * twos (-q).toNat) (den * twos q.toNat)
    min infinityBits ((q + 1074).toNat * twos 52 + m)

/-- The double nearest to `num / den`, negated on request. -/
def nearest (negative : Bool) (num den : Nat) : Float :=
  Float.ofBits (UInt64.ofNat (nearestBits num den + if negative then signBit else 0))

/-- The double nearest to `digits * 10 ^ exponent`, with a sign that zero has too. -/
def ofDecimal (negative : Bool) (digits : Nat) (exponent : Int) : Binary64 :=
  ofBits (nearestBits (digits * tens exponent.toNat) (tens (-exponent).toNat) +
    if negative then signBit else 0)

/-- The double nearest to a whole number, unless the number is too large for any. -/
def ofInt? (n : Int) : Option Float :=
  if nearestBits n.natAbs 1 = infinityBits then none
  else some (nearest (decide (n < 0)) n.natAbs 1)

end Binary64

end Decimal

end Acceptor
