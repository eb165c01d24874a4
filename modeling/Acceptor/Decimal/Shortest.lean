import Acceptor.Decimal.Binary64

/-!
# Shortest decimal text

`Shortest.digits` finds the fewest decimal digits that read back as a given positive double, and of
those the ones nearest to it.  `Layout` says how digits become text: which exponents are written
positionally, and how wide an exponent is.
-/

namespace Acceptor

namespace Decimal

/-- The decimal `0.d₁d₂… * 10 ^ point`, with the digits read as one whole number. -/
structure Digits where
  /-- The digits, as a number. -/
  value : Nat
  /-- Where the point stands. -/
  point : Int
  deriving Repr, DecidableEq

namespace Shortest

/-- How often `num / den` has to be multiplied by ten to reach one. -/
def tensToOne : Nat → Nat → Nat → Nat
  | 0, _, _ => 0
  | fuel + 1, num, den => if den ≤ num then 0 else tensToOne fuel (num * 10) den + 1

/-- The power of ten just above `num / den`. -/
def pointOf (num den : Nat) : Int :=
  if den ≤ num then (Nat.toDigits 10 (num / den)).length
  else 1 - (tensToOne 400 num den : Nat)

/-- `num / den` in units of `10 ^ e`, as a quotient. -/
def inUnits (num den : Nat) (e : Int) : Nat × Nat :=
  (num * tens (-e).toNat, den * tens e.toNat)

/-- `c * 10 ^ e` reads back as the double with these bits. -/
def readsBack (bits c : Nat) (e : Int) : Bool :=
  Binary64.nearestBits (c * tens e.toNat) (tens (-e).toNat) == bits

/-- The neighbour of `num / den` on the grid of `10 ^ e` that reads back, the nearer one of two. -/
def onGrid (bits num den : Nat) (e : Int) : Option Nat :=
  let (n, d) := inUnits num den e
  let near := roundQuotient n d
  let far := if near = n / d then n / d + 1 else n / d
  if readsBack bits near e then some near
  else if readsBack bits far e then some far
  else none

/-- The hit `c` on the grid of `10 ^ e`, and `e`, for the first grid with a hit: the coarsest one
is that of `10 ^ e`, and each further one has one more digit. -/
def search (bits num den : Nat) : Nat → Int → Nat × Int
  | 0, e => (0, e)
  | fuel + 1, e =>
    match onGrid bits num den e with
    | some c => (c, e)
    | none => search bits num den fuel (e - 1)

/-- Drop the zeros at the end of a number, up to `fuel` of them. -/
def dropZeros : Nat → Nat → Nat
  | 0, n => n
  | fuel + 1, n => if n ≠ 0 ∧ n % 10 = 0 then dropZeros fuel (n / 10) else n

/-- The shortest digits of the positive double `m * 2 ^ q`. -/
def digits (m : Nat) (q : Int) : Digits :=
  let (num, den) := Binary64.quotient m q
  let bits := Binary64.nearestBits num den
  let (c, e) := search bits num den 17 (pointOf num den - 1)
  ⟨dropZeros 20 c, e + (Nat.toDigits 10 c).length⟩

end Shortest

/-! ### Layout -/

/-- How the digits of a number become text. -/
structure Layout where
  /-- The least exponent that is written positionally. -/
  positionalFrom : Int
  /-- The least exponent above it that is not. -/
  positionalBelow : Int
  /-- How many digits an exponent has at least. -/
  exponentWidth : Nat
  /-- The text of the infinity. -/
  infinity : String
  /-- The text of what is not a number. -/
  undefined : String

namespace Layout

/-- The digits of `n`, with zeros in front up to `width`. -/
def padded (width n : Nat) : String :=
  let ds := Nat.toDigits 10 n
  String.ofList (List.replicate (width - ds.length) '0' ++ ds)

/-- A decimal with its point between the digits, and a digit on both sides of it. -/
def positional (ds : List Char) (point : Int) : String :=
  if point ≤ 0 then
    "0." ++ String.ofList (List.replicate (-point).toNat '0' ++ ds)
  else if (ds.length : Int) ≤ point then
    String.ofList (ds ++ List.replicate (point - ds.length).toNat '0') ++ ".0"
  else
    String.ofList (ds.take point.toNat) ++ "." ++ String.ofList (ds.drop point.toNat)

/-- A decimal with one digit in front of the point and an exponent. -/
def scientific (l : Layout) (ds : List Char) (exponent : Int) : String :=
  let rest := ds.drop 1
  let fraction := if rest.isEmpty then "" else "." ++ String.ofList rest
  let sign := if exponent < 0 then "-" else "+"
  String.ofList (ds.take 1) ++ fraction ++ "e" ++ sign ++ padded l.exponentWidth exponent.natAbs

/-- The text of a positive decimal. -/
def digits (l : Layout) (d : Digits) : String :=
  let ds := Nat.toDigits 10 d.value
  let exponent := d.point - 1
  if l.positionalFrom ≤ exponent ∧ exponent < l.positionalBelow then positional ds d.point
  else l.scientific ds exponent

/-- The text of a double. -/
def render (l : Layout) : Binary64 → String
  | .finite negative m q =>
    (if negative then "-" else "") ++ if m = 0 then "0.0" else l.digits (Shortest.digits m q)
  | .infinite negative => (if negative then "-" else "") ++ l.infinity
  | .undefined => l.undefined

end Layout

end Decimal

end Acceptor
