import Acceptor.Decimal.Shortest

/-!
# Decimals with a fixed number of places

`Fixed.render` writes a double with a given number of places behind the point, and `Fixed.round`
gives the double nearest to such a decimal.  Both start from the exact value of the double; a half
goes to the even neighbour.
-/

namespace Acceptor

namespace Decimal

namespace Fixed

/-- The magnitude `m * 2 ^ q` in units of the last of `places` places. -/
def units (places m : Nat) (q : Int) : Nat :=
  let (num, den) := Binary64.quotient m q
  roundQuotient (num * tens places) den

/-- The text of `x` with `places` places, at least one. -/
def render (places : Nat) (x : Float) : String :=
  match Binary64.ofFloat x with
  | .finite negative m q =>
    let n := units places m q
    (if negative then "-" else "") ++ Layout.padded 1 (n / tens places) ++ "." ++
      Layout.padded places (n % tens places)
  | .infinite negative => (if negative then "-" else "") ++ "inf"
  | .undefined => "nan"

/-- The double nearest to `x` rounded to `places` places; the sign stays. -/
def round (places : Nat) (x : Float) : Float :=
  match Binary64.ofFloat x with
  | .finite negative m q => Binary64.nearest negative (units places m q) (tens places)
  | _ => x

end Fixed

end Decimal

end Acceptor
