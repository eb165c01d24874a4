import Acceptor.Value.Basic

/-!
# Equal values

`Value.same` says whether two values count as equal.  Numbers are equal if they have the same
value, whatever their kind: truth values count as zero and one, and zero has no sign.  Lists are
equal item by item, and records field by field, in any order.  `Value.less` orders numbers by
their value, and `Value.holds` says whether a value counts as true.
-/

namespace Acceptor

/-- The value of a number. -/
inductive Magnitude where
  /-- The quotient `num / den`. -/
  | finite (num : Int) (den : Nat)
  /-- An infinity. -/
  | infinite (negative : Bool)

namespace Magnitude

/-- The value of a whole number. -/
def ofInt (n : Int) : Magnitude := .finite n 1

/-- The value of a double, if it has one. -/
def ofDouble? : Decimal.Binary64 → Option Magnitude
  | .finite negative m q =>
    let (num, den) := Decimal.Binary64.quotient m q
    some (.finite (if negative then -Int.ofNat num else num) den)
  | .infinite negative => some (.infinite negative)
  | .undefined => none

/-- The two values are equal. -/
def same : Magnitude → Magnitude → Bool
  | .finite num den, .finite num' den' => num * den' == num' * den
  | .infinite negative, .infinite negative' => negative == negative'
  | _, _ => false

/-- The first value is below the second. -/
def less : Magnitude → Magnitude → Bool
  | .finite num den, .finite num' den' => decide (num * den' < num' * den)
  | .finite _ _, .infinite negative => !negative
  | .infinite negative, .finite _ _ => negative
  | .infinite negative, .infinite negative' => negative && !negative'

end Magnitude

namespace Value

/-- The value of a number or truth value. -/
def magnitude? : Value → Option Magnitude
  | .bool b => some (.ofInt (if b then 1 else 0))
  | .int n => some (.ofInt n)
  | .double x => Magnitude.ofDouble? x
  | _ => none

/-- The two values are equal numbers. -/
def sameNumber (v w : Value) : Bool :=
  match v.magnitude?, w.magnitude? with
  | some a, some b => a.same b
  | _, _ => false

/-- The two values are numbers, and the first is below the second. -/
def less (v w : Value) : Bool :=
  match v.magnitude?, w.magnitude? with
  | some a, some b => a.less b
  | _, _ => false

/-- The value counts as true: it is not absent, false, zero or empty. -/
def holds : Value → Bool
  | .null => false
  | .text s => !s.isEmpty
  | .list items => !items.isEmpty
  | .record fields => !fields.isEmpty
  | v => !v.sameNumber (.int 0)

mutual

/-- The two values count as equal. -/
def same : Value → Value → Bool
  | .null, w => w.kind == .null
  | .text s, .text t => s == t
  | .list items, .list others => sameItems items others
  | .record fields, .record others =>
    fields.length == others.length && sameFields fields others
  | .bool b, w => sameNumber (.bool b) w
  | .int n, w => sameNumber (.int n) w
  | .double x, w => sameNumber (.double x) w
  | _, _ => false

/-- The items of two lists are equal one by one. -/
def sameItems : List Value → List Value → Bool
  | [], [] => true
  | v :: items, w :: others => v.same w && sameItems items others
  | _, _ => false

/-- Every field of the first record has an equal one in the second. -/
def sameFields : List (String × Value) → List (String × Value) → Bool
  | [], _ => true
  | (key, v) :: fields, others =>
    (match others.lookup key with
      | some w => v.same w
      | none => false) && sameFields fields others

end

end Value

end Acceptor
