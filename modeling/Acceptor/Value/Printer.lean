import Acceptor.Value.Basic
import Acceptor.Text.Quoted
import Acceptor.Text.Listing
import Acceptor.Decimal.Shortest

/-!
# The text of a value

`Value.render` writes a value on one line, the way messages show it: texts quoted, lists in
brackets, records in braces, doubles with the fewest digits that read back.

Every whole number is written, however long it is: the limit of 4300 digits that a run time may set
for writing a number, and for reading it, is no part of this.
-/

namespace Acceptor

namespace Value

/-- Doubles are written positionally from a ten thousandth up to sixteen digits, and with an
exponent of two digits outside. -/
def doubleLayout : Decimal.Layout where
  positionalFrom := -4
  positionalBelow := 16
  exponentWidth := 2
  infinity := "inf"
  undefined := "nan"

mutual

/-- The text of a value. -/
def render : Value → String
  | .null => "None"
  | .bool b => if b then "True" else "False"
  | .int n => toString n
  | .double x => doubleLayout.render x
  | .text s => Text.quoted s
  | .list items => Text.bracketed (renderItems items)
  | .record fields => "\x7b" ++ Text.commas (renderFields fields) ++ "\x7d"

/-- The texts of the items of a list. -/
def renderItems : List Value → List String
  | [] => []
  | v :: items => v.render :: renderItems items

/-- The texts of the fields of a record. -/
def renderFields : List (String × Value) → List String
  | [] => []
  | (key, v) :: fields => (Text.quoted key ++ ": " ++ v.render) :: renderFields fields

end

end Value

end Acceptor
