import Acceptor.Decimal.Binary64

/-!
# Plain values

A `Value` is data as a document holds it, before anything is known about its shape: grammar
descriptors, names and tokens arrive as values.  `Value.Kind` names the shapes, `Value.field?`
looks up a field of a record and `Value.elements?` lists what stands inside a value.

Texts, also those of keys, are sequences of Unicode characters; a document that escapes a lone
surrogate has no value here.
-/

namespace Acceptor

/-- A text that is not empty: what names a nonterminal or spells a literal. -/
abbrev Label := { s : String // s ≠ "" }

/-- Plain data. -/
inductive Value where
  /-- The absent value. -/
  | null
  /-- A truth value. -/
  | bool (b : Bool)
  /-- A whole number. -/
  | int (n : Int)
  /-- A double precision number. -/
  | double (x : Decimal.Binary64)
  /-- A text. -/
  | text (s : String)
  /-- A list of values. -/
  | list (items : List Value)
  /-- Named fields. -/
  | record (fields : List (String × Value))
  deriving Inhabited

namespace Value

/-- The shapes of values. -/
inductive Kind where
  | null
  | bool
  | int
  | double
  | text
  | list
  | record
  deriving Repr, DecidableEq

/-- The word for a shape in messages. -/
def Kind.name : Kind → String
  | .null => "NoneType"
  | .bool => "bool"
  | .int => "int"
  | .double => "float"
  | .text => "str"
  | .list => "list"
  | .record => "dict"

/-- The shape of a value. -/
def kind : Value → Kind
  | .null => .null
  | .bool _ => .bool
  | .int _ => .int
  | .double _ => .double
  | .text _ => .text
  | .list _ => .list
  | .record _ => .record

/-- A field of a record; other values have none. -/
def field? (v : Value) (key : String) : Option Value :=
  match v with
  | .record fields => fields.lookup key
  | _ => none

/-- What stands inside a value: the items of a list, the characters of a text, the keys of a
record.  Other values have no inside. -/
def elements? : Value → Option (List Value)
  | .list items => some items
  | .text s => some (s.toList.map fun c => .text (String.singleton c))
  | .record fields => some (fields.map fun f => .text f.1)
  | _ => none

/-- The items of a list; other values have none. -/
def items : Value → List Value
  | .list items => items
  | _ => []

/-- The items of the list under a key. -/
def itemsAt (v : Value) (key : String) : List Value := ((v.field? key).getD .null).items

/-- The text of a text value that is not empty. -/
def label? : Value → Option Label
  | .text s => if h : s = "" then none else some ⟨s, h⟩
  | _ => none

theorem label?_eq_some {v : Value} {l : Label} : v.label? = some l ↔ v = .text l := by
  cases v with
  | text s =>
    by_cases h : s = ""
    · simp only [label?, h, ↓reduceDIte, reduceCtorEq, text.injEq, false_iff]
      exact fun hl => l.2 hl.symm
    · simp [label?, h, Subtype.ext_iff]
  | _ => simp [label?]

end Value

end Acceptor
