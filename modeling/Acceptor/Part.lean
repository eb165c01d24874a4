import Acceptor.Symbol
import Acceptor.Value.Equality

/-!
# Parts

A part is what may be given where a symbol is expected: a symbol, or a plain value that turns out
to be none.
-/

namespace Acceptor

/-- What may be given where a symbol is expected. -/
inductive Part where
  /-- A symbol. -/
  | symbol (s : Symbol)
  /-- A plain value. -/
  | value (v : Value)

namespace Part

/-- The part is a terminal. -/
def isTerminal : Part → Bool
  | .symbol s => s.isTerminal
  | .value _ => false

/-- The part as plain text; a text stands for itself. -/
def text : Part → String
  | .symbol s => s.text
  | .value (.text t) => t
  | .value v => v.render

/-- How messages show a part. -/
def render : Part → String
  | .symbol s => s.render
  | .value v => v.render

/-- The record by which descriptors give a part; what is no symbol is given as the empty marker. -/
def toValue : Part → Value
  | .symbol s => s.toValue
  | .value _ => Symbol.toValue .empty

/-- The two parts count as equal; a symbol never equals a plain value. -/
def same : Part → Part → Bool
  | .symbol s, .symbol t => decide (s = t)
  | .value v, .value w => v.same w
  | _, _ => false

end Part

end Acceptor
