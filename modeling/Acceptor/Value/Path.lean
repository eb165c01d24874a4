/-!
# Paths into a value

A `Path` leads from a value to one inside it, through fields and list indices.  Messages locate
faults by `Path.render`.
-/

namespace Acceptor

/-- One step of a path. -/
inductive Path.Step where
  /-- Into a field of a record. -/
  | field (name : String)
  /-- Into a list. -/
  | index (i : Int)
  deriving Repr, DecidableEq

/-- The way from a value to one inside it. -/
abbrev Path := List Path.Step

namespace Path

/-- The text of a path, continued by one step: a field follows a point, unless it comes first. -/
def append (text : String) : Step → String
  | .index i => text ++ "[" ++ toString i ++ "]"
  | .field name => if text = "" then name else text ++ "." ++ name

/-- The text of a path. -/
def render (p : Path) : String := p.foldl append ""

end Path

end Acceptor
