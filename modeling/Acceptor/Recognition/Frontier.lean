import Acceptor.Ascending
import Acceptor.Token.Stream

/-!
# The failure frontier

The frontier of a search is the furthest position at which something expected was not there, with
the texts of all that was expected at that position.
-/

namespace Acceptor

/-- The furthest failure so far. -/
@[ext] structure Frontier where
  /-- Whether expectations are collected. -/
  collect : Bool
  /-- The furthest position, if anything failed. -/
  position : Option Int
  /-- What was expected there, in ascending order. -/
  expected : List String
  deriving Repr, DecidableEq

namespace Frontier

/-- Nothing failed yet. -/
def start (collect : Bool) : Frontier := ⟨collect, none, []⟩

/-- The frontier with a single failure. -/
def only (collect : Bool) (position : Int) (text : String) : Frontier :=
  ⟨collect, some position, if collect then [text] else []⟩

/-- Note that `text` was expected at `position` in vain. -/
def record (f : Frontier) (position : Int) (text : String) : Frontier :=
  match f.position with
  | none => only f.collect position text
  | some furthest =>
    if furthest < position then only f.collect position text
    else if position = furthest ∧ f.collect then
      { f with expected := Ascending.insert text f.expected }
    else f

/-- Note that a derivation ended at `position` although tokens are left. -/
def recordEnd (f : Frontier) (position : Int) : Frontier := f.record position endOfInput

/-- The furthest position; zero if nothing failed. -/
def resolved (f : Frontier) : Int := f.position.getD 0

end Frontier

end Acceptor
