import Acceptor.Ascending
import Acceptor.Recognition.Memo
import Acceptor.Symbol

/-!
# Derivations under way

The alternatives of a name are explored one after the other, and each of them symbol by symbol: all
positions that one symbol reaches are the starts of the next.  A terminal is tried at every start
at once.  A reference needs the answer of a sub-problem for every start, so the derivation pauses
at the first of them, and `resume` goes on when the answer is there.

Everything a paused derivation has to remember is plain data: the ends found by earlier
alternatives, the alternatives that are left, and within the current alternative the starts that
are left, the positions reached so far and the symbols that are left.
-/

namespace Acceptor

/-- One try to match a terminal. -/
structure Attempt where
  /-- The terminal. -/
  terminal : Symbol
  /-- Where it was tried. -/
  position : Nat
  /-- It matched the token there. -/
  matched : Bool
  deriving DecidableEq

/-- A derivation within an alternative, waiting at a reference. -/
structure Pause where
  /-- The name referred to. -/
  name : String
  /-- The start that the answer is awaited for. -/
  asked : Nat
  /-- The starts to ask for after it. -/
  later : List Nat
  /-- The positions reached from the starts before it. -/
  reached : List Nat
  /-- The symbols behind the reference. -/
  rest : Alternative
  deriving DecidableEq

/-- A derivation that waits for an answer. -/
structure Waiting where
  /-- The ends found by the alternatives explored so far. -/
  ends : List Nat
  /-- The alternatives still to be explored. -/
  alternatives : List Alternative
  /-- The state of the current one. -/
  pause : Pause
  deriving DecidableEq

/-- The sub-problem whose answer a derivation waits for. -/
def Waiting.request (d : Waiting) : SubProblem := ⟨d.pause.name, d.pause.asked⟩

/-- What walking along the symbols of an alternative comes to. -/
inductive Walk where
  /-- The whole alternative derives the tokens up to these positions. -/
  | through (positions : List Nat)
  /-- It waits at a reference. -/
  | waits (pause : Pause)
  deriving DecidableEq

/-- What exploring alternatives comes to. -/
inductive Progress where
  /-- The derivations end at these positions. -/
  | finished (ends : List Nat)
  /-- An answer is needed first. -/
  | waits (d : Waiting)
  deriving DecidableEq

namespace Derivation

variable (tokens : Array String) (reserved : List String)

/-- Try a terminal at a position; behind the last token nothing matches. -/
def attempt (s : Symbol) (position : Nat) : Attempt :=
  ⟨s, position, match tokens[position]? with
    | some token => s.accepts reserved token
    | none => false⟩

/-- The positions behind the tokens that were matched. -/
def advanced (tried : List Attempt) : List Nat :=
  (tried.filter Attempt.matched).map fun a => a.position + 1

/-- Walk along symbols from ascending starts. -/
def walk : Alternative → List Nat → List Attempt × Walk
  | [], starts => ([], .through starts)
  | s :: rest, starts =>
    match s with
    | .empty => walk rest starts
    | .nonterminal name =>
      match starts with
      | [] => walk rest []
      | start :: later => ([], .waits ⟨name.val, start, later, [], rest⟩)
    | s =>
      let tried := starts.map (attempt tokens reserved s)
      let (more, result) := walk rest (advanced tried)
      (tried ++ more, result)

/-- Explore alternatives from `origin`; `ends` are those found before. -/
def explore (origin : Nat) (ends : List Nat) : List Alternative → List Attempt × Progress
  | [] => ([], .finished ends)
  | a :: alternatives =>
    match walk tokens reserved a [origin] with
    | (tried, .waits pause) => (tried, .waits ⟨ends, alternatives, pause⟩)
    | (tried, .through positions) =>
      let (more, result) := explore origin (Ascending.union ends positions) alternatives
      (tried ++ more, result)

/-- Go on with the answer of the sub-problem waited for. -/
def resume (origin : Nat) (d : Waiting) (answer : List Nat) : List Attempt × Progress :=
  let reached := Ascending.union d.pause.reached answer
  match d.pause.later with
  | start :: later =>
    ([], .waits { d with pause := { d.pause with asked := start, later := later, reached := reached } })
  | [] =>
    match walk tokens reserved d.pause.rest reached with
    | (tried, .waits pause) => (tried, .waits { d with pause := pause })
    | (tried, .through positions) =>
      let (more, result) :=
        explore tokens reserved origin (Ascending.union d.ends positions) d.alternatives
      (tried ++ more, result)

end Derivation

end Acceptor
