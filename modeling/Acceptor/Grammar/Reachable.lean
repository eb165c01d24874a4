import Acceptor.Grammar.Basic
import Acceptor.Log

/-!
# Rules that the start symbol reaches

References are followed from the start symbol with two lists of names: those seen so far, and among
them those whose rules have still to be looked up (`Grammar.Exploration`).

* `Grammar.turn` is one turn: it looks up the rule of a pending name and adds what it mentions;
* `Grammar.explore` takes turns until nothing is pending;
* `Grammar.unreachable` lists the declared names that are not seen in the end;
* `Grammar.construct` builds a grammar, and reports such names in the log.
-/

namespace Acceptor

namespace Grammar

/-- How far references were followed. -/
structure Exploration where
  /-- The names seen so far. -/
  seen : List String
  /-- Those of them whose rules were not looked up yet, the next one first. -/
  pending : List String
  deriving Repr, DecidableEq

namespace Exploration

/-- Only this name is seen, and nothing was looked up. -/
def start (name : String) : Exploration := ⟨[name], [name]⟩

/-- Names are mentioned: the new ones are seen and pending from now on. -/
def discover : Exploration → List String → Exploration
  | e, [] => e
  | e, name :: names =>
    if name ∈ e.seen then discover e names
    else discover ⟨name :: e.seen, name :: e.pending⟩ names

/-- Why references were not followed to their end. -/
inductive Failure where
  /-- A look-up failed. -/
  | lookup (e : LookupError)
  /-- The bound on the number of turns was too low. -/
  | unfinished

/-- The wording of a failure. -/
def Failure.message : Failure → String
  | .lookup e => e.message
  | .unfinished => "the references were not followed to their end"

end Exploration

variable (g : Grammar)

/-- One turn: the rule of the next pending name is looked up, and what it mentions is added.  There
is no turn when nothing is pending. -/
def turn (e : Exploration) : Except LookupError (Option Exploration) :=
  match e.pending with
  | [] => .ok none
  | name :: pending => do
    let r ← g.lookup (.text name)
    return some (Exploration.discover ⟨e.seen, pending⟩ r.references)

/-- The names seen when nothing is pending any more, after at most `fuel` turns. -/
def explore : Nat → Exploration → Except Exploration.Failure (List String)
  | 0, _ => .error .unfinished
  | fuel + 1, e =>
    match g.turn e with
    | .error failed => .error (.lookup failed)
    | .ok none => .ok e.seen
    | .ok (some e') => explore fuel e'

/-- The names to which references lead from the start symbol.  A name is pending once at most, so
the last turn finds nothing pending. -/
def reached : Except Exploration.Failure (List String) :=
  g.explore (g.rules.length + 1) (.start g.start)

/-- The declared names to which no references lead from the start symbol, in order. -/
def unreachable : Except Exploration.Failure (List String) := do
  let seen ← g.reached
  return g.names.filter fun name => name ∉ seen

/-! ### Construction -/

/-- Why nothing is built. -/
inductive ConstructionError where
  /-- The components make no grammar. -/
  | fault (f : GrammarFault)
  /-- Its references cannot be followed. -/
  | exploration (f : Exploration.Failure)

/-- The warning that names are unreachable, if there are any. -/
def unreachableLog (start : String) (names : List String) : List LogEntry :=
  if names.isEmpty then []
  else
    [⟨.grammar, .warning,
      "Rules not reachable from start symbol " ++ Text.quoted start ++ ": " ++ Text.commas names⟩]

/-- Build the grammar of some components and a value that names the start symbol, and log which of
its names are unreachable. -/
def construct (components : List Component) (start : Value) :
    Except ConstructionError (Grammar × List LogEntry) := do
  let g ← (ofComponents components start).mapError .fault
  let names ← g.unreachable.mapError .exploration
  return (g, unreachableLog g.start names)

end Grammar

end Acceptor
