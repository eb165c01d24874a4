import Acceptor.Recognition.Stats
import Acceptor.Token.Stream

/-!
# Results of recognition

A `Verdict` says whether an input belongs to the language of a grammar and, if not, where and why
it fails.  A `Result` is a verdict with the counters of the run.
-/

namespace Acceptor

/-- Whether an input belongs to the language. -/
inductive Verdict where
  /-- It does; it has this many tokens. -/
  | accepted (length : Int)
  /-- It does not.  Nothing gets further than this position; `token` is what stands there, if
  anything, and `expected` is what would have been accepted. -/
  | rejected (position : Int) (token : Option String) (expected : List String)
  deriving Repr, DecidableEq

namespace Verdict

/-- The input belongs to the language. -/
def isAccepted : Verdict → Bool
  | .accepted _ => true
  | .rejected _ _ _ => false

/-- How messages show a token, or the end of input. -/
def found : Option String → String
  | some token => "\x22" ++ token ++ "\x22"
  | none => endOfInput

/-- The verdict in words. -/
def message : Verdict → String
  | .accepted length => "accepted (" ++ toString length ++ " tokens)"
  | .rejected position token expected =>
    "rejected at position " ++ toString position ++ ": found " ++ found token ++
      if expected.isEmpty then "" else ", expected " ++ String.intercalate " or " expected

/-- How messages show a verdict. -/
def render : Verdict → String
  | .accepted length => "Accepted(length=" ++ toString length ++ ")"
  | .rejected position token expected =>
    "Rejected(frontier_position=" ++ toString position ++ ", frontier_token=" ++
      ((token.map Text.quoted).getD "None") ++ ", expected=" ++
      Text.tupled (expected.map Text.quoted) ++ ")"

end Verdict

/-- A verdict with the counters of the run. -/
structure Result where
  /-- The verdict. -/
  verdict : Verdict
  /-- The counters. -/
  stats : Stats := {}

end Acceptor
