import Acceptor.Grammar.Basic
import Acceptor.Recognition.Cycle
import Acceptor.Recognition.Derivation
import Acceptor.Recognition.Frontier

/-!
# The search

`Search.solve` finds all positions at which the derivations of a name end, for a given start.  It
drives a stack of derivations: the one on top runs until it needs the answer of another sub-problem
or is finished.  A sub-problem that the memo has solved is answered from there; a new one is marked
as being solved and put on the stack; one that is being solved already derives itself without
consuming a token, and ends the search.

* `Search.step` is one turn of this loop on a `Search.State`;
* `Search.Run` is what outlives a search: the memo, the number of solved sub-problems and the
  terminals tried;
* `Search.bound` bounds the number of turns.
-/

namespace Acceptor

namespace Search

/-! ### States -/

/-- How far a derivation on the stack has come. -/
inductive Stage where
  /-- It has not begun. -/
  | fresh
  /-- It waits for an answer. -/
  | waiting (d : Waiting)
  deriving DecidableEq

/-- A derivation on the stack. -/
structure Frame where
  /-- The sub-problem it solves. -/
  key : SubProblem
  /-- How far it has come. -/
  stage : Stage
  deriving DecidableEq

/-- What outlives a search. -/
structure Run where
  /-- What is known of sub-problems. -/
  memo : Memo
  /-- How often a sub-problem was solved. -/
  solved : Nat
  /-- The terminals tried, the latest first. -/
  attempts : List Attempt
  deriving DecidableEq

/-- A run before its first search. -/
def Run.fresh : Run := ⟨.empty, 0, []⟩

/-- The attempts that failed. -/
def Run.failures (r : Run) : List Attempt := r.attempts.filter fun a => !a.matched

/-- The failure frontier of a run. -/
def Run.frontier (r : Run) (collect : Bool) : Frontier :=
  r.failures.foldr (fun a f => f.record a.position a.terminal.text) (.start collect)

/-- The state of a search. -/
structure State where
  /-- What outlives the search. -/
  run : Run
  /-- The derivations under way, the one that runs first. -/
  stack : List Frame
  /-- The answer that the running derivation waits for. -/
  reply : Option (List Nat)
  deriving DecidableEq

/-- Why a search ends without an answer. -/
inductive Failure where
  /-- A nonterminal derives itself without consuming a token. -/
  | cyclic (c : CyclicGrammar)
  /-- A sub-problem is marked as being solved, but an earlier search has left it so. -/
  | abandoned (k : SubProblem)
  /-- No rule has this name. -/
  | undeclared (name : String)
  /-- A derivation that waits for an answer goes on without one. -/
  | unanswered
  /-- A derivation that has not begun is given an answer. -/
  | unasked
  /-- The bound on the number of turns was too low. -/
  | unfinished
  deriving Repr, DecidableEq

/-- The wording of a failure. -/
def Failure.message : Failure → String
  | .cyclic c => c.message
  | .abandoned k =>
    Text.tupled [Text.quoted k.name, toString k.position] ++ " is not in list"
  | .undeclared name => Text.quoted name
  | .unanswered => "unsupported operand type(s) for |=: 'set' and 'NoneType'"
  | .unasked => "can't send non-None value to a just-started generator"
  | .unfinished => "the search did not come to an end"

/-- What one turn comes to. -/
inductive Move where
  /-- The search goes on. -/
  | next (s : State)
  /-- The search has ended. -/
  | stop (run : Run) (result : Except Failure (List Nat))

/-! ### One turn -/

/-- The names from the first derivation of `k` on the stack up to the running one, and back to
`k`. -/
def cycleTo (stack : List Frame) (k : SubProblem) : Option (List String) :=
  match (stack.reverse.map Frame.key).dropWhile fun key => key != k with
  | [] => none
  | keys => some (keys.map SubProblem.name ++ [k.name])

/-- The failure of asking for a sub-problem that is being solved. -/
def reentry (stack : List Frame) (k : SubProblem) : Failure :=
  match cycleTo stack k with
  | some names => .cyclic (.ofNames k.name k.position names)
  | none => .abandoned k

variable (g : Grammar) (tokens : Array String) (reserved : List String)

/-- Let a derivation run.  One that waits has to be given a reply, and one that has not begun must
not be given any. -/
def Frame.advance (f : Frame) (reply : Option (List Nat)) :
    Except Failure (List Attempt × Progress) :=
  match f.stage, reply with
  | .waiting d, some answer => .ok (Derivation.resume tokens reserved f.key.position d answer)
  | .waiting _, none => .error .unanswered
  | .fresh, some _ => .error .unasked
  | .fresh, none =>
    match g.alternatives? f.key.name with
    | some alternatives => .ok (Derivation.explore tokens reserved f.key.position [] alternatives)
    | none => .error (.undeclared f.key.name)

/-- One turn: the derivation on top of the stack runs until it is finished or needs an answer. -/
def step (s : State) : Move :=
  match s.stack with
  | [] => .stop s.run (.ok (s.reply.getD []))
  | frame :: below =>
    match frame.advance g tokens reserved s.reply with
    | .error failure => .stop s.run (.error failure)
    | .ok (tried, progress) =>
      let run := { s.run with attempts := tried.reverse ++ s.run.attempts }
      match progress with
      | .finished ends =>
        .next ⟨{ run with
          memo := run.memo.set frame.key (.solved ends), solved := run.solved + 1 }, below, some ends⟩
      | .waits d =>
        let stack := ⟨frame.key, .waiting d⟩ :: below
        match run.memo.get? d.request with
        | some .inProgress => .stop run (.error (reentry stack d.request))
        | some (.solved ends) => .next ⟨run, stack, some ends⟩
        | none =>
          .next ⟨{ run with memo := run.memo.set d.request .inProgress },
            ⟨d.request, .fresh⟩ :: stack, none⟩

/-- At most `fuel` turns. -/
def loop : Nat → State → Run × Except Failure (List Nat)
  | 0, s => (s.run, .error .unfinished)
  | fuel + 1, s =>
    match step g tokens reserved s with
    | .stop run result => (run, result)
    | .next s => loop fuel s

/-! ### Whole searches -/

/-- How many turns a derivation of a rule takes at most, if there are `width` positions: one for
each reference and position, and one to finish. -/
def ruleBound (width : Nat) (r : Rule) : Nat := width * r.references.length + 1

/-- How many turns a search takes at most that starts at `position`: every sub-problem is solved
once, and the first one perhaps once more. -/
def bound (length position : Nat) : Nat :=
  let width := max length position + 1
  (width + 1) * g.rules.foldr (fun r turns => ruleBound width r + turns) 0 + 2

/-- The state in which the search for `k` begins. -/
def init (run : Run) (k : SubProblem) : State :=
  ⟨{ run with memo := run.memo.set k .inProgress }, [⟨k, .fresh⟩], none⟩

/-- The ends of all derivations of the name of `k` from its position.  The sub-problem itself is
solved anew even if the run has solved it before. -/
def solve (g : Grammar) (w : TokenStream) (run : Run) (k : SubProblem) :
    Run × Except Failure (List Nat) :=
  loop g w.tokens.toArray g.reserved (bound g w.length k.position) (init run k)

end Search

end Acceptor
