import Acceptor.Text.Quoted

/-!
# Cyclic grammars

A nonterminal that derives itself again at the same position, with no token in between, has no
well-founded derivation there.  `CyclicGrammar` reports such a nonterminal.
-/

namespace Acceptor

/-- The report of a nonterminal that derives itself without consuming a token. -/
structure CyclicGrammar where
  /-- The nonterminal. -/
  nonterminal : String
  /-- Where it derives itself. -/
  position : Int
  /-- The nonterminals on the way from it back to it. -/
  cycle : List String
  deriving Repr, DecidableEq

namespace CyclicGrammar

/-- The report with the way given by `names`; no names stand for the shortest way. -/
def ofNames (nonterminal : String) (position : Int) (names : List String) : CyclicGrammar :=
  ⟨nonterminal, position, if names.isEmpty then [nonterminal, nonterminal] else names⟩

/-- The wording of the report. -/
def message (c : CyclicGrammar) : String :=
  "Nonterminal " ++ Text.quoted c.nonterminal ++ " derives itself at position " ++
    toString c.position ++ " without consuming input: " ++ String.intercalate " -> " c.cycle

end CyclicGrammar

end Acceptor
