import Acceptor.Proofs.Recognizer.Outcome

/-!
# What the report of a cycle says

A recognition that fails reports a nonterminal, a position and a way of names from the nonterminal
back to it (`CyclicGrammar`).  `Recognizer.recognize_cycle` says that all of it is true: a leftmost
derivation comes to the nonterminal at that position, and each name on the way has an alternative
that begins with the next one, behind symbols that derive the empty sequence.

The names are cut out of the stack of derivations, which is a circle of sub-problems there
(`Grammar.Circle`).
-/

namespace Acceptor

namespace Recognizer

open Search

variable {r : Recognizer} {clock : Clock} {w : TokenStream} {c : CyclicGrammar}

/-- A report comes from a circle of sub-problems. -/
theorem exists_circle (h : (r.recognize clock w).outcome = .error (.search (.cyclic c))) :
    ∃ k others, c = ⟨k.name, k.position, (k :: others ++ [k]).map SubProblem.name⟩ ∧
      r.grammar.Circle w k others := by
  rcases search_outcome r.grammar w with ⟨ends, hs, hc⟩ | ⟨k, others, hs, hcircle⟩
  · obtain ⟨v, hv⟩ := exists_verdict (r := r) hc
    cases h.symm.trans (recognize_of_verdict clock hs hv)
  · refine ⟨k, others, ?_, hcircle⟩
    have he := h.symm.trans (recognize_of_failure clock hs)
    exact Failure.cyclic.inj (RecognitionError.search.inj (Except.error.inj he))

/-- **What the report of a cycle says.**  Its position lies within the stream.  Its names begin and
end with the nonterminal; besides the last one they are different, and all are declared.  An
alternative of each name has the next one behind symbols that derive the empty sequence.  And a
leftmost derivation comes to the nonterminal at the position. -/
theorem recognize_cycle (h : (r.recognize clock w).outcome = .error (.search (.cyclic c))) :
    0 ≤ c.position ∧ c.position ≤ w.length ∧
      2 ≤ c.cycle.length ∧ c.cycle.head? = some c.nonterminal ∧
      c.cycle.getLast? = some c.nonterminal ∧ c.cycle.dropLast.Nodup ∧
      (∀ name ∈ c.cycle, name ∈ r.grammar.names) ∧
      c.cycle.IsChain r.grammar.LeftCorner ∧
      ∃ name x, name.val = c.nonterminal ∧ r.grammar.Leftmost [r.grammar.startSymbol]
        (w.tokens.take c.position.toNat) (.nonterminal name :: x) := by
  obtain ⟨k, others, rfl, hcircle⟩ := exists_circle h
  have hlast : ((k :: others ++ [k]).map SubProblem.name).dropLast =
      (k :: others).map SubProblem.name := by
    rw [List.map_append, List.map_singleton, List.dropLast_concat]
  have hnames : ∀ name ∈ (k :: others ++ [k]).map SubProblem.name, name ∈ r.grammar.names := by
    intro name hname
    obtain ⟨j, hj, rfl⟩ := List.mem_map.1 hname
    rcases List.mem_append.1 hj with hj | hj
    · exact hcircle.declared hj
    · rw [List.mem_singleton.1 hj]
      exact hcircle.reached.declared
  refine ⟨Int.natCast_nonneg _, Int.ofNat_le.2 hcircle.reached.le, ?_, rfl, ?_, ?_, hnames,
    hcircle.leftCorner, ?_⟩
  · simp
  · rw [List.map_append, List.map_singleton, List.getLast?_concat]
  · rw [hlast]
    exact hcircle.nodup_names
  · exact hcircle.reached.leftmost

/-- Behind a letter, a name that derives itself behind one that derives the empty sequence. -/
def hidden : Grammar where
  rules := [
    ⟨⟨"start", by decide⟩,
      [[.literal ⟨"a", by decide⟩, .nonterminal ⟨"list", by decide⟩]], by decide⟩,
    ⟨⟨"list", by decide⟩,
      [[.nonterminal ⟨"mark", by decide⟩, .nonterminal ⟨"item", by decide⟩]], by decide⟩,
    ⟨⟨"mark", by decide⟩, [[.literal ⟨"!", by decide⟩], [.empty]], by decide⟩,
    ⟨⟨"item", by decide⟩,
      [[.literal ⟨"b", by decide⟩], [.nonterminal ⟨"list", by decide⟩]], by decide⟩]
  start := "start"
  distinct := by decide
  startDeclared := by decide
  closed := by decide

theorem recognize_cycle_hidden :
    (recognize ⟨hidden, {}⟩ (.start 1) (.ofText "a b")).outcome =
        .error (.search (.cyclic ⟨"list", 1, ["list", "item", "list"]⟩)) ∧
      ∃ name x, name.val = "list" ∧
        hidden.Leftmost [hidden.startSymbol] ["a"] (.nonterminal name :: x) := by
  have hsearch : (search ⟨hidden, {}⟩ (.ofText "a b")).2 =
      .error (.cyclic ⟨"list", 1, ["list", "item", "list"]⟩) := by decide
  have ho := recognize_of_failure (.start 1) hsearch
  obtain ⟨-, -, -, -, -, -, -, -, hleftmost⟩ := recognize_cycle ho
  exact ⟨ho, hleftmost⟩

end Recognizer

end Acceptor
