import Acceptor.Proofs.Pruning
import Acceptor.Proofs.Recognizer.Outcome
import Acceptor.Proofs.Search.Agreement

/-!
# Recognition without unreachable rules

Rules that the start symbol does not lead to are never expanded, but the literals in them are
reserved, so that they can still make a word-like class refuse a token.
`Recognizer.recognize_pruned` says what leaving them out changes: nothing on a stream without such
tokens; and on any stream, what was accepted is accepted still, unless the pruned grammar is found
to be cyclic there.
-/

namespace Acceptor

open Relation

/-- The searches for the start symbol agree, on a stream whose tokens are still reserved if they
were before. -/
theorem Grammar.agrees_pruned {g : Grammar} {unused : List String}
    (hunused : g.unreachable = .ok unused) {w : TokenStream}
    (h : ∀ t ∈ w.tokens, t ∈ g.reserved → t ∈ (pruned hunused).reserved) :
    g.Agrees (pruned hunused) w ⟨g.start, 0⟩ where
  attempt := by
    funext s p
    exact attempt_pruned hunused h s p
  alternatives k hk := alternatives?_pruned hunused (leads_of_asks_path hk .refl)

namespace Recognizer

open Search

variable {r : Recognizer} {clock : Clock} {w : TokenStream} {g g' : Grammar} {s : Settings}

theorem isAccepted_iff_generates {result : Result}
    (h : (r.recognize clock w).outcome = .ok result) :
    result.verdict.isAccepted = true ↔ r.grammar.Generates r.grammar.start w.tokens := by
  obtain ⟨ends, -, hc, hv, -⟩ := complete_of_recognize h
  have hmem : w.length ∈ ends ↔ r.grammar.Generates r.grammar.start w.tokens := by
    rw [hc.mem_ends, TokenStream.length, List.take_length]
    exact and_iff_right le_rfl
  rw [← hmem]
  by_cases hlen : w.length ∈ ends
  · rw [← Except.ok.inj ((verdict_of_mem hlen).symm.trans hv)]
    exact iff_of_true rfl hlen
  · obtain ⟨p, -, hrejected⟩ := verdict_of_not_mem hc hlen
    rw [Except.ok.inj (hv.symm.trans hrejected)]
    exact iff_of_false Bool.false_ne_true hlen

/-- **Recognition without unreachable rules.**  The rules that are not reported as unreachable make
a grammar, and in it none is unreachable.  On a stream whose tokens are reserved there, if they were
before, its recognition has the same outcome, but for the time: the same verdict and counters, or
the same cycle.  And on any stream, what was accepted is accepted still or found to be cyclic. -/
theorem recognize_pruned (g : Grammar) :
    ∃ unused g', g.unreachable = .ok unused ∧
      Grammar.ofRules (g.rules.filter fun r => r.name.val ∉ unused) (.text g.start) = .ok g' ∧
      Grammar.construct ((g.rules.filter fun r => r.name.val ∉ unused).map .rule) (.text g.start) =
        .ok (g', []) ∧
      g'.unreachable = .ok [] ∧
      ∀ (s : Settings) (w : TokenStream) (clock clock' : Clock),
        ((∀ t ∈ w.tokens, t ∈ g.reserved → t ∈ g'.reserved) →
          (recognize ⟨g', s⟩ clock' w).outcome.map Result.untimed =
            (recognize ⟨g, s⟩ clock w).outcome.map Result.untimed) ∧
        ∀ result, (recognize ⟨g, s⟩ clock w).outcome = .ok result →
          result.verdict.isAccepted = true →
          (∃ result', (recognize ⟨g', s⟩ clock' w).outcome = .ok result' ∧
              result'.verdict.isAccepted = true) ∨
            ∃ c, (recognize ⟨g', s⟩ clock' w).outcome = .error (.search (.cyclic c)) := by
  obtain ⟨unused, hunused, -⟩ := g.unreachable_eq_ok
  refine ⟨unused, Grammar.pruned hunused, hunused, Grammar.ofRules_pruned hunused,
    Grammar.construct_of_ofComponents (Grammar.ofRules_pruned hunused)
      (Grammar.unreachable_pruned hunused),
    Grammar.unreachable_pruned hunused, fun s w clock clock' => ⟨?_, ?_⟩⟩
  · intro hreserved
    have hsearch : search ⟨Grammar.pruned hunused, s⟩ w = search ⟨g, s⟩ w :=
      solve_eq_of_agrees exact_fresh exact_fresh (Grammar.agrees_pruned hunused hreserved)
    rw [recognize_untimed, recognize_untimed, judge_congr hsearch]
  · intro result hresult haccepted
    have hgen := ((isAccepted_iff_generates hresult).1 haccepted).pruned hunused
    rcases recognize_cases ⟨Grammar.pruned hunused, s⟩ clock' w with
      ⟨ends, v, -, -, -, ho⟩ | ⟨c, k, ho, -⟩
    · exact .inl ⟨_, ho, (isAccepted_iff_generates ho).2 hgen⟩
    · exact .inr ⟨c, ho⟩

/-- A greeting is any name, and the rule that spells a name out is never used. -/
def greeting : Grammar where
  rules := [
    ⟨⟨"greeting", by decide⟩, [[.lexical .identifier]], by decide⟩,
    ⟨⟨"farewell", by decide⟩, [[.literal ⟨"bye", by decide⟩]], by decide⟩]
  start := "greeting"
  distinct := by decide
  startDeclared := by decide
  closed := by decide

/-- The unused rule reserves its literal. -/
example : judge ⟨greeting, {}⟩ (.ofText "bye") =
      .ok ⟨.rejected 0 (some "bye") ["<identifier>"], 1, 1, 1⟩ ∧
    judge ⟨@Grammar.pruned greeting ["farewell"] rfl, {}⟩ (.ofText "bye") =
      .ok ⟨.accepted 1, 1, 1, 0⟩ := by
  decide

theorem recognize_pruned_greeting :
    greeting.unreachable = .ok ["farewell"] ∧
      ∃ g', Grammar.ofRules (greeting.rules.filter fun r => r.name.val ∉ ["farewell"])
          (.text "greeting") = .ok g' ∧
        (recognize ⟨g', {}⟩ (.start 2) (.ofText "hello")).outcome.map Result.untimed =
          .ok ⟨.accepted 1, ⟨1, 1, 0, 0⟩⟩ := by
  have hjudge : judge ⟨greeting, {}⟩ (.ofText "hello") = .ok ⟨.accepted 1, 1, 1, 0⟩ := by decide
  have hfree : ∀ t ∈ (TokenStream.ofText "hello").tokens, t ∉ greeting.reserved := by decide
  have hfarewell : greeting.unreachable = .ok ["farewell"] := rfl
  obtain ⟨unused, g', hunused, hg', -, -, hsame⟩ := recognize_pruned greeting
  cases hfarewell.symm.trans hunused
  obtain ⟨hsame, -⟩ := hsame {} (.ofText "hello") (.start 1) (.start 2)
  refine ⟨hunused, g', hg', ?_⟩
  rw [hsame fun t ht hr => absurd hr (hfree t ht), recognize_untimed, hjudge]
  rfl

end Recognizer

end Acceptor
