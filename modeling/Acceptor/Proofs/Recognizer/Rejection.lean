import Acceptor.Proofs.Recognizer.Outcome
import Mathlib.Order.Bounds.Basic

/-!
# What a rejection says

A rejection names the furthest position that any leftmost derivation gets to, and what it expects
there is exactly what stands next in the derivations that get there, with the end of input if one of
them is over (`Recognizer.recognize_rejected`).

At that position every terminal that stands next has failed: one that matched would have led
further.  So the failures that were recorded there leave none of them out.
-/

namespace Acceptor

theorem Symbol.text_ne_endOfInput {s : Symbol} (h : s.isTerminal = true) : s.text ≠ endOfInput := by
  intro he
  have hhead := congrArg (fun t => t.toList.head?) he
  cases s with
  | literal t => simp [text, endOfInput] at hhead
  | lexical c => simp [text, endOfInput] at hhead
  | nonterminal name => cases h
  | empty => cases h

namespace Search

variable {g : Grammar} {w : TokenStream} {run : Run} {ends : List ℕ} {p : ℕ}

theorem Complete.getLast?_eq_some_iff (h : Complete g w run ends)
    (hp : IsGreatest {q | g.Gets w q} p) :
    ends.getLast? = some p ↔ g.Generates g.start (w.tokens.take p) := by
  have hmem : p ∈ ends ↔ g.Generates g.start (w.tokens.take p) := by
    rw [h.mem_ends, and_iff_right hp.1.1]
  rw [← hmem]
  refine ⟨List.mem_of_getLast?, fun hpe => ?_⟩
  obtain ⟨m, hm, hpm⟩ := Ascending.exists_getLast?_ge h.isAscending hpe
  have hme : m ∈ ends := List.mem_of_getLast? hm
  rw [h.ends_eq, SubProblem.mem_ends] at hme
  rw [hm, le_antisymm (hp.2 (Grammar.gets_of_start_endsAt hme)) hpm]

/-- What is recorded at the furthest position is what stands next there. -/
theorem Complete.mem_allRecords_of_isGreatest (h : Complete g w run ends)
    (hp : IsGreatest {q | g.Gets w q} p) {t : String} :
    ((p : ℤ), t) ∈ run.allRecords ends ↔
      (∃ s x, s.isTerminal = true ∧ t = s.text ∧
          g.Leftmost [g.startSymbol] (w.tokens.take p) (s :: x)) ∨
        (t = endOfInput ∧ g.Generates g.start (w.tokens.take p)) := by
  rw [mem_allRecords, h.mem_records, ← h.getLast?_eq_some_iff hp, or_comm]
  refine or_congr ⟨?_, ?_⟩ ⟨?_, ?_⟩
  · rintro ⟨s, q, hs, hpq, rfl⟩
    obtain rfl := Int.ofNat.inj hpq
    obtain ⟨hterminal, x, hx⟩ := (Grammar.stuck_iff_of_isGreatest hp).1 hs
    exact ⟨s, x, hterminal, rfl, hx⟩
  · rintro ⟨s, x, hterminal, rfl, hx⟩
    exact ⟨s, p, (Grammar.stuck_iff_of_isGreatest hp).2 ⟨hterminal, x, hx⟩, rfl, rfl⟩
  · rintro ⟨q, hq, hpq, rfl⟩
    obtain rfl := Int.ofNat.inj hpq
    exact ⟨rfl, hq⟩
  · rintro ⟨rfl, hq⟩
    exact ⟨p, hq, rfl, rfl⟩

/-- The position that is reported is the greatest one. -/
theorem Complete.reported_position_eq (h : Complete g w run ends)
    (hp : IsGreatest {q | g.Gets w q} p) (collect : Bool) :
    (run.reported ends collect).position = some (p : ℤ) := by
  obtain ⟨q, hq, hgreatest⟩ := h.reported_position collect
  rw [hq, hgreatest.unique hp]

theorem Complete.mem_expected (h : Complete g w run ends) (hp : IsGreatest {q | g.Gets w q} p)
    {t : String} :
    t ∈ (run.reported ends true).expected ↔ ((p : ℤ), t) ∈ run.allRecords ends := by
  rw [(run.reported_holds ends true).expected, h.reported_position_eq hp]
  simp

theorem Complete.expected_ne_nil (h : Complete g w run ends) (hp : IsGreatest {q | g.Gets w q} p) :
    (run.reported ends true).expected ≠ [] := by
  obtain ⟨t, ht⟩ := (run.reported_holds ends true).attained p (h.reported_position_eq hp true)
  exact List.ne_nil_of_mem ((h.mem_expected hp).2 ht)

end Search

namespace Recognizer

open Search

variable {r : Recognizer} {clock : Clock} {w : TokenStream} {result : Result} {position : ℤ}
  {token : Option String} {expected : List String}

/-- **What a rejection says.**  Its position is the furthest that any leftmost derivation gets to,
and the token is the one that stands there.  If expectations are collected, they are the texts of
the terminals that stand next in the derivations that get there, and the end of input if the start
symbol derives the tokens in front; if not, there are none, and all the rest is the same. -/
theorem recognize_rejected (h : (r.recognize clock w).outcome = .ok result)
    (hv : result.verdict = .rejected position token expected) :
    ∃ p : ℕ, position = p ∧ IsGreatest {q | r.grammar.Gets w q} p ∧ token = w.tokens[p]? ∧
      (r.settings.collects = true →
        IsAscending expected ∧ expected ≠ [] ∧
          (∀ t, t ∈ expected ↔
            (∃ s x, s.isTerminal = true ∧ t = s.text ∧
                r.grammar.Leftmost [r.grammar.startSymbol] (w.tokens.take p) (s :: x)) ∨
              (t = endOfInput ∧ r.grammar.Generates r.grammar.start (w.tokens.take p))) ∧
          (endOfInput ∈ expected ↔ r.grammar.Generates r.grammar.start (w.tokens.take p))) ∧
      (r.settings.collects = false → expected = []) ∧
      ∀ settings : Settings, settings.collects = false →
        (recognize ⟨r.grammar, settings⟩ clock w).outcome =
          .ok ⟨.rejected position token [], result.stats⟩ := by
  obtain ⟨ends, hs, hc, hverdict, hresult⟩ := complete_of_recognize h
  rw [hv] at hverdict
  have hnot : w.length ∉ ends := by
    intro hmem
    rw [verdict_of_mem hmem] at hverdict
    cases hverdict
  obtain ⟨p, hp, hrejected⟩ := verdict_of_not_mem hc hnot
  obtain ⟨rfl, rfl, rfl⟩ := Verdict.rejected.inj (Except.ok.inj (hverdict.symm.trans hrejected))
  refine ⟨p, rfl, hp, rfl, fun hcollect => ?_, fun hcollect => ?_, fun settings hcollect => ?_⟩
  · rw [hcollect]
    have hmem : ∀ t, t ∈ ((r.search w).1.reported ends true).expected ↔ _ := fun t =>
      (hc.mem_expected hp).trans (hc.mem_allRecords_of_isGreatest hp)
    refine ⟨((r.search w).1.reported_holds ends true).ascending, hc.expected_ne_nil hp, hmem, ?_⟩
    rw [hmem, and_iff_right rfl]
    refine or_iff_right ?_
    rintro ⟨s, x, hterminal, hs, -⟩
    exact Symbol.text_ne_endOfInput hterminal hs.symm
  · have hholds := (r.search w).1.reported_holds ends r.settings.collects
    rw [hcollect] at hholds ⊢
    exact hholds.eq_nil_of_not_collect
  · obtain ⟨q, hq, hrejected'⟩ := verdict_of_not_mem (r := ⟨r.grammar, settings⟩) hc hnot
    obtain rfl := hq.unique hp
    have hholds := (r.search w).1.reported_holds ends settings.collects
    rw [hcollect] at hholds
    rw [hcollect, hholds.eq_nil_of_not_collect] at hrejected'
    rw [recognize_of_verdict (r := ⟨r.grammar, settings⟩) clock hs hrejected', hresult]
    rfl

/-- An opening parenthesis alone. -/
def opening : TokenStream := .ofText "("

theorem recognize_rejected_opening :
    (∃ result, (recognize ⟨nested, {}⟩ (.start 1) opening).outcome = .ok result ∧
        result.verdict = .rejected 1 none ["\x22(\x22", "\x22)\x22"]) ∧
      IsGreatest {q | nested.Gets opening q} 1 := by
  have hjudge : judge ⟨nested, {}⟩ opening =
      .ok ⟨.rejected 1 none ["\x22(\x22", "\x22)\x22"], 2, 3, 2⟩ := by decide
  have hok := recognize_outcome ⟨nested, {}⟩ (.start 1) opening
  rw [hjudge] at hok
  obtain ⟨p, hp, hgreatest, -⟩ := recognize_rejected hok rfl
  obtain rfl : 1 = p := Int.ofNat.inj hp
  exact ⟨⟨_, hok, rfl⟩, hgreatest⟩

end Recognizer

end Acceptor
