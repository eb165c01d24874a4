import Acceptor.Proofs.Recognizer.Rejection
import Acceptor.Proofs.Search.Locality

/-!
# Streams that begin alike

What the recognition of a stream says about other streams with the same first tokens.

* `Recognizer.recognize_rejected_beyond` : **a rejection in front of some token is final.**
  Whatever stands behind the token, the recognition tries nothing there, so it ends with the same
  rejection and the same counters.
* `Recognizer.recognize_beginning` : **the beginnings of an accepted stream are not at fault.**
  Each of them is accepted or rejected for want of more tokens, and none is found to be cyclic.
-/

namespace Acceptor

open Relation

namespace Search

variable {g : Grammar} {w : TokenStream} {run : Run} {ends : List ℕ} {p : ℕ}

theorem complete_of_solve (h : (solve g w .fresh ⟨g.start, 0⟩).2 = .ok ends) :
    Complete g w (solve g w .fresh ⟨g.start, 0⟩).1 ends := by
  rcases search_outcome g w with ⟨ends', hs, hc⟩ | ⟨k, others, hs, -⟩
  · obtain rfl := Except.ok.inj (hs.symm.trans h)
    exact hc
  · cases hs.symm.trans h

/-- Nothing is tried behind the furthest position. -/
theorem Complete.attempt_le (h : Complete g w run ends) (hp : IsGreatest {q | g.Gets w q} p)
    {a : Attempt} (ha : a ∈ run.attempts) : a.position ≤ p := by
  obtain ⟨s, q, -, hocc, rfl⟩ := (h.attempts a).1 ha
  exact hp.2 hocc.gets

theorem Complete.end_le (h : Complete g w run ends) (hp : IsGreatest {q | g.Gets w q} p) {q : ℕ}
    (hq : q ∈ ends) : q ≤ p := by
  rw [h.ends_eq, SubProblem.mem_ends] at hq
  exact hp.2 (Grammar.gets_of_start_endsAt hq)

end Search

theorem TokenStream.getElem?_eq_of_take_prefix {w w' : TokenStream} {p : ℕ} (hp : p < w.length)
    (h : w.tokens.take (p + 1) <+: w'.tokens) {q : ℕ} (hq : q ≤ p) :
    w'.tokens[q]? = w.tokens[q]? := by
  obtain ⟨x, hx⟩ := h
  have hlen : (w.tokens.take (p + 1)).length = p + 1 := List.length_take_of_le hp
  rw [← hx, List.getElem?_append_left (by omega), List.getElem?_take_of_lt (by omega)]

namespace Recognizer

open Search

variable {r : Recognizer} {clock : Clock} {w w' : TokenStream} {result : Result} {position : ℤ}
  {token : Option String} {expected : List String}

/-! ### Judgements -/

theorem recognize_of_judge {j : Judgement} (clock : Clock) (h : r.judge w = .ok j) :
    ∃ elapsed, (r.recognize clock w).outcome = .ok (j.toResult elapsed) := by
  rw [recognize_outcome, h]
  exact ⟨_, rfl⟩

theorem judge_of_recognize (h : (r.recognize clock w).outcome = .ok result) :
    ∃ j elapsed, r.judge w = .ok j ∧ j.toResult elapsed = result := by
  rw [recognize_outcome] at h
  cases hj : r.judge w with
  | error e =>
    rw [hj] at h
    cases h
  | ok j =>
    rw [hj] at h
    exact ⟨j, _, rfl, Except.ok.inj h⟩

/-! ### Behind the position of a rejection -/

theorem verdict_of_isGreatest {ends : List ℕ} {p : ℕ}
    (hc : Complete r.grammar w (r.search w).1 ends) (hp : IsGreatest {q | r.grammar.Gets w q} p)
    (hlt : p < w.length) :
    r.verdict w (r.search w).1 ends = .ok (.rejected p w.tokens[p]?
      ((r.search w).1.reported ends r.settings.collects).expected) := by
  have hnot : w.length ∉ ends := by
    intro hmem
    have := hc.end_le hp hmem
    omega
  obtain ⟨q, hq, hverdict⟩ := verdict_of_not_mem hc hnot
  rw [hverdict, hq.unique hp]

/-- Whatever follows the token that stops all derivations, the judgement is the same. -/
theorem judge_beyond {ends : List ℕ} {p : ℕ} (hs : (r.search w).2 = .ok ends)
    (hp : IsGreatest {q | r.grammar.Gets w q} p) (hlt : p < w.length)
    (hw' : w.tokens.take (p + 1) <+: w'.tokens) :
    r.judge w' = r.judge w ∧ ¬ r.grammar.Generates r.grammar.start w'.tokens := by
  have hc : Complete r.grammar w (r.search w).1 ends := complete_of_solve hs
  have hlt' : p < w'.length := by
    have hlen := hw'.length_le
    rwa [List.length_take_of_le hlt] at hlen
  have hat : ∀ q ≤ p, w'.tokens[q]? = w.tokens[q]? := fun q hq =>
    TokenStream.getElem?_eq_of_take_prefix hlt hw' hq
  -- the two streams agree wherever something was tried, so they are searched alike
  have hsearch : r.search w' = r.search w := by
    refine solve_congr exact_fresh exact_fresh _ fun a ha => ?_
    simpa using hat a.position (hc.attempt_le hp ha)
  have hs' : (r.search w').2 = .ok ends := by rw [hsearch, hs]
  have hc' : Complete r.grammar w' (r.search w').1 ends := complete_of_solve hs'
  have hp' : IsGreatest {q | r.grammar.Gets w' q} p := by
    obtain ⟨q, hq, hgreatest⟩ := hc'.reported_position true
    rw [hsearch, hc.reported_position_eq hp true] at hq
    obtain rfl : p = q := Int.ofNat.inj (Option.some.inj hq)
    exact hgreatest
  have hverdict := verdict_of_isGreatest hc' hp' hlt'
  constructor
  · rw [judge_of_verdict hs' hverdict, judge_of_verdict hs (verdict_of_isGreatest hc hp hlt),
      hsearch, hat p le_rfl]
  · intro hgen
    have hmem : w'.length ∈ ends := by
      refine hc'.mem_ends.2 ⟨le_rfl, ?_⟩
      rwa [TokenStream.length, List.take_length]
    have := hc'.end_le hp' hmem
    omega

/-- The search behind a rejection: its position is the furthest. -/
theorem search_of_rejected (h : (r.recognize clock w).outcome = .ok result)
    (hv : result.verdict = .rejected position token expected) :
    ∃ ends, ∃ p : ℕ, (r.search w).2 = .ok ends ∧ IsGreatest {q | r.grammar.Gets w q} p ∧
      position = p := by
  obtain ⟨ends, hs, hc, hverdict, -⟩ := complete_of_recognize h
  rw [hv] at hverdict
  have hnot : w.length ∉ ends := by
    intro hmem
    rw [verdict_of_mem hmem] at hverdict
    cases hverdict
  obtain ⟨p, hp, hrejected⟩ := verdict_of_not_mem hc hnot
  obtain ⟨hposition, -⟩ := Verdict.rejected.inj (Except.ok.inj (hverdict.symm.trans hrejected))
  exact ⟨ends, p, hs, hp, hposition⟩

/-- **A rejection in front of some token is final.**  Every stream with the same tokens up to and
including that one gets the same rejection, with the same counters; so the start symbol derives none
of them. -/
theorem recognize_rejected_beyond (h : (r.recognize clock w).outcome = .ok result)
    (hv : result.verdict = .rejected position token expected) (hposition : position < w.length)
    (hw' : w.tokens.take (position.toNat + 1) <+: w'.tokens) (clock' : Clock) :
    (∃ result', (r.recognize clock' w').outcome = .ok result' ∧
      result'.verdict = .rejected position token expected ∧
      result'.stats.memoEntries = result.stats.memoEntries ∧
      result'.stats.terminalAttempts = result.stats.terminalAttempts ∧
      result'.stats.terminalFailures = result.stats.terminalFailures) ∧
      ¬ r.grammar.Generates r.grammar.start w'.tokens := by
  obtain ⟨ends, p, hs, hp, rfl⟩ := search_of_rejected h hv
  obtain ⟨hjudge, hgen⟩ := judge_beyond hs hp (Int.ofNat_lt.1 hposition) hw'
  obtain ⟨j, elapsed, hj, rfl⟩ := judge_of_recognize h
  obtain ⟨elapsed', ho⟩ := recognize_of_judge clock' (hjudge.trans hj)
  exact ⟨⟨_, ho, hv, rfl, rfl, rfl⟩, hgen⟩

/-- An opening parenthesis, twice closed. -/
def overclosed : TokenStream := .ofText "( ) )"

/-- The same with an opening parenthesis behind it. -/
def reopened : TokenStream := .ofText "( ) ) ("

theorem recognize_rejected_beyond_reopened :
    overclosed.tokens.take 3 <+: reopened.tokens ∧
      ∃ result, (recognize ⟨nested, {}⟩ (.start 1) reopened).outcome = .ok result ∧
        result.verdict = .rejected 2 (some ")") [endOfInput] ∧ result.stats.terminalAttempts = 3 := by
  have hjudge : judge ⟨nested, {}⟩ overclosed =
      .ok ⟨.rejected 2 (some ")") [endOfInput], 2, 3, 1⟩ := by decide
  have hbegin : overclosed.tokens.take 3 <+: reopened.tokens := by decide
  obtain ⟨elapsed, ho⟩ := recognize_of_judge (.start 1) hjudge
  obtain ⟨⟨result, hresult, hverdict, -, hattempts, -⟩, -⟩ :=
    recognize_rejected_beyond ho rfl (by decide) hbegin (.start 1)
  exact ⟨hbegin, result, hresult, hverdict, hattempts⟩

/-! ### The beginnings of an accepted stream -/

theorem gets_length_of_generates {u : TokenStream} {g : Grammar}
    (hgen : g.Generates g.start w.tokens) (hu : u.tokens <+: w.tokens) : g.Gets u u.length := by
  obtain ⟨b, hb, hd⟩ := hgen
  obtain ⟨v, hv⟩ := hu
  have hexp : g.Leftmost [g.startSymbol] [] (b ++ []) := Grammar.Leftmost.refl.expand hb
  obtain ⟨y, hy⟩ := hexp.partway hd hv.symm
  refine ⟨le_rfl, y, ?_⟩
  rwa [TokenStream.length, List.take_length]

/-- **The beginnings of an accepted stream are not at fault.**  Each of them is accepted, or
rejected at its very end, where no token is left; none is found to be cyclic. -/
theorem recognize_beginning (h : (r.recognize clock w).outcome = .ok result)
    (ha : result.verdict.isAccepted = true) {u : TokenStream} (hu : u.tokens <+: w.tokens)
    (clock' : Clock) :
    ∃ result', (r.recognize clock' u).outcome = .ok result' ∧
      (result'.verdict = .accepted u.length ∨
        ∃ expected, result'.verdict = .rejected u.length none expected) := by
  obtain ⟨ends, -, hc, hverdict, -⟩ := complete_of_recognize h
  have hmem : w.length ∈ ends := by
    by_contra hnot
    obtain ⟨p, -, hrejected⟩ := verdict_of_not_mem hc hnot
    rw [Except.ok.inj (hverdict.symm.trans hrejected)] at ha
    cases ha
  have hgen : r.grammar.Generates r.grammar.start w.tokens := by
    have hgen := (hc.mem_ends.1 hmem).2
    rwa [TokenStream.length, List.take_length] at hgen
  rcases r.recognize_cases clock' u with ⟨ends', v, -, hc', hv, ho⟩ | ⟨c, k, -, -, -, hk, hcycle⟩
  · refine ⟨_, ho, ?_⟩
    by_cases hlen : u.length ∈ ends'
    · rw [verdict_of_mem hlen] at hv
      exact .inl (Except.ok.inj hv).symm
    · obtain ⟨p, hp, hrejected⟩ := verdict_of_not_mem hc' hlen
      have hlast : p = u.length := le_antisymm hp.1.1 (hp.2 (gets_length_of_generates hgen hu))
      rw [hv, hlast] at hrejected
      have hnone : u.tokens[u.length]? = none := List.getElem?_eq_none le_rfl
      rw [hnone] at hrejected
      exact .inr ⟨_, Except.ok.inj hrejected⟩
  · -- what leads back to itself within the beginning does so within the whole stream
    have hself : TransGen (r.grammar.Asks w) k k :=
      TransGen.mono (fun _ _ hask => hask.mono hu) _ _ hcycle
    exact absurd hself (Grammar.not_asks_self (hc.grounded k (hk.mono hu)))

theorem recognize_beginning_opening :
    opening.tokens <+: parentheses.tokens ∧
      ∃ result, (recognize ⟨nested, {}⟩ (.start 1) opening).outcome = .ok result ∧
        (result.verdict = .accepted 1 ∨ ∃ expected, result.verdict = .rejected 1 none expected) := by
  have hjudge : judge ⟨nested, {}⟩ parentheses = .ok ⟨.accepted 2, 2, 3, 1⟩ := by decide
  have hbegin : opening.tokens <+: parentheses.tokens := by decide
  obtain ⟨elapsed, ho⟩ := recognize_of_judge (.start 1) hjudge
  exact ⟨hbegin, recognize_beginning ho rfl hbegin (.start 1)⟩

end Recognizer

end Acceptor
