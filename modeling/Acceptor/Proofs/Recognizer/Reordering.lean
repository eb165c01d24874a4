import Acceptor.Proofs.Recognizer.Outcome
import Acceptor.Proofs.Reordering
import Acceptor.Proofs.Search.Counters

/-!
# Recognition does not depend on the order of rules

Another order of the rules and their alternatives changes which sub-problems a search opens first,
which failures it records first and, if it fails, which circle it reports.  It changes nothing else
(`Recognizer.recognize_reordered`): no alternative wins by coming first.

A search that comes to an answer has tried the same terminals under both orders, each as often
(`Search.Counted.attempts_perm`), and a frontier depends on its records as a set only
(`Frontier.Holds.ext`).
-/

namespace Acceptor

open Relation
open scoped List

namespace Search

variable {g g' : Grammar} {w : TokenStream} {run run' : Run}

theorem Run.reported_congr (h : run.attempts.Perm run'.attempts) (ends : List ℕ) (collect : Bool) :
    run.reported ends collect = run'.reported ends collect := by
  have hrecords : run.records.Perm run'.records := (h.filter _).map _
  refine (run.reported_holds ends collect).ext (run'.reported_holds ends collect) fun x => ?_
  exact (hrecords.append_left _).mem_iff

theorem Run.judgement_congr (hsolved : run.solved = run'.solved)
    (h : run.attempts.Perm run'.attempts) (v : Verdict) : run.judgement v = run'.judgement v := by
  have hfailures : run.failures.Perm run'.failures := h.filter _
  simp only [Run.judgement, hsolved, h.length_eq, hfailures.length_eq]

/-! ### Searches -/

theorem Counted.keys_perm {keys keys' : List SubProblem} (h : Counted g w run keys)
    (h' : Counted g' w run' keys') (hg : g.Reordered g') : keys.Perm keys' := by
  refine (List.perm_ext_iff_of_nodup h.nodup h'.nodup).2 fun k => ?_
  rw [h.mem, h'.mem, hg.reached_iff]

/-- The searches try the same terminals, each as often. -/
theorem Counted.attempts_perm {keys keys' : List SubProblem} (h : Counted g w run keys)
    (h' : Counted g' w run' keys') (hg : g.Reordered g') : run.attempts.Perm run'.attempts :=
  calc run.attempts
    _ ~ keys.flatMap fun k => (k.course g w).tries := h.attempts
    _ ~ keys'.flatMap fun k => (k.course g' w).tries :=
      (h.keys_perm h' hg).flatMap fun k _ => hg.tries_perm k
    _ ~ run'.attempts := h'.attempts.symm

end Search

/-- Results of one judgement differ in the time only. -/
theorem Judgement.toResult_counters (j : Judgement) (elapsed elapsed' : Float) :
    (j.toResult elapsed).verdict = (j.toResult elapsed').verdict ∧
      (j.toResult elapsed).stats.memoEntries = (j.toResult elapsed').stats.memoEntries ∧
      (j.toResult elapsed).stats.terminalAttempts = (j.toResult elapsed').stats.terminalAttempts ∧
      (j.toResult elapsed).stats.terminalFailures = (j.toResult elapsed').stats.terminalFailures :=
  ⟨rfl, rfl, rfl, rfl⟩

namespace Recognizer

open Search

variable {g g' : Grammar} {w : TokenStream}

/-- A recognition fails iff a sub-problem that is reached leads back to itself. -/
theorem recognize_cyclic_iff_asks (r : Recognizer) (clock : Clock) (w : TokenStream) :
    (∃ c, (r.recognize clock w).outcome = .error (.search (.cyclic c))) ↔
      ∃ k, r.grammar.Reached w k ∧ TransGen (r.grammar.Asks w) k k := by
  rcases r.recognize_cases clock w with ⟨ends, v, -, hc, -, ho⟩ | ⟨c, k, ho, -, -, hk, hcycle⟩
  · constructor
    · rintro ⟨c, hcyclic⟩
      cases ho.symm.trans hcyclic
    · rintro ⟨k, hk, hcycle⟩
      exact absurd hcycle (Grammar.not_asks_self (hc.grounded k hk))
  · exact ⟨fun _ => ⟨k, hk, hcycle⟩, fun _ => ⟨c, ho⟩⟩

/-- Two searches that come to an answer count the same. -/
theorem search_reordered (h : g.Reordered g') {s s' : Settings} {ends ends' : List ℕ}
    (hs : (search ⟨g, s⟩ w).2 = .ok ends) (hs' : (search ⟨g', s'⟩ w).2 = .ok ends') :
    (search ⟨g, s⟩ w).1.solved = (search ⟨g', s'⟩ w).1.solved ∧
      (search ⟨g, s⟩ w).1.attempts ~ (search ⟨g', s'⟩ w).1.attempts := by
  obtain ⟨keys, hkeys⟩ := counted_of_solve hs
  obtain ⟨keys', hkeys'⟩ := counted_of_solve hs'
  refine ⟨?_, hkeys.attempts_perm hkeys' h⟩
  exact hkeys.solved.trans ((hkeys.keys_perm hkeys' h).length_eq.trans hkeys'.solved.symm)

theorem verdict_congr {s : Settings} {run run' : Run} (h : run.attempts.Perm run'.attempts)
    (ends : List ℕ) : verdict ⟨g, s⟩ w run ends = verdict ⟨g', s⟩ w run' ends := by
  have hverdict (r : Recognizer) (run : Run) : r.verdict w run ends =
      if w.length ∈ ends then .ok (.accepted w.length)
      else
        let frontier := run.reported ends r.settings.collects
        (w.read frontier.resolved).map fun token =>
          .rejected frontier.resolved token frontier.expected := rfl
  rw [hverdict, hverdict, Run.reported_congr h]

/-- **Recognition does not depend on the order of rules and alternatives.**  It fails under both
orders or under neither; and if it does not, the verdict is the same, with the position, the token
and the expectations of a rejection, and so are all counters. -/
theorem recognize_reordered (h : g.Reordered g') (s : Settings) (w : TokenStream)
    (clock clock' : Clock) :
    ((∃ c, (recognize ⟨g, s⟩ clock w).outcome = .error (.search (.cyclic c))) ↔
        ∃ c, (recognize ⟨g', s⟩ clock' w).outcome = .error (.search (.cyclic c))) ∧
      ∀ result, (recognize ⟨g, s⟩ clock w).outcome = .ok result →
        ∃ result', (recognize ⟨g', s⟩ clock' w).outcome = .ok result' ∧
          result'.verdict = result.verdict ∧
          result'.stats.memoEntries = result.stats.memoEntries ∧
          result'.stats.terminalAttempts = result.stats.terminalAttempts ∧
          result'.stats.terminalFailures = result.stats.terminalFailures := by
  refine ⟨?_, fun result hresult => ?_⟩
  · simp only [recognize_cyclic_iff_asks, h.asks_eq, h.reached_iff]
  · obtain ⟨ends, hs, hc, hv, hresult⟩ := complete_of_recognize hresult
    rcases recognize_cases ⟨g', s⟩ clock' w with
      ⟨ends', v, hs', hc', hv', ho⟩ | ⟨c, k, -, -, -, hk, hcycle⟩
    · obtain ⟨hsolved, hattempts⟩ := search_reordered h hs hs'
      have hends : ends' = ends := by
        rw [hc.ends_eq, hc'.ends_eq, h.ends_eq, h.start]
      have hverdict : v = result.verdict := by
        rw [hends, ← verdict_congr hattempts, hv] at hv'
        exact (Except.ok.inj hv').symm
      have hjudgement : (search ⟨g', s⟩ w).1.judgement v =
          (search ⟨g, s⟩ w).1.judgement result.verdict := by
        rw [hverdict, Run.judgement_congr hsolved hattempts]
      rw [hjudgement] at ho
      obtain ⟨hv, hmemo, hattempts, hfailures⟩ := Judgement.toResult_counters
        ((search ⟨g, s⟩ w).1.judgement result.verdict) (clock'.next.seconds - clock'.seconds)
        (clock.next.seconds - clock.seconds)
      rw [← hresult] at hv hmemo hattempts hfailures
      exact ⟨_, ho, hv, hmemo, hattempts, hfailures⟩
    · -- under the other order the same sub-problem would lead back to itself
      rw [← h.reached_iff] at hk
      rw [← h.asks_eq] at hcycle
      exact absurd hcycle (Grammar.not_asks_self (hc.grounded k hk))

/-- A list of two kinds of items, the shorter alternative first. -/
def series : Grammar where
  rules :=
    [⟨⟨"series", by decide⟩,
        [[.nonterminal ⟨"entry", by decide⟩],
          [.nonterminal ⟨"entry", by decide⟩, .literal ⟨",", by decide⟩,
            .nonterminal ⟨"series", by decide⟩]], by decide⟩,
      ⟨⟨"entry", by decide⟩, [[.lexical .integer], [.lexical .identifier]], by decide⟩]
  start := "series"
  distinct := by decide
  startDeclared := by decide
  closed := by decide

/-- The same list with everything the other way round. -/
def seriesReversed : Grammar where
  rules := (series.rules.map fun r =>
    ⟨r.name, r.alternatives.reverse, fun h => r.nonempty (List.reverse_eq_nil_iff.1 h)⟩).reverse
  start := "series"
  distinct := by decide
  startDeclared := by decide
  closed := by decide

/-- It breaks off behind a comma. -/
def brokenOff : TokenStream := .ofText "1 , a ,"

theorem recognize_reordered_series :
    series.Reordered seriesReversed ∧
      ∃ result result', (recognize ⟨series, {}⟩ (.start 1) brokenOff).outcome = .ok result ∧
        (recognize ⟨seriesReversed, {}⟩ (.start 2) brokenOff).outcome = .ok result' ∧
        result.verdict = .rejected 4 none ["<identifier>", "<integer>"] ∧
        result'.verdict = result.verdict ∧
        result'.stats.terminalAttempts = result.stats.terminalAttempts := by
  have hreordered : series.Reordered seriesReversed :=
    ⟨rfl, series.rules.reverse, (List.reverse_perm _).symm,
      .cons ⟨rfl, (List.reverse_perm _).symm⟩ (.cons ⟨rfl, (List.reverse_perm _).symm⟩ .nil)⟩
  have hjudge : judge ⟨series, {}⟩ brokenOff =
      .ok ⟨.rejected 4 none ["<identifier>", "<integer>"], 6, 8, 4⟩ := by decide
  have hok := recognize_outcome ⟨series, {}⟩ (.start 1) brokenOff
  rw [hjudge] at hok
  obtain ⟨-, hsame⟩ := recognize_reordered hreordered {} brokenOff (.start 1) (.start 2)
  obtain ⟨result', ho, hverdict, -, hattempts, -⟩ := hsame _ hok
  exact ⟨hreordered, _, result', hok, ho, rfl, hverdict, hattempts⟩

end Recognizer

end Acceptor
