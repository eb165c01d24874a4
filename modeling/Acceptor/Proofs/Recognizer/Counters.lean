import Acceptor.Proofs.Recognizer.Outcome
import Acceptor.Proofs.Reordering
import Acceptor.Proofs.Search.Counters
import Mathlib.Algebra.BigOperators.Fin
import Mathlib.Data.Set.Card

/-!
# What the counters of a recognition mean

The counters that a recognition reports are determined by the grammar and the input.

* Every sub-problem that is reached is solved exactly once.
* A terminal of an alternative is tried at a position exactly once for each sub-problem that is
  reached and whose derivations come to the terminal there, however many of them do.

`Grammar.tally` adds up how often this is for one sub-problem, and `Recognizer.recognize_counters`
says that the counters are the sums over all sub-problems that are reached.
-/

namespace Acceptor

/-- The members of a list without repeats that pass a test, as a set, are as many as in the list. -/
theorem ncard_eq_countP {l : List ℕ} (h : l.Nodup) (test : ℕ → Bool) :
    {q | q ∈ l ∧ test q = true}.ncard = l.countP test := by
  have hset : {q | q ∈ l ∧ test q = true} = ((l.filter test).toFinset : Set ℕ) := by
    ext q
    simp
  rw [hset, Set.ncard_coe_finset, List.toFinset_card_of_nodup (h.filter _),
    List.countP_eq_length_filter]

namespace Grammar

variable (g : Grammar) (w : TokenStream)

/-- How often terminals come up in the derivations of a sub-problem at positions where `P` holds of
them: for each alternative and each terminal in it, the number of such positions that the symbols in
front of the terminal lead to. -/
noncomputable def tally (P : Symbol → ℕ → Prop) (k : SubProblem) : ℕ :=
  (((g.alternatives? k.name).getD []).map fun a =>
    ∑ i : Fin a.length, if a[i].isTerminal then
      {q | g.Spans w (a.take i) k.position q ∧ P a[i] q}.ncard else 0).sum

variable {g w}

/-! ### Tries along a course -/

theorem countP_cross_tries (test : Attempt → Bool) (s : Symbol) (starts : List ℕ) :
    (g.cross w s starts).tries.countP test =
      if s.isTerminal then starts.countP fun q => test (g.attempt w s q) else 0 := by
  split
  · rename_i hs
    rw [cross_terminal hs, List.countP_map]
    rfl
  · rename_i hs
    cases s with
    | literal => exact absurd rfl hs
    | lexical => exact absurd rfl hs
    | empty => rfl
    | nonterminal => rfl

/-- Along an alternative, a terminal is tried once at each position that the symbols in front of it
lead to. -/
theorem countP_follow_tries (test : Attempt → Bool) {a : Alternative} {starts : List ℕ}
    (h : IsAscending starts) :
    (g.follow w a starts).tries.countP test =
      ∑ i : Fin a.length, if a[i].isTerminal then
        {q | (∃ p ∈ starts, g.Spans w (a.take i) p q) ∧ test (g.attempt w a[i] q) = true}.ncard
      else 0 := by
  induction a generalizing starts with
  | nil => rfl
  | cons s a ih =>
    have hfirst : {q | (∃ p ∈ starts, g.Spans w [] p q) ∧ test (g.attempt w s q) = true}.ncard =
        starts.countP fun q => test (g.attempt w s q) := by
      rw [← ncard_eq_countP (h.imp Nat.ne_of_lt)]
      simp [spans_nil]
    -- behind the first symbol, the starts are the positions it leads to
    have hrest : ∀ (i : ℕ) (q : ℕ), (∃ p ∈ (g.cross w s starts).ends, g.Spans w (a.take i) p q) ↔
        ∃ p ∈ starts, g.Spans w (s :: a.take i) p q := by
      intro i q
      rw [← mem_follow_ends, ← mem_follow_ends]
      rfl
    rw [follow_cons, Course.after_tries, List.countP_append, countP_cross_tries,
      ih (isAscending_cross h)]
    simp only [hrest, ← hfirst]
    refine Eq.trans ?_ (Fin.sum_univ_succ (M := ℕ) (n := a.length) _).symm
    rfl

theorem countP_course_tries {test : Attempt → Bool} {P : Symbol → ℕ → Prop}
    (htest : ∀ s q, test (g.attempt w s q) = true ↔ P s q) (k : SubProblem) :
    (k.course g w).tries.countP test = g.tally w P k := by
  rw [SubProblem.course, survey_tries, List.countP_flatMap, tally]
  refine congrArg List.sum (List.map_congr_left fun a _ => ?_)
  rw [Function.comp_apply, countP_follow_tries test (List.pairwise_singleton _ _)]
  simp only [List.mem_singleton, exists_eq_left, htest]

end Grammar

namespace Search

variable {g : Grammar} {w : TokenStream}

/-- The tries of a run that pass a test are counted sub-problem by sub-problem. -/
theorem Counted.countP_attempts {run : Run} {keys : List SubProblem} (h : Counted g w run keys)
    (test : Attempt → Bool) {P : Symbol → ℕ → Prop}
    (htest : ∀ s q, test (g.attempt w s q) = true ↔ P s q) :
    run.attempts.countP test = ∑ k ∈ keys.toFinset, g.tally w P k := by
  rw [h.attempts.countP_eq, List.countP_flatMap, List.sum_toFinset _ h.nodup]
  exact congrArg List.sum (List.map_congr_left fun k _ => Grammar.countP_course_tries htest k)

end Search

namespace Recognizer

open Search

variable {r : Recognizer} {clock : Clock} {w : TokenStream}

/-- **The counters are exact.**  As many sub-problems were solved as are reached.  Terminals were
tried as often as they come up in the derivations of these sub-problems, and the tries that failed
are those at positions where the terminal does not match. -/
theorem recognize_counters {result : Result} (h : (r.recognize clock w).outcome = .ok result) :
    ∃ reached : Finset SubProblem, (∀ k, k ∈ reached ↔ r.grammar.Reached w k) ∧
      result.stats.memoEntries = reached.card ∧
      result.stats.terminalAttempts =
        (∑ k ∈ reached, r.grammar.tally w (fun _ _ => True) k : ℕ) ∧
      result.stats.terminalFailures =
        (∑ k ∈ reached, r.grammar.tally w (fun s q => ¬ r.grammar.Matches w s q) k : ℕ) := by
  obtain ⟨ends, hs, -, -, hresult⟩ := complete_of_recognize h
  obtain ⟨keys, hkeys⟩ := counted_of_solve hs
  have hattempts := hkeys.countP_attempts (fun _ => true) (P := fun _ _ => True) (by simp)
  have hfailures := hkeys.countP_attempts (fun a => !a.matched)
    (P := fun s q => ¬ r.grammar.Matches w s q) fun s q => by
      rw [Bool.not_eq_true', ← Bool.not_eq_true, Grammar.matched_attempt]
  rw [List.countP_true] at hattempts
  rw [List.countP_eq_length_filter] at hfailures
  refine ⟨keys.toFinset, fun k => by rw [List.mem_toFinset, hkeys.mem], ?_, ?_, ?_⟩
  · rw [hresult, List.toFinset_card_of_nodup hkeys.nodup, ← hkeys.solved]
    rfl
  · rw [hresult, ← hattempts]
    rfl
  · rw [hresult, ← hfailures]
    rfl

/-- A number behind two names, each of which may be left out. -/
def phrase : Grammar where
  rules := [
    ⟨⟨"phrase", by decide⟩,
      [[.nonterminal ⟨"filler", by decide⟩, .nonterminal ⟨"filler", by decide⟩, .lexical .integer]],
      by decide⟩,
    ⟨⟨"filler", by decide⟩, [[], [.lexical .identifier]], by decide⟩]
  start := "phrase"
  distinct := by decide
  startDeclared := by decide
  closed := by decide

/-- A name and a number: either filler may be the one that is there, and the number is tried once
behind it. -/
def oneFiller : TokenStream := .ofText "a 1"

theorem recognize_counters_phrase :
    ∃ result, (recognize ⟨phrase, {}⟩ (.start 1) oneFiller).outcome = .ok result ∧
      ∃ reached : Finset SubProblem, (∀ k, k ∈ reached ↔ phrase.Reached oneFiller k) ∧
        reached.card = 3 ∧ ∑ k ∈ reached, phrase.tally oneFiller (fun _ _ => True) k = 4 ∧
        ∑ k ∈ reached,
          phrase.tally oneFiller (fun s q => ¬ phrase.Matches oneFiller s q) k = 2 := by
  have hjudge : judge ⟨phrase, {}⟩ oneFiller = .ok ⟨.accepted 2, 3, 4, 2⟩ := by decide
  have hok := recognize_outcome ⟨phrase, {}⟩ (.start 1) oneFiller
  rw [hjudge] at hok
  obtain ⟨reached, hmem, hcard, hattempts, hfailures⟩ := recognize_counters hok
  exact ⟨_, hok, reached, hmem, (Int.ofNat.inj hcard).symm, (Int.ofNat.inj hattempts).symm,
    (Int.ofNat.inj hfailures).symm⟩

end Recognizer

end Acceptor
