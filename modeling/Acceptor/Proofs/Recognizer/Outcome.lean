import Acceptor.Proofs.Frontier
import Acceptor.Proofs.Progress
import Acceptor.Proofs.Search.Completeness
import Acceptor.Recognition.Recognizer
import Mathlib.Order.Bounds.Defs

/-!
# What a recognizer answers

A recognition is a search for the start symbol and a verdict on what it found.

* `Recognizer.recognize_verdict` : **the verdict is right**, and so is every entry of the memo.
* `Recognizer.recognize_cyclic_iff` : **the only error is a cyclic grammar**, and it is raised iff a
  leftmost derivation that matches the first tokens comes to a left recursive name.

A rejection reports the frontier of the run after the furthest end has been recorded too
(`Search.Run.reported`).  Its position is the furthest that any derivation gets to
(`Search.Complete.reported_position`), so it lies within the stream.
-/

namespace Acceptor

open Relation

/-- The result without the time it took. -/
def Result.untimed (result : Result) : Result :=
  { result with stats := { result.stats with elapsed := 0 } }

/-! ### The frontier that is reported -/

namespace Search

/-- The frontier that a rejection reports: that of the run, with the furthest end recorded. -/
def Run.reported (run : Run) (ends : List ℕ) (collect : Bool) : Frontier :=
  match ends.getLast? with
  | some furthest => (run.frontier collect).recordEnd furthest
  | none => run.frontier collect

/-- All that is recorded in it. -/
def Run.allRecords (run : Run) (ends : List ℕ) : List (ℤ × String) :=
  (ends.getLast?.map fun q => ((q : ℤ), endOfInput)).toList ++ run.records

theorem Run.reported_holds (run : Run) (ends : List ℕ) (collect : Bool) :
    Frontier.Holds collect (run.allRecords ends) (run.reported ends collect) := by
  unfold reported allRecords
  cases ends.getLast? with
  | none => exact run.frontier_holds collect
  | some furthest => exact (run.frontier_holds collect).record furthest endOfInput

variable {g : Grammar} {w : TokenStream} {run : Run} {ends : List ℕ}

theorem Complete.isAscending (h : Complete g w run ends) : IsAscending ends := by
  rw [h.ends_eq]
  exact SubProblem.isAscending_ends

theorem Complete.mem_ends (h : Complete g w run ends) {q : ℕ} :
    q ∈ ends ↔ q ≤ w.length ∧ g.Generates g.start (w.tokens.take q) := by
  rw [h.ends_eq, SubProblem.mem_ends, Grammar.start_endsAt_iff]

theorem Complete.mem_records (h : Complete g w run ends) {m : ℤ} {t : String} :
    (m, t) ∈ run.records ↔ ∃ s p, g.Stuck w s p ∧ m = (p : ℤ) ∧ t = s.text := by
  simp only [Run.records, Run.failures, List.mem_map, List.mem_filter, h.attempts]
  constructor
  · rintro ⟨a, ⟨⟨s, p, hs, hocc, rfl⟩, hm⟩, he⟩
    obtain ⟨rfl, rfl⟩ := Prod.mk.inj he
    refine ⟨s, p, ⟨hs, hocc, fun hmatch => ?_⟩, rfl, rfl⟩
    rw [Grammar.matched_attempt.2 hmatch] at hm
    cases hm
  · rintro ⟨s, p, ⟨hs, hocc, hm⟩, rfl, rfl⟩
    refine ⟨g.attempt w s p, ⟨⟨s, p, hs, hocc, rfl⟩, ?_⟩, rfl⟩
    rw [Bool.not_eq_true', ← Bool.not_eq_true, Grammar.matched_attempt]
    exact hm

theorem mem_allRecords {m : ℤ} {t : String} :
    (m, t) ∈ run.allRecords ends ↔
      (∃ q : ℕ, ends.getLast? = some q ∧ m = (q : ℤ) ∧ t = endOfInput) ∨ (m, t) ∈ run.records := by
  unfold Run.allRecords
  rw [List.mem_append]
  refine or_congr_left ?_
  cases ends.getLast? with
  | none => simp
  | some q => simp

/-- What is recorded lies where some derivation gets to. -/
theorem Complete.gets_of_mem (h : Complete g w run ends) {m : ℤ} {t : String}
    (hr : (m, t) ∈ run.allRecords ends) : ∃ p : ℕ, m = (p : ℤ) ∧ g.Gets w p := by
  rcases mem_allRecords.1 hr with ⟨q, hq, rfl, -⟩ | hr
  · have hmem : q ∈ ends := List.mem_of_getLast? hq
    rw [h.ends_eq, SubProblem.mem_ends] at hmem
    exact ⟨q, rfl, Grammar.gets_of_start_endsAt hmem⟩
  · obtain ⟨s, p, hs, rfl, -⟩ := h.mem_records.1 hr
    exact ⟨p, rfl, hs.2.1.gets⟩

/-- Wherever a derivation gets to, something is recorded there or further on. -/
theorem Complete.exists_record (h : Complete g w run ends) {p : ℕ} (hp : g.Gets w p) :
    ∃ r ∈ run.allRecords ends, (p : ℤ) ≤ r.1 := by
  rcases hp.ends_or_stuck h.grounded with ⟨q, hpq, hq⟩ | ⟨s, q, hpq, hs⟩
  · rw [← SubProblem.mem_ends, ← h.ends_eq] at hq
    obtain ⟨m, hm, hqm⟩ := Ascending.exists_getLast?_ge h.isAscending hq
    exact ⟨(m, endOfInput), mem_allRecords.2 (.inl ⟨m, hm, rfl, rfl⟩),
      Int.ofNat_le.2 (hpq.trans hqm)⟩
  · exact ⟨(q, s.text), mem_allRecords.2 (.inr (h.mem_records.2 ⟨s, q, hs, rfl, rfl⟩)),
      Int.ofNat_le.2 hpq⟩

/-- **The reported position is the furthest that any derivation gets to.** -/
theorem Complete.reported_position (h : Complete g w run ends) (collect : Bool) :
    ∃ p : ℕ, (run.reported ends collect).position = some (p : ℤ) ∧
      IsGreatest {q | g.Gets w q} p := by
  have hholds := run.reported_holds ends collect
  have hstart : g.Gets w 0 := ⟨Nat.zero_le _, _, .refl⟩
  cases hm : (run.reported ends collect).position with
  | none =>
    obtain ⟨r, hr, -⟩ := h.exists_record hstart
    rw [hholds.blank hm] at hr
    cases hr
  | some m =>
    obtain ⟨t, ht⟩ := hholds.attained m hm
    obtain ⟨p, rfl, hp⟩ := h.gets_of_mem ht
    refine ⟨p, rfl, hp, fun q hq => ?_⟩
    obtain ⟨r, hr, hle⟩ := h.exists_record hq
    exact Int.ofNat_le.1 (hle.trans (hholds.furthest p hm r hr))

/-- The counters of a run, with a verdict. -/
def Run.judgement (run : Run) (v : Verdict) : Judgement :=
  ⟨v, run.solved, run.attempts.length, run.failures.length⟩

end Search

namespace Recognizer

open Search

variable {r : Recognizer} {clock : Clock} {w : TokenStream} {run : Run} {ends : List ℕ}

/-! ### The verdict -/

theorem verdict_of_mem (h : w.length ∈ ends) : r.verdict w run ends = .ok (.accepted w.length) :=
  if_pos h

theorem verdict_of_not_mem (hc : Complete r.grammar w run ends) (h : w.length ∉ ends) :
    ∃ p : ℕ, IsGreatest {q | r.grammar.Gets w q} p ∧ r.verdict w run ends =
      .ok (.rejected p w.tokens[p]? (run.reported ends r.settings.collects).expected) := by
  obtain ⟨p, hp, hgreatest⟩ := hc.reported_position r.settings.collects
  have hread : w.read (run.reported ends r.settings.collects).resolved = .ok w.tokens[p]? := by
    have hrange : (0 : ℤ) ≤ p ∧ (p : ℤ) ≤ w.length :=
      ⟨Int.natCast_nonneg p, Int.ofNat_le.2 hgreatest.1.1⟩
    rw [Frontier.resolved, hp, Option.getD_some, TokenStream.read, if_pos hrange, Int.toNat_natCast]
  refine ⟨p, hgreatest, ?_⟩
  have hverdict : r.verdict w run ends =
      (w.read (run.reported ends r.settings.collects).resolved).map fun token =>
        .rejected (run.reported ends r.settings.collects).resolved token
          (run.reported ends r.settings.collects).expected := if_neg h
  rw [hverdict, hread, Frontier.resolved, hp]
  rfl

theorem exists_verdict (hc : Complete r.grammar w run ends) : ∃ v, r.verdict w run ends = .ok v := by
  by_cases h : w.length ∈ ends
  · exact ⟨_, verdict_of_mem h⟩
  · obtain ⟨p, -, hp⟩ := verdict_of_not_mem hc h
    exact ⟨_, hp⟩

/-! ### The whole recognition -/

theorem recognize_outcome (r : Recognizer) (clock : Clock) (w : TokenStream) :
    (r.recognize clock w).outcome =
      (r.judge w).map fun j => j.toResult (clock.next.seconds - clock.seconds) := by
  unfold recognize Clock.timed
  cases r.judge w with
  | error e => rfl
  | ok j => rfl

/-- But for the time, a recognition does not depend on the clock. -/
theorem recognize_untimed (r : Recognizer) (clock : Clock) (w : TokenStream) :
    (r.recognize clock w).outcome.map Result.untimed = (r.judge w).map fun j => j.toResult 0 := by
  rw [recognize_outcome]
  cases r.judge w with
  | error e => rfl
  | ok j => rfl

theorem judge_of_verdict {v : Verdict} (hs : (r.search w).2 = .ok ends)
    (hv : r.verdict w (r.search w).1 ends = .ok v) :
    r.judge w = .ok ((r.search w).1.judgement v) := by
  unfold judge
  generalize r.search w = found at hs hv
  obtain ⟨run, result⟩ := found
  subst hs
  simp only [hv]
  rfl

theorem judge_of_failure {f : Failure} (hs : (r.search w).2 = .error f) :
    r.judge w = .error (.search f) := by
  unfold judge
  generalize r.search w = found at hs
  obtain ⟨run, result⟩ := found
  subst hs
  rfl

/-- What is judged of a stream depends on the search only. -/
theorem judge_congr {g g' : Grammar} {s : Settings} (h : search ⟨g', s⟩ w = search ⟨g, s⟩ w) :
    judge ⟨g', s⟩ w = judge ⟨g, s⟩ w := by
  unfold judge
  rw [h]
  rfl

theorem recognize_of_verdict {v : Verdict} (clock : Clock) (hs : (r.search w).2 = .ok ends)
    (hv : r.verdict w (r.search w).1 ends = .ok v) :
    (r.recognize clock w).outcome =
      .ok (((r.search w).1.judgement v).toResult (clock.next.seconds - clock.seconds)) := by
  rw [recognize_outcome, judge_of_verdict hs hv]
  rfl

theorem recognize_of_failure {f : Failure} (clock : Clock) (hs : (r.search w).2 = .error f) :
    (r.recognize clock w).outcome = .error (.search f) := by
  rw [recognize_outcome, judge_of_failure hs]
  rfl

/-- **How a recognition ends**: with a verdict on a search that left nothing out, or with a
sub-problem that is reached and asks for itself. -/
theorem recognize_cases (r : Recognizer) (clock : Clock) (w : TokenStream) :
    (∃ ends v, (r.search w).2 = .ok ends ∧ Complete r.grammar w (r.search w).1 ends ∧
        r.verdict w (r.search w).1 ends = .ok v ∧ (r.recognize clock w).outcome =
          .ok (((r.search w).1.judgement v).toResult (clock.next.seconds - clock.seconds))) ∨
      ∃ c k, (r.recognize clock w).outcome = .error (.search (.cyclic c)) ∧
        c.nonterminal = k.name ∧ c.position = k.position ∧ r.grammar.Reached w k ∧
        TransGen (r.grammar.Asks w) k k := by
  rcases search_outcome r.grammar w with ⟨ends, hs, hc⟩ | ⟨k, others, hs, hcircle⟩
  · obtain ⟨v, hv⟩ := exists_verdict (r := r) hc
    exact .inl ⟨ends, v, hs, hc, hv, recognize_of_verdict clock hs hv⟩
  · exact .inr ⟨_, k, recognize_of_failure clock hs, rfl, rfl, hcircle.reached, hcircle.asks_self⟩

/-- The search behind a result left nothing out. -/
theorem complete_of_recognize {result : Result} (h : (r.recognize clock w).outcome = .ok result) :
    ∃ ends, (r.search w).2 = .ok ends ∧ Complete r.grammar w (r.search w).1 ends ∧
      r.verdict w (r.search w).1 ends = .ok result.verdict ∧ result =
        ((r.search w).1.judgement result.verdict).toResult (clock.next.seconds - clock.seconds) := by
  rcases r.recognize_cases clock w with ⟨ends, v, hs, hc, hv, ho⟩ | ⟨c, k, ho, -⟩
  · obtain rfl := Except.ok.inj (h.symm.trans ho)
    exact ⟨ends, hs, hc, hv, rfl⟩
  · cases h.symm.trans ho

/-- **The verdict is right.**  A stream that the start symbol derives is accepted with its length,
any other is rejected; and the memo, in which the start symbol has an entry, has in every entry
exactly the ends of the derivations. -/
theorem recognize_verdict {result : Result} (h : (r.recognize clock w).outcome = .ok result) :
    (r.grammar.Generates r.grammar.start w.tokens → result.verdict = .accepted w.length) ∧
      (¬ r.grammar.Generates r.grammar.start w.tokens →
        ∃ position token expected, result.verdict = .rejected position token expected) ∧
      ((r.search w).1.memo.get? ⟨r.grammar.start, 0⟩).isSome ∧
      ∀ k e, (r.search w).1.memo.get? k = some e →
        ∃ ends, e = .solved ends ∧ IsAscending ends ∧ ∀ q, q ∈ ends ↔
          k.position ≤ q ∧ q ≤ w.length ∧ r.grammar.Generates k.name (w.between k.position q) := by
  obtain ⟨ends, -, hc, hv, -⟩ := complete_of_recognize h
  have hmem : w.length ∈ ends ↔ r.grammar.Generates r.grammar.start w.tokens := by
    rw [hc.mem_ends, TokenStream.length, List.take_length]
    exact and_iff_right le_rfl
  refine ⟨fun hgen => ?_, fun hgen => ?_, ?_, fun k e hk => ?_⟩
  · rw [verdict_of_mem (hmem.2 hgen)] at hv
    exact (Except.ok.inj hv).symm
  · obtain ⟨p, -, hp⟩ := verdict_of_not_mem hc (mt hmem.1 hgen)
    exact ⟨_, _, _, Except.ok.inj (hv.symm.trans hp)⟩
  · rw [(hc.entry _ _).2 ⟨.refl, rfl⟩]
    rfl
  · obtain ⟨hreached, rfl⟩ := (hc.entry k e).1 hk
    refine ⟨_, rfl, SubProblem.isAscending_ends, fun q => ?_⟩
    rw [SubProblem.mem_ends, SubProblem.endsAt_iff_between hreached.le]

/-- Balanced parentheses, one pair inside the other. -/
def nested : Grammar where
  rules := [⟨⟨"nest", by decide⟩,
    [[], [.literal ⟨"(", by decide⟩, .nonterminal ⟨"nest", by decide⟩, .literal ⟨")", by decide⟩]],
    by decide⟩]
  start := "nest"
  distinct := by decide
  startDeclared := by decide
  closed := by decide

/-- One pair of parentheses. -/
def parentheses : TokenStream := .ofText "( )"

theorem recognize_verdict_parentheses :
    nested.Generates nested.start parentheses.tokens ∧
      ∃ result, (recognize ⟨nested, {}⟩ (.start 1) parentheses).outcome = .ok result ∧
        result.verdict = .accepted 2 ∧
        ∀ q, q ∈ [1] ↔ 1 ≤ q ∧ q ≤ 2 ∧ nested.Generates "nest" (parentheses.between 1 q) := by
  have hnil : nested.Expands "nest" [] := Grammar.expands_iff.2 (by decide)
  have hpair : nested.Expands "nest"
      [.literal ⟨"(", by decide⟩, .nonterminal ⟨"nest", by decide⟩, .literal ⟨")", by decide⟩] :=
    Grammar.expands_iff.2 (by decide)
  have hgen : nested.Generates nested.start parentheses.tokens :=
    ⟨_, hpair, .terminal rfl (.nonterminal hnil .nil (.terminal rfl .nil))⟩
  have hjudge : judge ⟨nested, {}⟩ parentheses = .ok ⟨.accepted 2, 2, 3, 1⟩ := by decide
  have hok := recognize_outcome ⟨nested, {}⟩ (.start 1) parentheses
  rw [hjudge] at hok
  obtain ⟨haccepted, -, -, hmemo⟩ := recognize_verdict hok
  obtain ⟨ends, he, -, hends⟩ := hmemo ⟨"nest", 1⟩ (.solved [1]) (by decide)
  obtain rfl := Entry.solved.inj he
  exact ⟨hgen, _, hok, haccepted hgen, hends⟩

/-! ### Cyclic grammars -/

/-- **The only error is a cyclic grammar**, and it is raised iff a leftmost derivation that matches
the first tokens comes to a left recursive name. -/
theorem recognize_cyclic_iff (r : Recognizer) (clock : Clock) (w : TokenStream) :
    ((∃ result, (r.recognize clock w).outcome = .ok result) ∨
        ∃ c, (r.recognize clock w).outcome = .error (.search (.cyclic c))) ∧
      ((∃ c, (r.recognize clock w).outcome = .error (.search (.cyclic c))) ↔
        ∃ u name x, u <+: w.tokens ∧
          r.grammar.Leftmost [r.grammar.startSymbol] u (.nonterminal name :: x) ∧
          r.grammar.LeftRecursive name) := by
  rcases r.recognize_cases clock w with ⟨ends, v, -, hc, -, ho⟩ | ⟨c, k, ho, -, -, hk, hcycle⟩
  · refine ⟨.inl ⟨_, ho⟩, fun ⟨c, hcyclic⟩ => ?_, fun ⟨u, name, x, hu, hx, hrec⟩ => ?_⟩
    · cases ho.symm.trans hcyclic
    · -- the name would be reached and lead back to itself
      have hocc : r.grammar.Occurs w (.nonterminal name) u.length :=
        hx.occurs hu (List.nil_append _).symm (Grammar.spans_nil.2 rfl)
      have hreached := Grammar.occurs_nonterminal_iff.1 hocc
      exact absurd ((Grammar.leftRecursive_iff_asks u.length).1 hrec)
        (Grammar.not_asks_self (hc.grounded _ hreached))
  · refine ⟨.inr ⟨c, ho⟩, fun _ => ?_, fun _ => ⟨c, ho⟩⟩
    obtain ⟨name, x, hname, hx⟩ := hk.leftmost
    obtain ⟨n, p⟩ := k
    subst hname
    exact ⟨_, name, x, List.take_prefix _ _, hx, (Grammar.leftRecursive_iff_asks p).2 hcycle⟩

end Recognizer

end Acceptor
