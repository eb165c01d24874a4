import Acceptor.Proofs.Search.Completeness

/-!
# Searches that share a run

Several searches can be made with one run, for any names and positions.  Each of them finds what the
earlier ones solved, and solves its own sub-problem anew.  A search that fails leaves behind the
marks of the sub-problems it was solving, and no later search takes them off again, unless it begins
with such a sub-problem.

* `Search.solve_declared` : how a search for a declared name ends, whatever was marked before.
* `Search.runAfter_marked` : marks at declared names are left behind by failures only.
* `Search.solve_shared` : **a left mark can make a later search fail, but never answer wrongly.**
-/

namespace Acceptor

open Relation

namespace Search

variable (g : Grammar) (w : TokenStream)

/-- The run after searches for some sub-problems, one after the other. -/
def runAfter (calls : List SubProblem) : Run :=
  calls.foldl (fun run k => (solve g w run k).1) .fresh

/-- One of the searches was for a declared name and failed. -/
def HasFailed (calls : List SubProblem) : Prop :=
  ∃ before k after, calls = before ++ k :: after ∧ k.name ∈ g.names ∧
    ∃ f, (solve g w (runAfter g w before) k).2 = .error f

variable {g w} {run : Run} {k : SubProblem}

theorem runAfter_concat (calls : List SubProblem) (k : SubProblem) :
    runAfter g w (calls ++ [k]) = (solve g w (runAfter g w calls) k).1 := by
  rw [runAfter, List.foldl_concat, runAfter]

theorem HasFailed.concat {calls : List SubProblem} (h : HasFailed g w calls) (k : SubProblem) :
    HasFailed g w (calls ++ [k]) := by
  obtain ⟨before, j, after, rfl, hj⟩ := h
  exact ⟨before, j, after ++ [k], by simp, hj⟩

/-! ### One search -/

theorem Halts.memo_eq {s : State} {result : Except Failure (List ℕ)} (h : Halts g w s run result) :
    run.memo = s.run.memo := by
  cases h with
  | done => rfl
  | lost h => rfl
  | again h hd => rfl

/-- A search ends in a state that the invariant holds of; what was marked before is stale in it. -/
theorem solve_sound (h : run.memo.Exact g w) (k : SubProblem) :
    ∃ s, Sound g w k (fun j => j ≠ k ∧ run.memo.get? j = some .inProgress) s ∧
      Halts g w s (solve g w run k).1 (solve g w run k).2 := by
  obtain ⟨s, hturns, hh⟩ := solve_halts h k
  exact ⟨s, hturns.invariant (Sound.init h fun _ => Iff.rfl) fun _ _ hs ht => hs.turn ht, hh⟩

/-- However a search ends, all ends in the memo are right. -/
theorem solve_exact (h : run.memo.Exact g w) (k : SubProblem) :
    (solve g w run k).1.memo.Exact g w := by
  obtain ⟨s, hs, hh⟩ := solve_sound h k
  rw [hh.memo_eq]
  exact hs.exact

/-- A search for a name without a rule fails at once, and leaves its sub-problem marked. -/
theorem solve_undeclared (run : Run) (hk : k.name ∉ g.names) :
    solve g w run k = ((init run k).run, .error (.undeclared k.name)) := by
  have hnone : g.alternatives? k.name = none := by
    rw [← Option.isNone_iff_eq_none, ← Option.isSome_eq_false_iff, ← Bool.not_eq_true,
      Grammar.alternatives?_isSome_iff]
    exact hk
  have hstep : step g w.tokens.toArray g.reserved (init run k) =
      .stop (init run k).run (.error (.undeclared k.name)) := by
    simp only [step, init, Frame.advance, hnone]
  rw [solve, bound, loop, hstep]

/-- A sub-problem that is marked, but not on the stack, was left by an earlier search. -/
theorem reentry_of_not_mem {stack : List Frame} (h : k ∉ stack.map Frame.key) :
    reentry stack k = .abandoned k := by
  have hnone : (stack.map Frame.key).reverse.dropWhile (fun key => key != k) = [] := by
    rw [List.dropWhile_eq_nil_iff]
    intro j hj
    rw [List.mem_reverse] at hj
    simpa using fun hjk : j = k => h (hjk ▸ hj)
  simp [reentry, cycleTo, hnone]

theorem exists_reentry_eq_cyclic {stack : List Frame} (h : k ∈ stack.map Frame.key) :
    ∃ c, reentry stack k = .cyclic c := by
  obtain ⟨before, others, hsplit, hbefore⟩ := List.eq_append_cons_of_mem (List.mem_reverse.2 h)
  exact ⟨_, reentry_eq hsplit hbefore⟩

/-- **How a search for a declared name ends**: with the right answer and no new marks, with a
circle, or at a declared sub-problem that was marked before. -/
theorem solve_declared (h : run.memo.Exact g w) (hk : k.name ∈ g.names) :
    ((solve g w run k).2 = .ok (k.ends g w) ∧
        ∀ j, (solve g w run k).1.memo.get? j = some .inProgress →
          run.memo.get? j = some .inProgress) ∨
      (∃ c, (solve g w run k).2 = .error (.cyclic c)) ∨
      ∃ j, (solve g w run k).2 = .error (.abandoned j) ∧ j.name ∈ g.names ∧
        run.memo.get? j = some .inProgress := by
  obtain ⟨s, hs, hh⟩ := solve_sound h k
  generalize (solve g w run k).1 = run' at hh ⊢
  generalize (solve g w run k).2 = result at hh ⊢
  cases hh with
  | @done _ reply =>
    have hreply : reply = some (k.ends g w) := by
      cases hs.ready with
      | fresh hs => cases hs
      | replied h hr _ =>
        cases h
        exact hr
    refine .inl ⟨by rw [hreply]; rfl, fun j hj => ?_⟩
    -- the stack is empty, so all marks are stale
    rcases (hs.marked j).1 hj with hj | hj
    · cases hj
    · exact hj.2
  | lost hlost => exact absurd hlost (hs.advance_ne_error hk _)
  | @again run' f below reply tried d hadv hd =>
    rcases (hs.marked d.request).1 hd with hmem | hstale
    · have hmem : d.request ∈ (⟨f.key, .waiting d⟩ :: below : List Frame).map Frame.key := hmem
      obtain ⟨c, hc⟩ := exists_reentry_eq_cyclic hmem
      exact .inr (.inl ⟨c, congrArg Except.error hc⟩)
    · have hnot : d.request ∉ (⟨f.key, .waiting d⟩ :: below : List Frame).map Frame.key :=
        fun hmem => hs.notStale d.request hmem hstale
      exact .inr (.inr ⟨d.request, congrArg Except.error (reentry_of_not_mem hnot),
        (hs.waits hadv).asks.declared, hstale.2⟩)

/-! ### One search after the other -/

/-- After any searches all ends in the memo are right, and a declared sub-problem is marked only if
one of them failed. -/
theorem runAfter_marked (calls : List SubProblem) :
    (runAfter g w calls).memo.Exact g w ∧
      ∀ j, (runAfter g w calls).memo.get? j = some .inProgress → j.name ∈ g.names →
        HasFailed g w calls := by
  induction calls using List.reverseRecOn with
  | nil => exact ⟨exact_fresh, nofun⟩
  | append_singleton calls k ih =>
    obtain ⟨hexact, hmarked⟩ := ih
    rw [runAfter_concat]
    refine ⟨solve_exact hexact k, fun j hj hdecl => ?_⟩
    by_cases hk : k.name ∈ g.names
    · have hfailed : ∀ f, (solve g w (runAfter g w calls) k).2 = .error f →
          HasFailed g w (calls ++ [k]) := fun f hf => ⟨calls, k, [], rfl, hk, f, hf⟩
      rcases solve_declared hexact hk with ⟨-, hnew⟩ | ⟨c, hc⟩ | ⟨i, hi, -⟩
      · exact (hmarked j (hnew j hj) hdecl).concat k
      · exact hfailed _ hc
      · exact hfailed _ hi
    · -- the new mark is at an undeclared name
      rw [solve_undeclared _ hk] at hj
      have hj : ((runAfter g w calls).memo.set k .inProgress).get? j = some .inProgress := hj
      rw [Memo.get?_set] at hj
      split at hj
      · rename_i hjk
        exact absurd (hjk ▸ hdecl) hk
      · exact (hmarked j hj hdecl).concat k

theorem mem_ends_iff_generates {q : ℕ} :
    q ∈ k.ends g w ↔
      ∃ u, g.Generates k.name u ∧ u <+: w.tokens.drop k.position ∧ q = k.position + u.length := by
  rw [SubProblem.mem_ends]
  constructor
  · rintro ⟨b, hb, u, hu, hpre, hq⟩
    exact ⟨u, ⟨b, hb, hu⟩, hpre, hq⟩
  · rintro ⟨u, ⟨b, hb, hu⟩, hpre, hq⟩
    exact ⟨b, hb, u, hu, hpre, hq⟩

/-- **Searches that share a run.**  After any searches, for any names and positions, an answer has
exactly the ends of the derivations of its name from its position.  A search for an undeclared name
fails with that name.  A search for a declared one fails with a circle, or at a mark that was left
behind, and then an earlier search for a declared name has failed. -/
theorem solve_shared (g : Grammar) (w : TokenStream) (calls : List SubProblem) (k : SubProblem) :
    (∀ ends, (solve g w (runAfter g w calls) k).2 = .ok ends →
        IsAscending ends ∧ ∀ q, q ∈ ends ↔ ∃ u, g.Generates k.name u ∧
          u <+: w.tokens.drop k.position ∧ q = k.position + u.length) ∧
      (k.name ∉ g.names → (solve g w (runAfter g w calls) k).2 = .error (.undeclared k.name)) ∧
      (k.name ∈ g.names → ∀ f, (solve g w (runAfter g w calls) k).2 = .error f →
        (∃ c, f = .cyclic c) ∨ (∃ j, f = .abandoned j) ∧ HasFailed g w calls) := by
  obtain ⟨hexact, hmarked⟩ := runAfter_marked (g := g) (w := w) calls
  by_cases hk : k.name ∈ g.names
  · rcases solve_declared hexact hk with ⟨ho, -⟩ | ⟨c, ho⟩ | ⟨j, ho, hj, hmark⟩
    · rw [ho]
      refine ⟨fun ends hends => ?_, fun h => absurd hk h, fun _ => nofun⟩
      obtain rfl := Except.ok.inj hends
      exact ⟨SubProblem.isAscending_ends, fun q => mem_ends_iff_generates⟩
    · rw [ho]
      refine ⟨nofun, fun h => absurd hk h, fun _ f hf => ?_⟩
      exact .inl ⟨c, (Except.error.inj hf).symm⟩
    · rw [ho]
      refine ⟨nofun, fun h => absurd hk h, fun _ f hf => ?_⟩
      exact .inr ⟨⟨j, (Except.error.inj hf).symm⟩, hmarked j hmark hj⟩
  · rw [solve_undeclared _ hk]
    exact ⟨nofun, fun _ => rfl, fun h => absurd h hk⟩

/-- A name that begins with itself, one that leads to it, and one that has nothing to do with it. -/
def whirl : Grammar where
  rules := [
    ⟨⟨"whirl", by decide⟩, [[.nonterminal ⟨"whirl", by decide⟩, .lexical .word]], by decide⟩,
    ⟨⟨"detour", by decide⟩, [[.nonterminal ⟨"whirl", by decide⟩]], by decide⟩,
    ⟨⟨"steady", by decide⟩,
      [[.lexical .integer], [.lexical .integer, .nonterminal ⟨"steady", by decide⟩]], by decide⟩]
  start := "steady"
  distinct := by decide
  startDeclared := by decide
  closed := by decide

/-- Two numbers. -/
def numbers : TokenStream := .ofText "1 2"

/-- A circle makes the next search fail at what it left marked, and the one after it finds all
ends. -/
theorem solve_shared_whirl :
    (solve whirl numbers (runAfter whirl numbers [⟨"whirl", 0⟩]) ⟨"detour", 0⟩).2 =
        .error (.abandoned ⟨"whirl", 0⟩) ∧
      HasFailed whirl numbers [⟨"whirl", 0⟩] ∧
      (solve whirl numbers (runAfter whirl numbers [⟨"whirl", 0⟩, ⟨"detour", 0⟩])
          ⟨"steady", 0⟩).2 = .ok [1, 2] ∧
      ∀ q, q ∈ [1, 2] ↔
        ∃ u, whirl.Generates "steady" u ∧ u <+: numbers.tokens.drop 0 ∧ q = 0 + u.length := by
  have hdetour : (solve whirl numbers (runAfter whirl numbers [⟨"whirl", 0⟩]) ⟨"detour", 0⟩).2 =
      .error (.abandoned ⟨"whirl", 0⟩) := by decide
  have hsteady : (solve whirl numbers (runAfter whirl numbers [⟨"whirl", 0⟩, ⟨"detour", 0⟩])
      ⟨"steady", 0⟩).2 = .ok [1, 2] := by decide
  obtain ⟨-, -, hfails⟩ := solve_shared whirl numbers [⟨"whirl", 0⟩] ⟨"detour", 0⟩
  obtain ⟨hanswers, -, -⟩ :=
    solve_shared whirl numbers [⟨"whirl", 0⟩, ⟨"detour", 0⟩] ⟨"steady", 0⟩
  refine ⟨hdetour, ?_, hsteady, (hanswers _ hsteady).2⟩
  rcases hfails (by decide) _ hdetour with ⟨c, hc⟩ | ⟨-, hfailed⟩
  · cases hc
  · exact hfailed

end Search

end Acceptor
