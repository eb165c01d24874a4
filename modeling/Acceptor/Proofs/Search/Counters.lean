import Acceptor.Proofs.Search.Completeness

/-!
# What a search counts

A search for the start symbol that comes to an answer has solved every sub-problem that is reached,
each of them once, and tried exactly what belongs to their courses (`Search.Counted`).  The counters
of a run are read off from there.

At every moment, the sub-problems in the memo are those that were solved and those on the stack
(`Search.solved_turn`).
-/

namespace Acceptor

namespace Search

variable {g : Grammar} {w : TokenStream}

/-- A turn solves what it takes off the stack. -/
theorem solved_turn {root : SubProblem} {stale : SubProblem → Prop} {s s' : State}
    (hs : Sound g w root stale s) (ht : Turn g w s s')
    (h : s.run.solved + s.stack.length = s.run.memo.keys.length) :
    s'.run.solved + s'.stack.length = s'.run.memo.keys.length := by
  rw [(keys_turn hs ht).1, List.length_append, ← h]
  cases ht with
  | finish h =>
    simp [opened]
    omega
  | hit h hd => simp [opened]
  | push h hd =>
    simp [opened]
    omega

theorem Turns.solved {k : SubProblem} {s : State} (h : Turns g w (Search.init .fresh k) s) :
    s.run.solved + s.stack.length = s.run.memo.keys.length := by
  refine (h.invariant (P := fun s => Sound g w k (fun _ => False) s ∧
    s.run.solved + s.stack.length = s.run.memo.keys.length) ⟨Sound.fresh k, rfl⟩ ?_).2
  rintro s₁ s₂ ⟨hs, h⟩ ht
  exact ⟨hs.turn ht, solved_turn hs ht h⟩

variable (g w) in
/-- The run has solved these sub-problems, and tried what belongs to their courses. -/
structure Counted (run : Run) (keys : List SubProblem) : Prop where
  /-- They are all that are reached. -/
  mem : ∀ k, k ∈ keys ↔ g.Reached w k
  /-- None of them comes up twice. -/
  nodup : keys.Nodup
  /-- Each of them was solved once. -/
  solved : run.solved = keys.length
  /-- All tries are theirs. -/
  attempts : run.attempts.Perm (keys.flatMap fun k => (k.course g w).tries)

/-- **The counters of a search** that comes to an answer. -/
theorem counted_of_solve {ends : List ℕ} (h : (solve g w .fresh ⟨g.start, 0⟩).2 = .ok ends) :
    ∃ keys, Counted g w (solve g w .fresh ⟨g.start, 0⟩).1 keys := by
  obtain ⟨s, hturns, hh⟩ := solve_halts (exact_fresh (g := g) (w := w)) ⟨g.start, 0⟩
  rw [h] at hh
  generalize (solve g w .fresh ⟨g.start, 0⟩).1 = run at hh ⊢
  cases hh with
  | done =>
    have hc := complete_of_turns hturns
    refine ⟨run.memo.keys, fun k => ?_, run.memo.nodup_keys, by simpa using hturns.solved, ?_⟩
    · rw [Memo.mem_keys, Option.isSome_iff_exists]
      constructor
      · rintro ⟨e, he⟩
        exact ((hc.entry k e).1 he).1
      · intro hk
        exact ⟨_, (hc.entry k _).2 ⟨hk, rfl⟩⟩
    · simpa using hturns.thorough.2.tries

end Search

end Acceptor
