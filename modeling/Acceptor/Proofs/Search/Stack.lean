import Acceptor.Proofs.Search.Counters

/-!
# The stack and the memo at every turn

Whenever a turn of the search for the start symbol begins, the stack and the memo fit together
(`Search.Orderly`): what is marked in the memo is what is on the stack, each derivation waits for
the one above it, positions never decrease towards the top, and as many sub-problems were solved as
have solved entries (`Search.orderly_of_atTurn`).

The invariants of the search say most of this for one derivation or one sub-problem at a time.  The
stack as a whole is read off the chain of questions that it stands for (`Search.Awaits.suspended`,
`Search.Awaits.rising`), and the solved entries are counted through the marked ones
(`Search.countP_marked`).
-/

namespace Acceptor

/-- The sub-problem is solved. -/
def Entry.isSolved : Entry → Bool
  | .inProgress => false
  | .solved _ => true

namespace Memo

variable {m : Memo} {k : SubProblem}

theorem countP_entries (m : Memo) (p : Entry → Bool) :
    m.entries.countP (fun x => p x.2) = m.keys.countP fun k => (m.get? k).any p := by
  rw [entries, List.countP_filterMap]
  refine List.countP_congr fun k _ => ?_
  cases m.get? k with
  | none => rfl
  | some e => rfl

theorem marked_iff :
    m.get? k = some .inProgress ↔ k ∈ m.keys ∧ ¬ (m.get? k).any Entry.isSolved = true := by
  rw [mem_keys]
  cases m.get? k with
  | none => simp
  | some e =>
    cases e with
    | inProgress => simp [Entry.isSolved]
    | solved ends => simp [Entry.isSolved]

end Memo

namespace Search

variable (g : Grammar) (w : TokenStream)

/-- The state in which turn `n` begins, counted from zero, of a search that is in a given state; there
is none if the search halts before. -/
def atTurn : ℕ → State → Option State
  | 0, s => some s
  | n + 1, s =>
    match step g w.tokens.toArray g.reserved s with
    | .next s' => atTurn n s'
    | .stop _ _ => none

/-- The derivation is suspended on the request for a sub-problem. -/
def Frame.WaitsFor (f : Frame) (k : SubProblem) : Prop :=
  ∃ d, f.stage = .waiting d ∧ d.request = k

/-- The stack and the memo of a state fit together. -/
structure Orderly (s : State) : Prop where
  /-- The sub-problems marked in the memo are those on the stack. -/
  marked : ∀ k, s.run.memo.get? k = some .inProgress ↔ k ∈ s.stack.map Frame.key
  /-- No sub-problem is on the stack twice. -/
  distinct : (s.stack.map Frame.key).Nodup
  /-- From the bottom of the stack to its top, positions never decrease. -/
  rising : (s.stack.reverse.map fun f => f.key.position).Pairwise (· ≤ ·)
  /-- They are positions of the stream. -/
  inside : ∀ f ∈ s.stack, f.key.position ≤ w.length
  /-- Each derivation below another one waits for what that one solves. -/
  suspended : s.stack.IsChain fun above below => below.WaitsFor above.key
  /-- The ends of a solved sub-problem lie between its position and the end of the stream. -/
  ends : ∀ k ends, s.run.memo.get? k = some (.solved ends) →
    ∀ q ∈ ends, k.position ≤ q ∧ q ≤ w.length
  /-- As many sub-problems were solved as have solved entries. -/
  counted : s.run.solved = s.run.memo.entries.countP fun x => x.2.isSolved

variable {g w}

theorem turns_of_atTurn {n : ℕ} {s s' : State} (h : atTurn g w n s = some s') : Turns g w s s' := by
  induction n generalizing s with
  | zero =>
    cases h
    exact .refl
  | succ n ih =>
    rcases step_cases (g := g) (w := w) s with ⟨s₁, hs, ht⟩ | ⟨run, result, hs, -⟩
    · simp only [atTurn, hs] at h
      exact .head ht (ih h)
    · simp only [atTurn, hs] at h
      cases h

/-! ### Along the stack -/

theorem Awaits.suspended {root : SubProblem} {below : List Frame} {f : Frame}
    (h : Awaits root below f.key) :
    (f :: below).IsChain fun above below => below.WaitsFor above.key := by
  generalize hk : f.key = k at h
  induction h generalizing f with
  | nil => exact .singleton f
  | @cons key d below _ ih => exact .cons_cons ⟨d, rfl, hk.symm⟩ (ih rfl)

theorem Awaits.rising {root : SubProblem} {below : List Frame} {f : Frame} {m : Memo}
    (h : Awaits root below f.key) (hc : ∀ f ∈ below, f.OnCourse g w m) :
    ((f :: below).reverse.map fun f => f.key.position).Pairwise (· ≤ ·) := by
  have hchain := h.chain hc
  rw [← List.map_singleton (f := Frame.key), ← List.map_reverse, ← List.map_append,
    ← List.reverse_cons, List.isChain_map] at hchain
  rw [← List.isChain_iff_pairwise, List.isChain_map]
  exact hchain.imp fun _ _ hask => hask.le

theorem Sound.suspended {root : SubProblem} {stale : SubProblem → Prop} {s : State}
    (hs : Sound g w root stale s) :
    s.stack.IsChain fun above below => below.WaitsFor above.key := by
  obtain ⟨run, stack, reply⟩ := s
  cases stack with
  | nil => exact .nil
  | cons f below => exact hs.ready.top.1.suspended

theorem Sound.rising {root : SubProblem} {stale : SubProblem → Prop} {s : State}
    (hs : Sound g w root stale s) :
    (s.stack.reverse.map fun f => f.key.position).Pairwise (· ≤ ·) := by
  obtain ⟨run, stack, reply⟩ := s
  cases stack with
  | nil => exact .nil
  | cons f below =>
    exact hs.ready.top.1.rising fun f hf => hs.onCourse f (List.mem_cons_of_mem _ hf)

/-! ### Counting -/

/-- The marked entries are as many as the derivations on the stack. -/
theorem countP_marked {s : State}
    (hmarked : ∀ k, s.run.memo.get? k = some .inProgress ↔ k ∈ s.stack.map Frame.key)
    (hdistinct : (s.stack.map Frame.key).Nodup) :
    s.run.memo.keys.countP (fun k => decide ¬ (s.run.memo.get? k).any Entry.isSolved = true) =
      s.stack.length := by
  have hperm : (s.run.memo.keys.filter
      fun k => decide ¬ (s.run.memo.get? k).any Entry.isSolved = true).Perm
        (s.stack.map Frame.key) := by
    refine (List.perm_ext_iff_of_nodup (s.run.memo.nodup_keys.filter _) hdistinct).2 fun k => ?_
    rw [List.mem_filter, decide_eq_true_eq, ← Memo.marked_iff, hmarked]
  rw [List.countP_eq_length_filter, hperm.length_eq, List.length_map]

/-- **At every turn of the search for the start symbol, the stack and the memo fit together.** -/
theorem orderly_of_atTurn {n : ℕ} {s : State}
    (h : atTurn g w n (init .fresh ⟨g.start, 0⟩) = some s) : Orderly w s := by
  have hturns := turns_of_atTurn h
  obtain ⟨hs, ht⟩ := hturns.thorough
  have hmarked : ∀ k, s.run.memo.get? k = some .inProgress ↔ k ∈ s.stack.map Frame.key := by
    intro k
    rw [hs.marked k, or_false]
  have hinside : ∀ k e, s.run.memo.get? k = some e → k.position ≤ w.length := by
    intro k e hk
    have hreached : g.Reached w k := ht.reached k (Memo.mem_keys.2 (by rw [hk]; rfl))
    exact hreached.le
  refine ⟨hmarked, hs.distinct, hs.rising, ?_, hs.suspended, ?_, ?_⟩
  · intro f hf
    exact hinside f.key _ ((hmarked f.key).2 (List.mem_map_of_mem hf))
  · intro k ends hk q hq
    rw [hs.exact k ends hk, SubProblem.mem_ends] at hq
    exact ⟨hq.le, hq.le_max.trans (max_le le_rfl (hinside k _ hk))⟩
  · have hsolved := hturns.solved
    have hsplit := List.length_eq_countP_add_countP
      (fun k => (s.run.memo.get? k).any Entry.isSolved) (l := s.run.memo.keys)
    rw [countP_marked hmarked hs.distinct, ← Memo.countP_entries] at hsplit
    omega

/-- An engine with a number, and wagons with a name each. -/
def train : Grammar where
  rules := [
    ⟨⟨"train", by decide⟩,
      [[.nonterminal ⟨"engine", by decide⟩, .nonterminal ⟨"wagons", by decide⟩]], by decide⟩,
    ⟨⟨"engine", by decide⟩, [[.lexical .integer]], by decide⟩,
    ⟨⟨"wagons", by decide⟩,
      [[], [.lexical .identifier, .nonterminal ⟨"wagons", by decide⟩]], by decide⟩]
  start := "train"
  distinct := by decide
  startDeclared := by decide
  closed := by decide

/-- An engine and two wagons. -/
def shunted : TokenStream := .ofText "7 a b"

/-- The engine is solved, and the wagons of the wagons behind it are asked for. -/
theorem orderly_of_atTurn_train :
    ∃ s, atTurn train shunted 4 (init .fresh ⟨train.start, 0⟩) = some s ∧
      s.stack.map Frame.key = [⟨"wagons", 2⟩, ⟨"wagons", 1⟩, ⟨"train", 0⟩] ∧
      s.run.memo.get? ⟨"engine", 0⟩ = some (.solved [1]) ∧ Orderly shunted s := by
  have hkeys : (atTurn train shunted 4 (init .fresh ⟨train.start, 0⟩)).map
      (fun s => s.stack.map Frame.key) = some [⟨"wagons", 2⟩, ⟨"wagons", 1⟩, ⟨"train", 0⟩] := by
    decide
  have hengine : (atTurn train shunted 4 (init .fresh ⟨train.start, 0⟩)).map
      (fun s => s.run.memo.get? ⟨"engine", 0⟩) = some (some (.solved [1])) := by
    decide
  obtain ⟨s, hs, hstack⟩ := Option.map_eq_some_iff.1 hkeys
  rw [hs] at hengine
  exact ⟨s, hs, hstack, Option.some.inj hengine, orderly_of_atTurn hs⟩

end Search

end Acceptor
