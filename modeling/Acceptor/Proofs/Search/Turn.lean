import Acceptor.Recognition.Search
import Mathlib.Data.Nat.Notation
import Mathlib.Logic.Relation

/-!
# The turns of a search

What one turn of the search can do, said once: the derivation on top of the stack finishes, it is
answered from the memo, or it opens a new sub-problem (`Search.Turn`); or the search halts
(`Search.Halts`).  `Search.loop_halts` says that a search with enough fuel goes through turns until
it halts, and gives the outcome of that halt.
-/

namespace Acceptor

namespace Search

variable (g : Grammar) (w : TokenStream)

/-- One turn after which the search goes on. -/
inductive Turn : State → State → Prop
  | finish {run : Run} {f : Frame} {below : List Frame} {reply : Option (List ℕ)}
      {tried : List Attempt} {ends : List ℕ}
      (h : f.advance g w.tokens.toArray g.reserved reply = .ok (tried, .finished ends)) :
      Turn ⟨run, f :: below, reply⟩
        ⟨⟨run.memo.set f.key (.solved ends), run.solved + 1, tried.reverse ++ run.attempts⟩, below,
          some ends⟩
  | hit {run : Run} {f : Frame} {below : List Frame} {reply : Option (List ℕ)}
      {tried : List Attempt} {d : Waiting} {ends : List ℕ}
      (h : f.advance g w.tokens.toArray g.reserved reply = .ok (tried, .waits d))
      (hd : run.memo.get? d.request = some (.solved ends)) :
      Turn ⟨run, f :: below, reply⟩
        ⟨⟨run.memo, run.solved, tried.reverse ++ run.attempts⟩, ⟨f.key, .waiting d⟩ :: below,
          some ends⟩
  | push {run : Run} {f : Frame} {below : List Frame} {reply : Option (List ℕ)}
      {tried : List Attempt} {d : Waiting}
      (h : f.advance g w.tokens.toArray g.reserved reply = .ok (tried, .waits d))
      (hd : run.memo.get? d.request = none) :
      Turn ⟨run, f :: below, reply⟩
        ⟨⟨run.memo.set d.request .inProgress, run.solved, tried.reverse ++ run.attempts⟩,
          ⟨d.request, .fresh⟩ :: ⟨f.key, .waiting d⟩ :: below, none⟩

/-- A turn with which the search halts. -/
inductive Halts : State → Run → Except Failure (List ℕ) → Prop
  | done {run : Run} {reply : Option (List ℕ)} : Halts ⟨run, [], reply⟩ run (.ok (reply.getD []))
  | lost {run : Run} {f : Frame} {below : List Frame} {reply : Option (List ℕ)} {failure : Failure}
      (h : f.advance g w.tokens.toArray g.reserved reply = .error failure) :
      Halts ⟨run, f :: below, reply⟩ run (.error failure)
  | again {run : Run} {f : Frame} {below : List Frame} {reply : Option (List ℕ)}
      {tried : List Attempt} {d : Waiting}
      (h : f.advance g w.tokens.toArray g.reserved reply = .ok (tried, .waits d))
      (hd : run.memo.get? d.request = some .inProgress) :
      Halts ⟨run, f :: below, reply⟩ ⟨run.memo, run.solved, tried.reverse ++ run.attempts⟩
        (.error (reentry (⟨f.key, .waiting d⟩ :: below) d.request))

/-- Any number of turns. -/
abbrev Turns : State → State → Prop := Relation.ReflTransGen (Turn g w)

variable {g w}

/-- **Every step is a turn or a halt.** -/
theorem step_cases (s : State) :
    (∃ s', step g w.tokens.toArray g.reserved s = .next s' ∧ Turn g w s s') ∨
      ∃ run result, step g w.tokens.toArray g.reserved s = .stop run result ∧
        Halts g w s run result := by
  obtain ⟨run, stack, reply⟩ := s
  cases stack with
  | nil => exact .inr ⟨_, _, rfl, .done⟩
  | cons f below =>
    cases h : f.advance g w.tokens.toArray g.reserved reply with
    | error failure => exact .inr ⟨_, _, by simp only [step, h], .lost h⟩
    | ok result =>
      obtain ⟨tried, progress⟩ := result
      cases progress with
      | finished ends => exact .inl ⟨_, by simp only [step, h], .finish h⟩
      | waits d =>
        cases hd : run.memo.get? d.request with
        | none => exact .inl ⟨_, by simp only [step, h, hd], .push h hd⟩
        | some e =>
          cases e with
          | inProgress => exact .inr ⟨_, _, by simp only [step, h, hd], .again h hd⟩
          | solved ends => exact .inl ⟨_, by simp only [step, h, hd], .hit h hd⟩

theorem step_eq_next_iff {s s' : State} :
    step g w.tokens.toArray g.reserved s = .next s' ↔ Turn g w s s' := by
  constructor
  · intro h
    rcases step_cases (g := g) (w := w) s with ⟨s'', hs, ht⟩ | ⟨run, result, hs, -⟩
    · cases hs.symm.trans h
      exact ht
    · cases hs.symm.trans h
  · intro h
    cases h with
    | finish h => simp only [step, h]
    | hit h hd => simp only [step, h, hd]
    | push h hd => simp only [step, h, hd]

theorem step_eq_stop_iff {s : State} {run : Run} {result : Except Failure (List ℕ)} :
    step g w.tokens.toArray g.reserved s = .stop run result ↔ Halts g w s run result := by
  constructor
  · intro h
    rcases step_cases (g := g) (w := w) s with ⟨s', hs, -⟩ | ⟨run, result, hs, hh⟩
    · cases hs.symm.trans h
    · cases hs.symm.trans h
      exact hh
  · intro h
    cases h with
    | done => rfl
    | lost h => simp only [step, h]
    | again h hd => simp only [step, h, hd]

/-- What holds at first and is kept by every turn holds after any number of turns. -/
theorem Turns.invariant {P : State → Prop} {s s' : State} (h : Turns g w s s') (hs : P s)
    (hstep : ∀ s₁ s₂, P s₁ → Turn g w s₁ s₂ → P s₂) : P s' := by
  induction h with
  | refl => exact hs
  | tail _ ht ih => exact hstep _ _ ih ht

/-- With more fuel than a measure that every turn makes smaller, the search halts. -/
theorem loop_halts {μ : State → ℕ} {s : State}
    (hμ : ∀ s₁ s₂, Turns g w s s₁ → Turn g w s₁ s₂ → μ s₂ < μ s₁) {fuel : ℕ} (hf : μ s < fuel) :
    ∃ s', Turns g w s s' ∧
      Halts g w s' (loop g w.tokens.toArray g.reserved fuel s).1
        (loop g w.tokens.toArray g.reserved fuel s).2 := by
  induction fuel generalizing s with
  | zero => exact absurd hf (Nat.not_lt_zero _)
  | succ fuel ih =>
    rcases step_cases (g := g) (w := w) s with ⟨s', hs, ht⟩ | ⟨run, result, hs, hh⟩
    · have hlt := hμ s s' .refl ht
      obtain ⟨s'', hs'', hh⟩ := ih (fun s₁ s₂ h => hμ s₁ s₂ (.head ht h)) (by omega)
      refine ⟨s'', .head ht hs'', ?_⟩
      simpa only [loop, hs] using hh
    · refine ⟨s, .refl, ?_⟩
      simpa only [loop, hs] using hh

end Search

end Acceptor
