import Acceptor.Proofs.Search.Locality

/-!
# A search sees only the rules it asks for

A search knows its grammar in two ways only: it looks up the alternatives of the names it asks for,
and it matches terminals, given what is reserved.  So two grammars that agree in both
(`Grammar.Agrees`) are searched in the same way: turn by turn, with the same memo, the same tries
and the same outcome (`Search.solve_eq_of_agrees`), whatever other rules they have.
-/

namespace Acceptor

open Relation

/-- For all that a sub-problem asks for, directly or through others, two grammars have the same
alternatives, and terminals match the tokens of the stream alike in both. -/
structure Grammar.Agrees (g g' : Grammar) (w : TokenStream) (root : SubProblem) : Prop where
  attempt : g'.attempt w = g.attempt w
  alternatives : ∀ k, ReflTransGen (g.Asks w) root k →
    g'.alternatives? k.name = g.alternatives? k.name

/-! ### Derivations -/

namespace Derivation

variable {tokens : Array String} {reserved reserved' : List String}

theorem walk_eq (h : attempt tokens reserved' = attempt tokens reserved) (a : Alternative)
    (starts : List ℕ) : walk tokens reserved' a starts = walk tokens reserved a starts := by
  induction a generalizing starts with
  | nil => rfl
  | cons s rest ih =>
    by_cases hs : s.isTerminal = true
    · rw [walk_terminal hs, walk_terminal hs, h, ih]
    · cases s with
      | literal => exact absurd rfl hs
      | lexical => exact absurd rfl hs
      | empty => exact ih starts
      | nonterminal name =>
        cases starts with
        | nil => exact ih []
        | cons start later => rfl

theorem explore_eq (h : attempt tokens reserved' = attempt tokens reserved) (origin : ℕ)
    (ends : List ℕ) (alternatives : List Alternative) :
    explore tokens reserved' origin ends alternatives =
      explore tokens reserved origin ends alternatives := by
  induction alternatives generalizing ends with
  | nil => rfl
  | cons a alternatives ih =>
    unfold explore
    simp only [walk_eq h, ih]

theorem resume_eq (h : attempt tokens reserved' = attempt tokens reserved) (origin : ℕ)
    (d : Waiting) (answer : List ℕ) :
    resume tokens reserved' origin d answer = resume tokens reserved origin d answer := by
  unfold resume
  simp only [walk_eq h, explore_eq h]

end Derivation

namespace Search

variable {g g' : Grammar} {w : TokenStream} {root : SubProblem}

theorem Frame.advance_eq {f : Frame} (h : g'.attempt w = g.attempt w)
    (hf : g'.alternatives? f.key.name = g.alternatives? f.key.name) (reply : Option (List ℕ)) :
    f.advance g' w.tokens.toArray g'.reserved reply =
      f.advance g w.tokens.toArray g.reserved reply := by
  unfold Frame.advance
  simp only [hf, Derivation.resume_eq h, Derivation.explore_eq h]

/-! ### Turns -/

/-- The derivation on top goes on in the same way. -/
theorem Sound.advance_eq {stale : SubProblem → Prop} {run : Run} {f : Frame} {below : List Frame}
    {reply : Option (List ℕ)} (hs : Sound g w root stale ⟨run, f :: below, reply⟩)
    (h : g.Agrees g' w root) :
    f.advance g' w.tokens.toArray g'.reserved reply =
      f.advance g w.tokens.toArray g.reserved reply :=
  Frame.advance_eq h.attempt (h.alternatives f.key hs.reached) reply

theorem Turn.agrees {stale : SubProblem → Prop} {s s' : State} (ht : Turn g w s s')
    (hs : Sound g w root stale s) (h : g.Agrees g' w root) : Turn g' w s s' := by
  cases ht with
  | finish hadv => exact .finish ((hs.advance_eq h).trans hadv)
  | hit hadv hd => exact .hit ((hs.advance_eq h).trans hadv) hd
  | push hadv hd => exact .push ((hs.advance_eq h).trans hadv) hd

theorem Halts.agrees {stale : SubProblem → Prop} {s : State} {run : Run}
    {result : Except Failure (List ℕ)} (hh : Halts g w s run result) (hs : Sound g w root stale s)
    (h : g.Agrees g' w root) : Halts g' w s run result := by
  cases hh with
  | done => exact .done
  | lost hadv => exact .lost ((hs.advance_eq h).trans hadv)
  | again hadv hd => exact .again ((hs.advance_eq h).trans hadv) hd

/-- **Searches in grammars that agree are the same.** -/
theorem solve_eq_of_agrees {run : Run} (hg : run.memo.Exact g w) (hg' : run.memo.Exact g' w)
    (h : g.Agrees g' w root) : solve g' w run root = solve g w run root := by
  obtain ⟨s, hs, hh⟩ := solve_halts hg root
  obtain ⟨s', hs', hh'⟩ := solve_halts hg' root
  -- the turns in one grammar are turns in the other, as the invariant holds before each of them
  have hboth := hs.invariant
    (P := fun s => Sound g w root (fun j => j ≠ root ∧ run.memo.get? j = some .inProgress) s ∧
      Turns g' w (init run root) s)
    ⟨Sound.init hg fun _ => Iff.rfl, .refl⟩
    fun _ _ ⟨hsound, hturns⟩ ht => ⟨hsound.turn ht, hturns.tail (ht.agrees hsound h)⟩
  obtain ⟨hsound, hturns⟩ := hboth
  obtain ⟨hrun, hresult⟩ := hs'.halts_unique hh' hturns (hh.agrees hsound h)
  exact Prod.ext hrun hresult

end Search

end Acceptor
