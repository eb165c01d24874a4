import Acceptor.Proofs.Search.Termination

/-!
# A search sees only the tokens it tries

A search reads the input in one place only: where it tries a terminal.  So two inputs that have the
same token, or none, wherever the search of one of them tried a terminal are searched in the same
way: turn by turn, with the same memo, the same tries and the same outcome (`Search.solve_congr`).
How long the inputs are does not matter.

Every operation of a derivation is shown to have this property first (`Derivation.walk_congr`,
`Derivation.explore_congr`, `Derivation.resume_congr`), then one turn, and then all turns.
-/

namespace Acceptor

/-- Two inputs have the same token, or none, at all positions where something was tried. -/
def Attempt.Agree (tokens tokens' : Array String) (tried : List Attempt) : Prop :=
  ∀ a ∈ tried, tokens'[a.position]? = tokens[a.position]?

section

variable {tokens tokens' : Array String} {reserved : List String}

namespace Attempt

theorem Agree.mono {tried more : List Attempt} (h : Agree tokens tokens' more)
    (hs : tried ⊆ more) : Agree tokens tokens' tried :=
  fun a ha => h a (hs ha)

theorem agree_append {tried more : List Attempt} :
    Agree tokens tokens' (tried ++ more) ↔
      Agree tokens tokens' tried ∧ Agree tokens tokens' more := by
  simp only [Agree, List.mem_append]
  constructor
  · intro h
    exact ⟨fun a ha => h a (.inl ha), fun a ha => h a (.inr ha)⟩
  · rintro ⟨h, h'⟩ a (ha | ha)
    · exact h a ha
    · exact h' a ha

theorem agree_reverse {tried : List Attempt} :
    Agree tokens tokens' tried.reverse ↔ Agree tokens tokens' tried := by
  simp only [Agree, List.mem_reverse]

end Attempt

open Attempt

/-! ### Derivations -/

namespace Derivation

theorem attempts_congr {s : Symbol} {starts : List ℕ}
    (h : Agree tokens tokens' (starts.map (attempt tokens reserved s))) :
    starts.map (attempt tokens' reserved s) = starts.map (attempt tokens reserved s) := by
  refine List.map_congr_left fun p hp => ?_
  have hat : tokens'[p]? = tokens[p]? := h _ (List.mem_map_of_mem hp)
  unfold attempt
  rw [hat]

theorem walk_congr {a : Alternative} {starts : List ℕ}
    (h : Agree tokens tokens' (walk tokens reserved a starts).1) :
    walk tokens' reserved a starts = walk tokens reserved a starts := by
  induction a generalizing starts with
  | nil => rfl
  | cons s rest ih =>
    by_cases hs : s.isTerminal = true
    · simp only [walk_terminal hs, agree_append] at h ⊢
      obtain ⟨htried, hmore⟩ := h
      rw [attempts_congr htried, ih hmore]
    · cases s with
      | literal => exact absurd rfl hs
      | lexical => exact absurd rfl hs
      | empty => exact ih h
      | nonterminal name =>
        cases starts with
        | nil => exact ih h
        -- a walk that waits has read nothing
        | cons start later => rfl

theorem explore_congr {origin : ℕ} {ends : List ℕ} {alternatives : List Alternative}
    (h : Agree tokens tokens' (explore tokens reserved origin ends alternatives).1) :
    explore tokens' reserved origin ends alternatives =
      explore tokens reserved origin ends alternatives := by
  induction alternatives generalizing ends with
  | nil => rfl
  | cons a alternatives ih =>
    have hwalk : Agree tokens tokens' (walk tokens reserved a [origin]).1 →
        walk tokens' reserved a [origin] = walk tokens reserved a [origin] := walk_congr
    unfold explore at h ⊢
    cases hw : walk tokens reserved a [origin] with
    | mk tried result =>
      rw [hw] at h hwalk
      cases result with
      | waits pause => rw [hwalk h]
      | through positions =>
        obtain ⟨htried, hmore⟩ := agree_append.1 h
        rw [hwalk htried]
        simp only [ih hmore]

theorem resume_congr {origin : ℕ} {d : Waiting} {answer : List ℕ}
    (h : Agree tokens tokens' (resume tokens reserved origin d answer).1) :
    resume tokens' reserved origin d answer = resume tokens reserved origin d answer := by
  obtain ⟨ends, alternatives, name, asked, later, reached, rest⟩ := d
  cases later with
  | cons start later => rfl
  | nil =>
    have hwalk : Agree tokens tokens'
        (walk tokens reserved rest (Ascending.union reached answer)).1 → _ = _ := walk_congr
    simp only [resume] at h ⊢
    cases hw : walk tokens reserved rest (Ascending.union reached answer) with
    | mk tried result =>
      rw [hw] at h hwalk
      cases result with
      | waits pause => rw [hwalk h]
      | through positions =>
        obtain ⟨htried, hmore⟩ := agree_append.1 h
        rw [hwalk htried]
        simp only [explore_congr hmore]

end Derivation

end

namespace Search

open Attempt

variable {g : Grammar} {w w' : TokenStream}

/-- A derivation that goes on reads only what it tries; `tried` stands in front of the tries made
before, the latest first. -/
theorem Frame.advance_congr {f : Frame} {reply : Option (List ℕ)} {tried : List Attempt}
    {progress : Progress} {before : List Attempt}
    (h : f.advance g w.tokens.toArray g.reserved reply = .ok (tried, progress))
    (hagree : Agree w.tokens.toArray w'.tokens.toArray (tried.reverse ++ before)) :
    f.advance g w'.tokens.toArray g.reserved reply = .ok (tried, progress) := by
  have hagree := agree_reverse.1 (agree_append.1 hagree).1
  obtain ⟨key, stage⟩ := f
  match stage, reply with
  | .waiting d, some answer =>
    simp only [Frame.advance, Except.ok.injEq] at h ⊢
    rw [← h]
    exact Derivation.resume_congr (by rwa [h])
  | .fresh, none =>
    simp only [Frame.advance] at h ⊢
    cases ha : g.alternatives? key.name with
    | none => simp [ha] at h
    | some alternatives =>
      simp only [ha, Except.ok.injEq] at h ⊢
      rw [← h]
      exact Derivation.explore_congr (by rwa [h])

theorem Frame.advance_error_congr {f : Frame} {reply : Option (List ℕ)} {failure : Failure}
    (h : f.advance g w.tokens.toArray g.reserved reply = .error failure) :
    f.advance g w'.tokens.toArray g.reserved reply = .error failure := by
  obtain ⟨key, stage⟩ := f
  match stage, reply with
  | .waiting d, some answer => simp [Frame.advance] at h
  | .waiting d, none => exact h
  | .fresh, some answer => exact h
  | .fresh, none =>
    simp only [Frame.advance] at h ⊢
    cases ha : g.alternatives? key.name with
    | none => simpa [ha] using h
    | some alternatives => simp [ha] at h

/-! ### Turns -/

theorem Turn.attempts_suffix {s s' : State} (h : Turn g w s s') :
    s.run.attempts <:+ s'.run.attempts := by
  cases h with
  | finish h => exact List.suffix_append _ _
  | hit h hd => exact List.suffix_append _ _
  | push h hd => exact List.suffix_append _ _

theorem Halts.attempts_suffix {s : State} {run : Run} {result : Except Failure (List ℕ)}
    (h : Halts g w s run result) : s.run.attempts <:+ run.attempts := by
  cases h with
  | done => exact List.suffix_rfl
  | lost h => exact List.suffix_rfl
  | again h hd => exact List.suffix_append _ _

/-- **One turn reads only what it tries.** -/
theorem Turn.congr {s s' : State} (h : Turn g w s s')
    (hagree : Agree w.tokens.toArray w'.tokens.toArray s'.run.attempts) : Turn g w' s s' := by
  cases h with
  | finish h => exact .finish (Frame.advance_congr h hagree)
  | hit h hd => exact .hit (Frame.advance_congr h hagree) hd
  | push h hd => exact .push (Frame.advance_congr h hagree) hd

theorem Halts.congr {s : State} {run : Run} {result : Except Failure (List ℕ)}
    (h : Halts g w s run result)
    (hagree : Agree w.tokens.toArray w'.tokens.toArray run.attempts) :
    Halts g w' s run result := by
  cases h with
  | done => exact .done
  | lost h => exact .lost (Frame.advance_error_congr h)
  | again h hd => exact .again (Frame.advance_congr h hagree) hd

theorem Turns.congr {s s' : State} (h : Turns g w s s')
    (hagree : Agree w.tokens.toArray w'.tokens.toArray s'.run.attempts) : Turns g w' s s' := by
  -- what an earlier state has tried is part of what a later one has tried
  induction h with
  | refl => exact .refl
  | tail _ ht ih => exact .tail (ih (hagree.mono ht.attempts_suffix.subset)) (ht.congr hagree)

/-! ### Whole searches -/

theorem turn_rightUnique : Relator.RightUnique (Turn g w) := by
  intro s s₁ s₂ h₁ h₂
  have hmove := (step_eq_next_iff.2 h₁).symm.trans (step_eq_next_iff.2 h₂)
  exact Move.next.inj hmove

/-- No turn follows a halt. -/
theorem Halts.eq_of_turns {s s' : State} {run : Run} {result : Except Failure (List ℕ)}
    (h : Halts g w s run result) (hs : Turns g w s s') : s = s' := by
  rcases Relation.ReflTransGen.cases_head hs with hs | ⟨t, ht, -⟩
  · exact hs
  · cases (step_eq_stop_iff.2 h).symm.trans (step_eq_next_iff.2 ht)

theorem Turns.halts_unique {s s₁ s₂ : State} {run₁ run₂ : Run}
    {result₁ result₂ : Except Failure (List ℕ)} (h₁ : Turns g w s s₁)
    (hh₁ : Halts g w s₁ run₁ result₁) (h₂ : Turns g w s s₂) (hh₂ : Halts g w s₂ run₂ result₂) :
    run₁ = run₂ ∧ result₁ = result₂ := by
  have heq : s₁ = s₂ := by
    rcases Relation.ReflTransGen.total_of_right_unique turn_rightUnique h₁ h₂ with h | h
    · exact hh₁.eq_of_turns h
    · exact (hh₂.eq_of_turns h).symm
  subst heq
  exact Move.stop.inj ((step_eq_stop_iff.2 hh₁).symm.trans (step_eq_stop_iff.2 hh₂))

/-- **A search sees only the tokens it tries**: on an input that agrees with another wherever the
search tried a terminal there, the search is the same. -/
theorem solve_congr {run : Run} (h : run.memo.Exact g w) (h' : run.memo.Exact g w')
    (k : SubProblem)
    (hagree : Agree w.tokens.toArray w'.tokens.toArray (solve g w run k).1.attempts) :
    solve g w' run k = solve g w run k := by
  obtain ⟨s, hs, hh⟩ := solve_halts h k
  obtain ⟨s', hs', hh'⟩ := solve_halts h' k
  have hturns : Turns g w' (init run k) s :=
    hs.congr (hagree.mono hh.attempts_suffix.subset)
  obtain ⟨hrun, hresult⟩ := hs'.halts_unique hh' hturns (hh.congr hagree)
  exact Prod.ext hrun hresult

end Search

end Acceptor
