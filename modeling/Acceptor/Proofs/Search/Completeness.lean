import Acceptor.Proofs.Search.Termination
import Mathlib.Data.List.TakeWhile

/-!
# What a search has done when it ends

A search with a fresh run leaves nothing out.  At every moment

* all that a solved sub-problem asks for is solved, and no solved sub-problem asks for itself,
  directly or through others,
* the memo has only sub-problems that are asked for,
* the terminals tried so far and those that the derivations on the stack have still to try are, in
  some order, all that belong to the courses of the sub-problems in the memo.

So the search for the start symbol ends in one of two ways (`Search.search_outcome`): it has solved
exactly the sub-problems that are reached (`Search.Complete`), or it reports a circle of them.
-/

namespace Acceptor

open Relation

namespace Search

variable (g : Grammar) (w : TokenStream)

/-- The invariant of a search for `root` that began with a fresh run. -/
structure Thorough (root : SubProblem) (s : State) : Prop where
  /-- What solved sub-problems ask for is solved. -/
  closed : ∀ k j, s.run.memo.Settled k → g.Asks w k j → s.run.memo.Settled j
  /-- No solved sub-problem leads back to itself. -/
  grounded : ∀ k, s.run.memo.Settled k → Acc (fun j k => g.Asks w k j) k
  /-- All sub-problems in the memo are asked for. -/
  reached : ∀ k ∈ s.run.memo.keys, ReflTransGen (g.Asks w) root k
  /-- All tries are those of the sub-problems in the memo. -/
  tries : (s.run.attempts ++ s.stack.flatMap fun f => (f.course g w).tries).Perm
    (s.run.memo.keys.flatMap fun k => (k.course g w).tries)

variable {g w}

theorem Thorough.init (k : SubProblem) : Thorough g w k (init .fresh k) where
  closed j j' hj := by
    obtain ⟨ends, hj⟩ := settled_of_set_inProgress hj
    cases hj
  grounded j hj := by
    obtain ⟨ends, hj⟩ := settled_of_set_inProgress hj
    cases hj
  reached j hj := by
    have hj : j ∈ [k] := hj
    rw [List.mem_singleton.1 hj]
  tries := List.Perm.refl _

theorem settled_of_set_solved {m : Memo} {k j : SubProblem} {ends : List ℕ}
    (h : (m.set k (.solved ends)).Settled j) : j = k ∨ m.Settled j := by
  obtain ⟨ends', hj⟩ := h
  rw [Memo.get?_set] at hj
  split at hj
  · exact .inl ‹_›
  · exact .inr ⟨ends', hj⟩

theorem tries_advance {f : Frame} {reply : Option (List ℕ)} {tried : List Attempt}
    {progress : Progress}
    (h : f.advance g w.tokens.toArray g.reserved reply = .ok (tried, progress))
    (hr : reply = f.answer g w) :
    (f.course g w).tries = tried ++ (progress.course (SubProblem.ends g w) w.tokens.toArray
      g.reserved f.key.position).tries :=
  congrArg Course.tries (advance_course h hr)

/-- A turn tries what the derivation on top had to try, and adds what the sub-problem it opens has to
try. -/
theorem tries_turn {root : SubProblem} {stale : SubProblem → Prop} {s s' : State}
    (hs : Sound g w root stale s) (ht : Turn g w s s') :
    (s'.run.attempts ++ s'.stack.flatMap fun f => (f.course g w).tries).Perm
      ((s.run.attempts ++ s.stack.flatMap fun f => (f.course g w).tries) ++
        (opened s s').flatMap fun k => (k.course g w).tries) := by
  rw [List.perm_iff_count]
  intro a
  cases ht with
  | finish h =>
    have htried := tries_advance h hs.ready.top.2.1
    simp [opened, htried, Progress.course]
    omega
  | @hit run f below reply tried d ends h hd =>
    have hwaits : (f.course g w).tries = tried ++ (Frame.course g w ⟨f.key, .waiting d⟩).tries :=
      tries_advance h hs.ready.top.2.1
    simp [opened, hwaits]
    omega
  | @push run f below reply tried d h hd =>
    have hwaits : (f.course g w).tries = tried ++ (Frame.course g w ⟨f.key, .waiting d⟩).tries :=
      tries_advance h hs.ready.top.2.1
    have hfresh : (Frame.course g w ⟨d.request, .fresh⟩).tries = (d.request.course g w).tries := rfl
    simp [opened, hwaits, hfresh]
    omega

/-- A turn solves at most the sub-problem on top, and then all it asks for is solved. -/
theorem settled_turn {root : SubProblem} {stale : SubProblem → Prop} {s s' : State}
    (hs : Sound g w root stale s) (ht : Turn g w s s') :
    (∀ j, s.run.memo.Settled j → s'.run.memo.Settled j) ∧
      ∀ k, s'.run.memo.Settled k →
        s.run.memo.Settled k ∨ ∀ j, g.Asks w k j → s.run.memo.Settled j := by
  cases ht with
  | @finish run f below reply tried ends h =>
    refine ⟨fun j hj => settled_set hj (.inr ⟨ends, rfl⟩), fun k hk => ?_⟩
    rcases settled_of_set_solved hk with rfl | hk
    · exact .inr (hs.finished h).2
    · exact .inl hk
  | hit h hd => exact ⟨fun _ hj => hj, fun _ hk => .inl hk⟩
  | push h hd =>
    exact ⟨fun _ hj => settled_set hj (.inl hd), fun _ hk => .inl (settled_of_set_inProgress hk)⟩

/-- **One turn leaves nothing out.** -/
theorem Thorough.turn {root : SubProblem} {stale : SubProblem → Prop} {s s' : State}
    (h : Thorough g w root s) (hs : Sound g w root stale s) (ht : Turn g w s s') :
    Thorough g w root s' := by
  obtain ⟨hkeys, hopen⟩ := keys_turn hs ht
  obtain ⟨hgrow, hnew⟩ := settled_turn hs ht
  refine ⟨fun k j hk hkj => ?_, fun k hk => ?_, fun k hk => ?_, ?_⟩
  · rcases hnew k hk with hk | hk
    · exact hgrow j (h.closed k j hk hkj)
    · exact hgrow j (hk j hkj)
  · -- what is solved just now asks only for what was solved before
    rcases hnew k hk with hk | hk
    · exact h.grounded k hk
    · exact Acc.intro k fun j hj => h.grounded j (hk j hj)
  · rw [hkeys, List.mem_append] at hk
    exact hk.elim (h.reached k) (hopen k)
  · rw [hkeys, List.flatMap_append]
    exact (tries_turn hs ht).trans (h.tries.append_right _)

theorem Turns.thorough {k : SubProblem} {s : State} (h : Turns g w (Search.init .fresh k) s) :
    Sound g w k (fun _ => False) s ∧ Thorough g w k s :=
  h.invariant (P := fun s => Sound g w k (fun _ => False) s ∧ Thorough g w k s)
    ⟨Sound.fresh k, Thorough.init k⟩ fun _ _ ⟨hs, h⟩ ht => ⟨hs.turn ht, h.turn hs ht⟩

/-! ### The end of a search -/

variable (g w) in
/-- A search for the start symbol that left nothing out. -/
structure Complete (run : Run) (ends : List ℕ) : Prop where
  /-- The answer is right. -/
  ends_eq : ends = SubProblem.ends g w ⟨g.start, 0⟩
  /-- The memo has the right ends of all sub-problems that are reached, and nothing else. -/
  entry : ∀ k e, run.memo.get? k = some e ↔ g.Reached w k ∧ e = .solved (k.ends g w)
  /-- No sub-problem that is reached leads back to itself. -/
  grounded : ∀ k, g.Reached w k → Acc (fun j k => g.Asks w k j) k
  /-- All that is tried occurs where it is tried, and all that occurs is tried. -/
  attempts : ∀ a, a ∈ run.attempts ↔
    ∃ s p, s.isTerminal = true ∧ g.Occurs w s p ∧ a = g.attempt w s p

theorem mem_tries_iff_occurs {a : Attempt} :
    (∃ k, g.Reached w k ∧ a ∈ (k.course g w).tries) ↔
      ∃ s p, s.isTerminal = true ∧ g.Occurs w s p ∧ a = g.attempt w s p := by
  constructor
  · rintro ⟨k, hk, ha⟩
    obtain ⟨s, p, hs, rfl, pre, rest, hb, hpre⟩ := SubProblem.mem_course_tries.1 ha
    exact ⟨s, p, hs, .inr ⟨k, hk, pre, rest, hb, hpre⟩, rfl⟩
  · rintro ⟨s, p, hs, ⟨rfl, -⟩ | ⟨k, hk, pre, rest, hb, hpre⟩, rfl⟩
    · cases hs
    · exact ⟨k, hk, SubProblem.mem_course_tries.2 ⟨s, p, hs, rfl, pre, rest, hb, hpre⟩⟩

theorem complete_of_turns {run : Run} {reply : Option (List ℕ)}
    (h : Turns g w (Search.init .fresh ⟨g.start, 0⟩) ⟨run, [], reply⟩) :
    Complete g w run (reply.getD []) := by
  obtain ⟨hs, ht⟩ := h.thorough
  obtain ⟨hreply, hroot⟩ : reply = some (SubProblem.ends g w ⟨g.start, 0⟩) ∧
      run.memo.Settled ⟨g.start, 0⟩ := by
    cases hs.ready with
    | fresh hs => cases hs
    | replied h hr hk =>
      cases h
      exact ⟨hr, hk⟩
  have hsettled : ∀ k, g.Reached w k → run.memo.Settled k := by
    intro k hk
    -- the root is solved, and what solved sub-problems ask for is solved
    induction hk with
    | refl => exact hroot
    | tail _ hst ih => exact ht.closed _ _ ih hst
  have hkeys : ∀ k, k ∈ run.memo.keys ↔ g.Reached w k := by
    refine fun k => ⟨ht.reached k, fun hk => Memo.mem_keys.2 ?_⟩
    obtain ⟨ends, hends⟩ := hsettled k hk
    exact Option.isSome_iff_exists.2 ⟨_, hends⟩
  refine ⟨by rw [hreply]; rfl, fun k e => ⟨fun hk => ?_, ?_⟩, fun k hk => ?_, fun a => ?_⟩
  · have hmem : k ∈ run.memo.keys := Memo.mem_keys.2 (Option.isSome_iff_exists.2 ⟨e, hk⟩)
    refine ⟨(hkeys k).1 hmem, ?_⟩
    obtain ⟨ends, hends⟩ := hsettled k ((hkeys k).1 hmem)
    cases hk.symm.trans hends
    rw [hs.exact k ends hends]
  · rintro ⟨hk, rfl⟩
    obtain ⟨ends, hends⟩ := hsettled k hk
    rw [← hs.exact k ends hends]
    exact hends
  · exact ht.grounded k (hsettled k hk)
  · have htries := ht.tries.mem_iff (a := a)
    simp only [List.flatMap_nil, List.append_nil, List.mem_flatMap, hkeys] at htries
    rw [htries]
    exact mem_tries_iff_occurs

/-- A sub-problem on the stack is reported with the names from it up to the top, and back to it. -/
theorem reentry_eq {stack : List Frame} {k : SubProblem} {before others : List SubProblem}
    (h : (stack.map Frame.key).reverse = before ++ k :: others) (hk : k ∉ before) :
    reentry stack k =
      .cyclic ⟨k.name, k.position, (k :: others ++ [k]).map SubProblem.name⟩ := by
  have hskip : ∀ j ∈ before, (j != k) = true := by
    intro j hj
    simpa using fun hjk : j = k => hk (hjk ▸ hj)
  have hfirst : (stack.map Frame.key).reverse.dropWhile (fun key => key != k) = k :: others := by
    rw [h, List.dropWhile_append_of_pos hskip]
    simp
  simp [reentry, cycleTo, hfirst, CyclicGrammar.ofNames]

/-- **How a search for the start symbol ends**: it has left nothing out, or it reports a circle. -/
theorem search_outcome (g : Grammar) (w : TokenStream) :
    (∃ ends, (solve g w .fresh ⟨g.start, 0⟩).2 = .ok ends ∧
        Complete g w (solve g w .fresh ⟨g.start, 0⟩).1 ends) ∨
      ∃ k others, (solve g w .fresh ⟨g.start, 0⟩).2 = .error (.cyclic
          ⟨k.name, k.position, (k :: others ++ [k]).map SubProblem.name⟩) ∧
        g.Circle w k others := by
  obtain ⟨s, hturns, hh⟩ := solve_halts (exact_fresh (g := g) (w := w)) ⟨g.start, 0⟩
  obtain ⟨hs, -⟩ := hturns.thorough
  generalize (solve g w .fresh ⟨g.start, 0⟩).1 = run at hh ⊢
  generalize (solve g w .fresh ⟨g.start, 0⟩).2 = result at hh ⊢
  cases hh with
  | done => exact .inl ⟨_, rfl, complete_of_turns hturns⟩
  | lost h => exact absurd h (hs.advance_ne_error g.startDeclared _)
  | @again run f below reply tried d h hd =>
    -- a marked sub-problem is on the stack, and all of the stack leads to what the top asks for
    have hmem : d.request ∈ (⟨f.key, .waiting d⟩ :: below : List Frame).map Frame.key :=
      ((hs.marked d.request).1 hd).resolve_right id
    have hawaits : Awaits _ (⟨f.key, .waiting d⟩ :: below) d.request := .cons hs.ready.top.1
    have honCourse : ∀ f' ∈ (⟨f.key, .waiting d⟩ :: below : List Frame),
        f'.OnCourse g w run.memo := by
      intro f' hf'
      rcases List.mem_cons.1 hf' with rfl | hf'
      · exact hs.waits h
      · exact hs.onCourse f' (List.mem_cons_of_mem _ hf')
    obtain ⟨before, others, hsplit, hbefore⟩ :=
      List.eq_append_cons_of_mem (List.mem_reverse.2 hmem)
    refine .inr ⟨d.request, others, congrArg Except.error (reentry_eq hsplit hbefore), ?_, ?_, ?_⟩
    · exact (hawaits.asks honCourse).1
    · have hchain := hawaits.chain honCourse
      rw [hsplit, List.append_assoc] at hchain
      exact hchain.right_of_append
    · have hnodup := List.nodup_reverse.2 hs.distinct
      have hkeys : ((f :: below).map Frame.key).reverse = before ++ d.request :: others := hsplit
      rw [hkeys] at hnodup
      exact (List.nodup_append.1 hnodup).2.1

end Search

end Acceptor
