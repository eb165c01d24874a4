import Acceptor.Proofs.Search.Soundness
import Mathlib.Algebra.Order.BigOperators.Group.List
import Mathlib.Algebra.Order.Ring.Nat
import Mathlib.Data.List.Perm.Subperm

/-!
# Every search comes to an end

The number of turns that a search has left is known at every moment (`Search.turnsLeft`): a
derivation that waits takes one turn for each question it has left, a fresh one takes one more, and
every sub-problem without an entry may still be opened, once.

* `Search.turnsLeft_turn` : every turn takes off exactly one.
* `Search.solve_halts` : the bound on the turns of `Search.solve` is never reached.
* `Search.start_search_halts` : the search for the start symbol halts, and opens each sub-problem at
  most once.
-/

namespace Acceptor

open Relation

namespace Search

variable (g : Grammar) (w : TokenStream)

/-- How many turns a derivation takes until it is finished. -/
noncomputable def Frame.turns (f : Frame) : ℕ :=
  match f.stage with
  | .fresh => (f.course g w).asks.length + 1
  | .waiting _ => (f.course g w).asks.length

/-- All sub-problems at positions up to `limit`. -/
def sites (limit : ℕ) : List SubProblem :=
  g.rules.flatMap fun r => (List.range (limit + 1)).map fun p => ⟨r.name.val, p⟩

/-- The sub-problems that have no entry yet. -/
def unseen (limit : ℕ) (m : Memo) : List SubProblem :=
  (sites g limit).filter fun k => (m.get? k).isNone

/-- How many turns a search takes until all that is under way or may still be opened is finished, if
no position beyond `limit` comes up. -/
noncomputable def turnsLeft (limit : ℕ) (s : State) : ℕ :=
  (s.stack.map (Frame.turns g w)).sum +
    ((unseen g limit s.run.memo).map fun k => Frame.turns g w ⟨k, .fresh⟩).sum

variable {g w}

/-! ### Sub-problems without an entry -/

theorem mem_sites {limit : ℕ} {k : SubProblem} :
    k ∈ sites g limit ↔ k.name ∈ ruleNames g.rules ∧ k.position ≤ limit := by
  simp only [sites, ruleNames, List.mem_flatMap, List.mem_map, List.mem_range, Nat.lt_succ_iff]
  constructor
  · rintro ⟨r, hr, p, hp, rfl⟩
    exact ⟨⟨r, hr, rfl⟩, hp⟩
  · rintro ⟨⟨r, hr, hname⟩, hp⟩
    exact ⟨r, hr, _, hp, SubProblem.ext hname rfl⟩

theorem nodup_sites (limit : ℕ) : (sites g limit).Nodup := by
  refine List.nodup_flatMap.2 ⟨fun r _ => ?_, ?_⟩
  · refine List.Nodup.map (fun p q h => ?_) List.nodup_range
    exact congrArg SubProblem.position h
  · refine (List.pairwise_map.1 g.distinct).imp fun {r r'} hne k hk hk' => hne ?_
    obtain ⟨p, -, rfl⟩ := List.mem_map.1 hk
    obtain ⟨p', -, h⟩ := List.mem_map.1 hk'
    exact (congrArg SubProblem.name h).symm

theorem length_sites (limit : ℕ) : (sites g limit).length = g.rules.length * (limit + 1) := by
  simp [sites, List.length_flatMap]

theorem unseen_set_of_isSome {limit : ℕ} {m : Memo} {k : SubProblem} (h : (m.get? k).isSome)
    (e : Entry) : unseen g limit (m.set k e) = unseen g limit m := by
  refine List.filter_congr fun j _ => ?_
  rw [Memo.get?_set]
  split
  · rename_i hj
    subst hj
    cases hm : m.get? j with
    | none => simp [hm] at h
    | some _ => rfl
  · rfl

theorem mem_unseen {limit : ℕ} {m : Memo} {k : SubProblem} :
    k ∈ unseen g limit m ↔ k ∈ sites g limit ∧ m.get? k = none := by
  rw [unseen, List.mem_filter, Option.isNone_iff_eq_none]

theorem nodup_unseen (limit : ℕ) (m : Memo) : (unseen g limit m).Nodup :=
  (nodup_sites limit).filter _

theorem unseen_set_of_none {limit : ℕ} {m : Memo} {k : SubProblem} (h : m.get? k = none)
    (hk : k ∈ sites g limit) (e : Entry) :
    (unseen g limit m).Perm (k :: unseen g limit (m.set k e)) := by
  have hnodup : (k :: unseen g limit (m.set k e)).Nodup := by
    refine List.nodup_cons.2 ⟨fun hmem => ?_, nodup_unseen limit _⟩
    have := (mem_unseen.1 hmem).2
    rw [Memo.get?_set, if_pos rfl] at this
    cases this
  refine (List.perm_ext_iff_of_nodup (nodup_unseen limit m) hnodup).2 fun j => ?_
  rw [List.mem_cons, mem_unseen, mem_unseen, Memo.get?_set]
  by_cases hj : j = k
  · simp [hj, hk, h]
  · simp [hj]

/-! ### One turn -/

theorem turns_advance {f : Frame} {reply : Option (List ℕ)} {tried : List Attempt}
    {progress : Progress}
    (h : f.advance g w.tokens.toArray g.reserved reply = .ok (tried, progress))
    (hr : reply = f.answer g w) :
    f.turns g w = (progress.course (SubProblem.ends g w) w.tokens.toArray g.reserved
      f.key.position).asks.length + 1 := by
  have hc := congrArg (fun c => c.asks.length) (advance_course h hr)
  obtain ⟨key, stage⟩ := f
  cases stage with
  | fresh => simpa [Frame.turns, Frame.awaited] using hc
  | waiting d => simpa [Frame.turns, Frame.awaited, Nat.add_comm] using hc

/-- **Every turn takes off exactly one** of the turns left. -/
theorem turnsLeft_turn {root : SubProblem} {stale : SubProblem → Prop} {s s' : State} {limit : ℕ}
    (hs : Sound g w root stale s) (hw : w.length ≤ limit) (hroot : root.position ≤ limit)
    (ht : Turn g w s s') : turnsLeft g w limit s' + 1 = turnsLeft g w limit s := by
  cases ht with
  | @finish run f below reply tried ends h =>
    have hturns := turns_advance h hs.ready.top.2.1
    have hmark : run.memo.get? f.key = some .inProgress :=
      (hs.marked f.key).2 (.inl List.mem_cons_self)
    simp only [Progress.course, List.length_nil, Nat.zero_add] at hturns
    simp only [turnsLeft, List.map_cons, List.sum_cons, hturns]
    -- the finished sub-problem had an entry before
    rw [unseen_set_of_isSome (by rw [hmark]; rfl)]
    omega
  | @hit run f below reply tried d ends h hd =>
    have hturns := turns_advance h hs.ready.top.2.1
    have hwaits : Frame.turns g w ⟨f.key, .waiting d⟩ + 1 = f.turns g w := hturns.symm
    simp only [turnsLeft, List.map_cons, List.sum_cons, ← hwaits]
    omega
  | @push run f below reply tried d h hd =>
    have hturns := turns_advance h hs.ready.top.2.1
    have hwaits : Frame.turns g w ⟨f.key, .waiting d⟩ + 1 = f.turns g w := hturns.symm
    have hask : g.Asks w f.key d.request := (hs.waits h).asks
    have hsite : d.request ∈ sites g limit := by
      refine mem_sites.2 ⟨hask.declared, ?_⟩
      have hle := Grammar.asks_path_le_max (hs.reached.tail hask)
      exact hle.trans (max_le hw hroot)
    -- what the new derivation costs was counted as unseen before
    have hsum := ((unseen_set_of_none hd hsite .inProgress).map
      fun k => Frame.turns g w ⟨k, .fresh⟩).sum_eq
    simp only [List.map_cons, List.sum_cons] at hsum
    simp only [turnsLeft, List.map_cons, List.sum_cons, ← hwaits, hsum]
    omega

/-! ### The bound -/

theorem length_le_of_isAscending {l : List ℕ} {limit : ℕ} (h : IsAscending l)
    (hl : ∀ q ∈ l, q ≤ limit) : l.length ≤ limit + 1 := by
  have hsub : l ⊆ List.range (limit + 1) :=
    fun q hq => List.mem_range.2 (Nat.lt_succ_of_le (hl q hq))
  have := (List.subperm_of_subset (h.imp Nat.ne_of_lt) hsub).length_le
  rwa [List.length_range] at this

theorem length_cross_asks (s : Symbol) (starts : List ℕ) :
    (g.cross w s starts).asks.length = starts.length * s.reference?.toList.length := by
  cases s with
  | literal => rfl
  | lexical => rfl
  | empty => rfl
  | nonterminal name => simp [Derivation.cross, Symbol.reference?]

theorem length_follow_asks {limit : ℕ} (hw : w.length ≤ limit) {a : Alternative} {starts : List ℕ}
    (h : IsAscending starts) (hl : ∀ p ∈ starts, p ≤ limit) :
    (g.follow w a starts).asks.length ≤
      (limit + 1) * (a.filterMap Symbol.reference?).length := by
  induction a generalizing starts with
  | nil => exact Nat.zero_le _
  | cons s a ih =>
    have hnext : ∀ m ∈ (g.cross w s starts).ends, m ≤ limit := by
      intro m hm
      obtain ⟨p, hp, hpm⟩ := Grammar.mem_cross_ends.1 hm
      exact hpm.le_max.trans (max_le hw (hl p hp))
    have hrest := ih (Grammar.isAscending_cross h) hnext
    have hfirst := Nat.mul_le_mul_right s.reference?.toList.length (length_le_of_isAscending h hl)
    have hrefs : ((s :: a).filterMap Symbol.reference?).length =
        s.reference?.toList.length + (a.filterMap Symbol.reference?).length := by
      cases hs : s.reference? with
      | none => simp [hs]
      | some name => simp [hs, Nat.add_comm]
    rw [Grammar.follow_cons, Course.after_asks, List.length_append, length_cross_asks, hrefs,
      Nat.mul_add]
    exact Nat.add_le_add hfirst hrest

theorem length_survey_asks {limit : ℕ} (hw : w.length ≤ limit) {origin : ℕ} (ho : origin ≤ limit)
    (ends : List ℕ) (alternatives : List Alternative) :
    (g.survey w origin ends alternatives).asks.length ≤
      (limit + 1) *
        (alternatives.flatMap fun a => a.filterMap Symbol.reference?).length := by
  induction alternatives generalizing ends with
  | nil => exact Nat.zero_le _
  | cons a alternatives ih =>
    have hfirst : (g.follow w a [origin]).asks.length ≤
        (limit + 1) * (a.filterMap Symbol.reference?).length :=
      length_follow_asks hw (List.pairwise_singleton _ _) (by simpa using ho)
    rw [Grammar.survey_cons, Course.after_asks, List.length_append, List.flatMap_cons,
      List.length_append, Nat.mul_add]
    exact Nat.add_le_add hfirst (ih _)

theorem turns_fresh_le {limit : ℕ} (hw : w.length ≤ limit) {r : Rule} (hr : r ∈ g.rules) {p : ℕ}
    (hp : p ≤ limit) : Frame.turns g w ⟨⟨r.name.val, p⟩, .fresh⟩ ≤ ruleBound (limit + 1) r := by
  have hrule : g.alternatives? r.name.val = some r.alternatives := by
    rw [Grammar.alternatives?, Grammar.rule?_eq_some_iff.2 ⟨hr, rfl⟩, Option.map_some]
  simp only [Frame.turns, Frame.course, SubProblem.course, hrule, Option.getD_some]
  exact Nat.succ_le_succ (length_survey_asks hw hp [] r.alternatives)

theorem sum_row_le {limit : ℕ} (hw : w.length ≤ limit) {r : Rule} (hr : r ∈ g.rules) :
    (((List.range (limit + 1)).map fun p => (⟨r.name.val, p⟩ : SubProblem)).map
      fun k => Frame.turns g w ⟨k, .fresh⟩).sum ≤ (limit + 1) * ruleBound (limit + 1) r := by
  refine (List.sum_le_card_nsmul _ (ruleBound (limit + 1) r) fun n hn => ?_).trans_eq ?_
  · obtain ⟨k, hk, rfl⟩ := List.mem_map.1 hn
    obtain ⟨p, hp, rfl⟩ := List.mem_map.1 hk
    exact turns_fresh_le hw hr (Nat.le_of_lt_succ (List.mem_range.1 hp))
  · simp

theorem sum_rows_le {limit : ℕ} (hw : w.length ≤ limit) {rules : List Rule}
    (hrules : ∀ r ∈ rules, r ∈ g.rules) :
    ((rules.flatMap fun r => (List.range (limit + 1)).map fun p =>
      (⟨r.name.val, p⟩ : SubProblem)).map fun k => Frame.turns g w ⟨k, .fresh⟩).sum ≤
      (limit + 1) * rules.foldr (fun r turns => ruleBound (limit + 1) r + turns) 0 := by
  induction rules with
  | nil => exact Nat.zero_le _
  | cons r rules ih =>
    rw [List.flatMap_cons, List.map_append, List.sum_append, List.foldr_cons, Nat.mul_add]
    exact Nat.add_le_add (sum_row_le hw (hrules r List.mem_cons_self))
      (ih fun r' hr' => hrules r' (List.mem_cons_of_mem _ hr'))

theorem ruleBound_le_sum {width : ℕ} {rules : List Rule} {r : Rule} (hr : r ∈ rules) :
    ruleBound width r ≤ rules.foldr (fun r turns => ruleBound width r + turns) 0 := by
  induction rules with
  | nil => cases hr
  | cons r' rules ih =>
    rw [List.foldr_cons]
    rcases List.mem_cons.1 hr with rfl | hr
    · exact Nat.le_add_right _ _
    · exact (ih hr).trans (Nat.le_add_left _ _)

theorem turns_fresh_le_sum {limit : ℕ} (hw : w.length ≤ limit) {k : SubProblem}
    (hk : k.position ≤ limit) :
    Frame.turns g w ⟨k, .fresh⟩ ≤
      g.rules.foldr (fun r turns => ruleBound (limit + 1) r + turns) 0 + 1 := by
  by_cases hname : k.name ∈ ruleNames g.rules
  · obtain ⟨r, hr, hname⟩ := List.mem_map.1 hname
    have hturns := turns_fresh_le hw hr hk
    rw [show (⟨r.name.val, k.position⟩ : SubProblem) = k from SubProblem.ext hname rfl] at hturns
    exact hturns.trans ((ruleBound_le_sum hr).trans (Nat.le_succ _))
  · rw [← Grammar.alternatives?_isSome_iff, Bool.not_eq_true, Option.isSome_eq_false_iff,
      Option.isNone_iff_eq_none] at hname
    simp [Frame.turns, Frame.course, SubProblem.course, hname, Derivation.survey]

theorem turnsLeft_init_lt (run : Run) (k : SubProblem) :
    turnsLeft g w (max w.length k.position) (init run k) < bound g w.length k.position := by
  have hw : w.length ≤ max w.length k.position := le_max_left _ _
  -- one derivation of the first sub-problem, and one of every other
  have hroot : Frame.turns g w ⟨k, .fresh⟩ ≤ _ := turns_fresh_le_sum hw (le_max_right _ _)
  have hsites : ((sites g (max w.length k.position)).map fun k => Frame.turns g w ⟨k, .fresh⟩).sum ≤
      _ := sum_rows_le hw fun _ h => h
  have hunseen : ((unseen g (max w.length k.position) (init run k).run.memo).map
      fun k => Frame.turns g w ⟨k, .fresh⟩).sum ≤ _ :=
    (List.Sublist.map _ List.filter_sublist).sum_le_sum fun _ _ => Nat.zero_le _
  have hinit : turnsLeft g w (max w.length k.position) (init run k) =
      Frame.turns g w ⟨k, .fresh⟩ + ((unseen g (max w.length k.position) (init run k).run.memo).map
        fun k => Frame.turns g w ⟨k, .fresh⟩).sum := rfl
  rw [hinit, bound, Nat.succ_mul]
  omega

/-- **The bound on the turns of a search is never reached**: the search halts by itself. -/
theorem solve_halts {run : Run} (h : run.memo.Exact g w) (k : SubProblem) :
    ∃ s, Turns g w (init run k) s ∧ Halts g w s (solve g w run k).1 (solve g w run k).2 := by
  refine loop_halts (fun s₁ s₂ h₁ h₂ => ?_) (turnsLeft_init_lt run k)
  have hs := h₁.invariant (Sound.init h fun _ => Iff.rfl) fun _ _ hs ht => hs.turn ht
  have := turnsLeft_turn hs (le_max_left _ _) (le_max_right _ _) h₂
  omega

/-! ### What a search opens -/

/-- The sub-problem that a turn opens, if it puts one on the stack. -/
def opened (s s' : State) : List SubProblem :=
  if s.stack.length < s'.stack.length then (s'.stack.take 1).map Frame.key else []

variable (g w) in
/-- The search for `root` with a fresh run gets to a state, and has put these sub-problems on the
stack by then, in this order. -/
inductive Opens (root : SubProblem) : List SubProblem → State → Prop
  | start : Opens root [root] (init .fresh root)
  | step {ks : List SubProblem} {s s' : State} (h : Opens root ks s)
      (ht : step g w.tokens.toArray g.reserved s = .next s') : Opens root (ks ++ opened s s') s'

/-- A turn enters in the memo what it opens, and opens only what is asked for. -/
theorem keys_turn {root : SubProblem} {stale : SubProblem → Prop} {s s' : State}
    (hs : Sound g w root stale s) (ht : Turn g w s s') :
    s'.run.memo.keys = s.run.memo.keys ++ opened s s' ∧
      ∀ k ∈ opened s s', ReflTransGen (g.Asks w) root k := by
  cases ht with
  | @finish run f below reply tried ends h =>
    have hmark : run.memo.get? f.key = some .inProgress :=
      (hs.marked f.key).2 (.inl List.mem_cons_self)
    have hkeys := Memo.keys_set_of_mem (.solved ends) (Memo.mem_keys.2 (by rw [hmark]; rfl))
    simp [opened, hkeys]
  | @hit run f below reply tried d ends h hd => simp [opened]
  | @push run f below reply tried d h hd =>
    have hkeys := Memo.keys_set_of_not_mem .inProgress
      (fun hk => by simpa [hd] using Memo.mem_keys.1 hk : d.request ∉ run.memo.keys)
    have hask := hs.reached.tail (hs.waits h).asks
    simp [opened, hkeys, hask]

theorem Opens.sound {root : SubProblem} {ks : List SubProblem} {s : State}
    (h : Opens g w root ks s) :
    Sound g w root (fun _ => False) s ∧ s.run.memo.keys = ks ∧
      ∀ k ∈ ks, ReflTransGen (g.Asks w) root k := by
  induction h with
  | start =>
    refine ⟨Sound.fresh root, rfl, fun k hk => ?_⟩
    rw [List.mem_singleton.1 hk]
  | step _ ht ih =>
    obtain ⟨hs, hkeys, hreach⟩ := ih
    have ht := step_eq_next_iff.1 ht
    obtain ⟨hkeys', hreach'⟩ := keys_turn hs ht
    refine ⟨hs.turn ht, by rw [hkeys', hkeys], fun k hk => ?_⟩
    rcases List.mem_append.1 hk with hk | hk
    · exact hreach k hk
    · exact hreach' k hk

theorem Turns.opens {root : SubProblem} {s : State} (h : Turns g w (init .fresh root) s) :
    ∃ ks, Opens g w root ks s :=
  h.invariant (P := fun s => ∃ ks, Opens g w root ks s) ⟨[root], .start⟩
    fun _ _ ⟨_, hks⟩ ht => ⟨_, hks.step (step_eq_next_iff.2 ht)⟩

/-- **The search for the start symbol halts.**  At every moment of it, no sub-problem has been put on
the stack twice, at most as many as there are names and positions have been put there, and every turn
makes the number of turns left smaller. -/
theorem start_search_halts (g : Grammar) (w : TokenStream) :
    (∀ ks s, Opens g w ⟨g.start, 0⟩ ks s →
      ks.Nodup ∧ ks.length ≤ g.rules.length * (w.length + 1) ∧
        ∀ s', step g w.tokens.toArray g.reserved s = .next s' →
          turnsLeft g w w.length s' < turnsLeft g w w.length s) ∧
      ∃ ks s, Opens g w ⟨g.start, 0⟩ ks s ∧
        step g w.tokens.toArray g.reserved s =
          .stop (solve g w .fresh ⟨g.start, 0⟩).1 (solve g w .fresh ⟨g.start, 0⟩).2 := by
  constructor
  · intro ks s h
    obtain ⟨hs, rfl, hreach⟩ := h.sound
    refine ⟨s.run.memo.nodup_keys, ?_, fun s' ht => ?_⟩
    · have hsub : s.run.memo.keys ⊆ sites g w.length := fun k hk =>
        have hk : g.Reached w k := hreach k hk
        mem_sites.2 ⟨hk.declared, hk.le⟩
      have := (List.subperm_of_subset s.run.memo.nodup_keys hsub).length_le
      rwa [length_sites] at this
    · have := turnsLeft_turn hs le_rfl (Nat.zero_le _) (step_eq_next_iff.1 ht)
      omega
  · obtain ⟨s, hs, hh⟩ := solve_halts (exact_fresh (g := g) (w := w)) ⟨g.start, 0⟩
    obtain ⟨ks, hks⟩ := hs.opens
    exact ⟨ks, s, hks, step_eq_stop_iff.2 hh⟩

end Search

end Acceptor
