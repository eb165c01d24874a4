import Acceptor.Proofs.Course
import Acceptor.Proofs.Search.Turn

/-!
# Every derivation keeps to its course

The invariant of a search.  At every moment

* the memo has only right answers,
* what each derivation on the stack has still to do is a rest of the whole course of its
  sub-problem, and the sub-problems it asked for before are solved (`Search.Frame.OnCourse`),
* each derivation waits for the one above it, down to the sub-problem the search began with
  (`Search.Awaits`),
* the sub-problems marked in the memo are those on the stack, besides what an earlier search left
  marked.

`Search.Sound.turn` shows that a turn keeps this, from any run whose memo has only right answers.
-/

namespace Acceptor

open Relation

/-- The memo has the ends of the sub-problem. -/
def Memo.Settled (m : Memo) (k : SubProblem) : Prop := ∃ ends, m.get? k = some (.solved ends)

/-- All ends in the memo are right. -/
def Memo.Exact (g : Grammar) (w : TokenStream) (m : Memo) : Prop :=
  ∀ k ends, m.get? k = some (.solved ends) → ends = k.ends g w

namespace Search

variable (g : Grammar) (w : TokenStream)

namespace Frame

/-- What the derivation has still to do, with the right answers. -/
noncomputable def course (f : Frame) : Course :=
  match f.stage with
  | .fresh => f.key.course g w
  | .waiting d => d.course (SubProblem.ends g w) w.tokens.toArray g.reserved f.key.position

/-- The sub-problem whose answer the derivation waits for. -/
def awaited (f : Frame) : List SubProblem :=
  match f.stage with
  | .fresh => []
  | .waiting d => [d.request]

/-- The reply with which the derivation goes on: the ends of what it waits for, and none before it
has begun. -/
noncomputable def answer (f : Frame) : Option (List ℕ) :=
  match f.stage with
  | .fresh => none
  | .waiting d => some (d.request.ends g w)

/-- What the derivation has still to do is a rest of the whole course of its sub-problem, and what
it asked for before is solved. -/
def OnCourse (m : Memo) (f : Frame) : Prop :=
  ∃ asked tried, f.key.course g w = (f.course g w).after asked tried ∧ ∀ j ∈ asked, m.Settled j

end Frame

/-- The frames, from the top, wait for the sub-problem, and the last of them for `root`. -/
inductive Awaits (root : SubProblem) : List Frame → SubProblem → Prop
  | nil : Awaits root [] root
  | cons {key : SubProblem} {d : Waiting} {below : List Frame} (h : Awaits root below key) :
      Awaits root (⟨key, .waiting d⟩ :: below) d.request

/-- The derivation on top has what it needs to go on: it is fresh, or there is the right reply. -/
inductive Ready (root : SubProblem) (s : State) : Prop
  | fresh {k : SubProblem} {below : List Frame} (hs : s.stack = ⟨k, .fresh⟩ :: below)
      (h : Awaits root below k) (hr : s.reply = none)
  | replied {k : SubProblem} (h : Awaits root s.stack k) (hr : s.reply = some (k.ends g w))
      (hk : s.run.memo.Settled k)

/-- The invariant of a search that began with `root`; earlier searches left the sub-problems marked
of which `stale` holds. -/
structure Sound (root : SubProblem) (stale : SubProblem → Prop) (s : State) : Prop where
  /-- All ends in the memo are right. -/
  exact : s.run.memo.Exact g w
  /-- Every derivation keeps to its course. -/
  onCourse : ∀ f ∈ s.stack, f.OnCourse g w s.run.memo
  /-- The derivation on top can go on. -/
  ready : Ready g w root s
  /-- Exactly the sub-problems on the stack are marked, besides stale ones. -/
  marked : ∀ k, s.run.memo.get? k = some .inProgress ↔ k ∈ s.stack.map Frame.key ∨ stale k
  /-- No sub-problem is on the stack twice. -/
  distinct : (s.stack.map Frame.key).Nodup
  /-- No stale sub-problem is on the stack. -/
  notStale : ∀ k ∈ s.stack.map Frame.key, ¬ stale k

variable {g w}

/-! ### The memo grows -/

theorem settled_set {m : Memo} {k j : SubProblem} {e : Entry} (h : m.Settled j)
    (hk : m.get? k = none ∨ ∃ ends, e = .solved ends) : (m.set k e).Settled j := by
  obtain ⟨ends, hj⟩ := h
  by_cases hjk : j = k
  · subst hjk
    rcases hk with hk | ⟨ends', rfl⟩
    · rw [hk] at hj
      cases hj
    · exact ⟨ends', by rw [Memo.get?_set, if_pos rfl]⟩
  · exact ⟨ends, by rw [Memo.get?_set, if_neg hjk, hj]⟩

theorem settled_set_self {m : Memo} {k : SubProblem} {ends : List ℕ} :
    (m.set k (.solved ends)).Settled k :=
  ⟨ends, by rw [Memo.get?_set, if_pos rfl]⟩

theorem settled_of_set_inProgress {m : Memo} {k j : SubProblem}
    (h : (m.set k .inProgress).Settled j) : m.Settled j := by
  obtain ⟨ends, hj⟩ := h
  rw [Memo.get?_set] at hj
  split at hj
  · cases hj
  · exact ⟨ends, hj⟩

theorem exact_set_solved {m : Memo} {k : SubProblem} {ends : List ℕ} (h : m.Exact g w)
    (hends : ends = k.ends g w) : (m.set k (.solved ends)).Exact g w := by
  intro j e hj
  rw [Memo.get?_set] at hj
  split at hj
  · rename_i hjk
    cases hj
    rw [hjk, hends]
  · exact h j e hj

theorem exact_set_inProgress {m : Memo} (h : m.Exact g w) (k : SubProblem) :
    (m.set k .inProgress).Exact g w := by
  intro j e hj
  rw [Memo.get?_set] at hj
  split at hj
  · cases hj
  · exact h j e hj

theorem Frame.OnCourse.mono {m m' : Memo} {f : Frame} (h : f.OnCourse g w m)
    (hm : ∀ j, m.Settled j → m'.Settled j) : f.OnCourse g w m' := by
  obtain ⟨asked, tried, hc, ha⟩ := h
  exact ⟨asked, tried, hc, fun j hj => hm j (ha j hj)⟩

/-! ### One derivation goes on -/

theorem advance_course {f : Frame} {reply : Option (List ℕ)} {tried : List Attempt}
    {progress : Progress}
    (h : f.advance g w.tokens.toArray g.reserved reply = .ok (tried, progress))
    (hr : reply = f.answer g w) :
    f.course g w = (progress.course (SubProblem.ends g w) w.tokens.toArray g.reserved
      f.key.position).after f.awaited tried := by
  obtain ⟨key, stage⟩ := f
  subst hr
  cases stage with
  | fresh =>
    simp only [Frame.advance, Frame.answer] at h
    cases ha : g.alternatives? key.name with
    | none => simp [ha] at h
    | some alternatives =>
      simp only [ha, Except.ok.injEq] at h
      have hc : _ = g.survey w key.position [] alternatives :=
        Derivation.explore_course key.position [] alternatives
      rw [h] at hc
      simp only [Frame.course, Frame.awaited, SubProblem.course, ha, Option.getD_some]
      exact hc.symm
  | waiting d =>
    simp only [Frame.advance, Frame.answer, Except.ok.injEq] at h
    have hc : _ = Frame.course g w ⟨key, .waiting d⟩ := Derivation.resume_course key.position d
    rw [h] at hc
    exact hc.symm

theorem Ready.top {root : SubProblem} {run : Run} {f : Frame} {below : List Frame}
    {reply : Option (List ℕ)} (h : Ready g w root ⟨run, f :: below, reply⟩) :
    Awaits root below f.key ∧ reply = f.answer g w ∧ ∀ j ∈ f.awaited, run.memo.Settled j := by
  cases h with
  | fresh hs h hr =>
    cases hs
    exact ⟨h, hr, nofun⟩
  | replied h hr hk =>
    cases h with
    | cons h =>
      refine ⟨h, hr, fun j hj => ?_⟩
      rw [List.mem_singleton.1 hj]
      exact hk

/-- What the derivation on top comes to is a rest of its whole course, too. -/
theorem Sound.advance {root : SubProblem} {stale : SubProblem → Prop} {run : Run} {f : Frame}
    {below : List Frame} {reply : Option (List ℕ)} {tried : List Attempt} {progress : Progress}
    (hs : Sound g w root stale ⟨run, f :: below, reply⟩)
    (h : f.advance g w.tokens.toArray g.reserved reply = .ok (tried, progress)) :
    ∃ asked tried, f.key.course g w = (progress.course (SubProblem.ends g w) w.tokens.toArray
      g.reserved f.key.position).after asked tried ∧ ∀ j ∈ asked, run.memo.Settled j := by
  obtain ⟨-, hr, haw⟩ := hs.ready.top
  obtain ⟨asked, tried', hc, ha⟩ := hs.onCourse f List.mem_cons_self
  rw [advance_course h hr, Course.after_after] at hc
  refine ⟨_, _, hc, fun j hj => ?_⟩
  rcases List.mem_append.1 hj with hj | hj
  · exact ha j hj
  · exact haw j hj

/-- A derivation that finishes has the right ends, and all it asks for is solved. -/
theorem Sound.finished {root : SubProblem} {stale : SubProblem → Prop} {run : Run} {f : Frame}
    {below : List Frame} {reply : Option (List ℕ)} {tried : List Attempt} {ends : List ℕ}
    (hs : Sound g w root stale ⟨run, f :: below, reply⟩)
    (h : f.advance g w.tokens.toArray g.reserved reply = .ok (tried, .finished ends)) :
    ends = f.key.ends g w ∧ ∀ j, g.Asks w f.key j → run.memo.Settled j := by
  obtain ⟨asked, tried', hc, ha⟩ := hs.advance h
  refine ⟨?_, fun j hj => ha j ?_⟩
  · rw [← SubProblem.course_ends, hc]
    rfl
  · rw [← SubProblem.mem_course_asks, hc] at hj
    simpa [Progress.course] using hj

/-- A derivation that waits again keeps to its course. -/
theorem Sound.waits {root : SubProblem} {stale : SubProblem → Prop} {run : Run} {f : Frame}
    {below : List Frame} {reply : Option (List ℕ)} {tried : List Attempt} {d : Waiting}
    (hs : Sound g w root stale ⟨run, f :: below, reply⟩)
    (h : f.advance g w.tokens.toArray g.reserved reply = .ok (tried, .waits d)) :
    Frame.OnCourse g w run.memo ⟨f.key, .waiting d⟩ :=
  hs.advance h

theorem Frame.OnCourse.asks {m : Memo} {k : SubProblem} {d : Waiting}
    (h : Frame.OnCourse g w m ⟨k, .waiting d⟩) : g.Asks w k d.request := by
  obtain ⟨asked, tried, hc, -⟩ := h
  have hc : k.course g w = (Frame.course g w ⟨k, .waiting d⟩).after asked tried := hc
  rw [← SubProblem.mem_course_asks, hc]
  exact List.mem_append_right _ List.mem_cons_self

/-! ### The invariant -/

theorem Sound.init {run : Run} (h : run.memo.Exact g w) {k : SubProblem}
    {stale : SubProblem → Prop}
    (hstale : ∀ j, stale j ↔ j ≠ k ∧ run.memo.get? j = some .inProgress) :
    Sound g w k stale (init run k) where
  exact := exact_set_inProgress h k
  onCourse f hf := by
    obtain rfl := List.mem_singleton.1 hf
    exact ⟨[], [], rfl, nofun⟩
  ready := .fresh rfl .nil rfl
  marked j := by
    show (run.memo.set k .inProgress).get? j = some .inProgress ↔ j ∈ [k] ∨ stale j
    rw [Memo.get?_set, List.mem_singleton, hstale]
    by_cases hj : j = k
    · simp [hj]
    · simp [hj]
  distinct := List.nodup_singleton k
  notStale j hj hst := ((hstale j).1 hst).1 (List.mem_singleton.1 hj)

theorem exact_fresh : Run.fresh.memo.Exact g w := nofun

/-- A fresh run has nothing marked. -/
theorem Sound.fresh (k : SubProblem) : Sound g w k (fun _ => False) (Search.init .fresh k) :=
  Sound.init exact_fresh fun _ => ⟨False.elim, nofun⟩

/-- **One turn keeps the invariant.** -/
theorem Sound.turn {root : SubProblem} {stale : SubProblem → Prop} {s s' : State}
    (hs : Sound g w root stale s) (ht : Turn g w s s') : Sound g w root stale s' := by
  cases ht with
  | @finish run f below reply tried ends h =>
    obtain ⟨hends, -⟩ := hs.finished h
    obtain ⟨hnotMem, hnodup⟩ := List.nodup_cons.1 hs.distinct
    have hgrow : ∀ j, run.memo.Settled j → (run.memo.set f.key (.solved ends)).Settled j :=
      fun j hj => settled_set hj (.inr ⟨ends, rfl⟩)
    refine ⟨exact_set_solved hs.exact hends, fun f' hf' => ?_, ?_, fun j => ?_, hnodup, ?_⟩
    · exact (hs.onCourse f' (List.mem_cons_of_mem _ hf')).mono hgrow
    · exact .replied hs.ready.top.1 (congrArg some hends) settled_set_self
    · show (run.memo.set f.key (.solved ends)).get? j = some .inProgress ↔ _
      rw [Memo.get?_set]
      by_cases hj : j = f.key
      · -- the finished sub-problem loses its mark, and neither stands below nor was left marked
        have hst : ¬ stale f.key := hs.notStale f.key List.mem_cons_self
        simp [hj, hst, hnotMem]
      · rw [if_neg hj, hs.marked j, List.map_cons, List.mem_cons, or_iff_right hj]
    · exact fun j hj => hs.notStale j (List.mem_cons_of_mem _ hj)
  | @hit run f below reply tried d ends h hd =>
    refine ⟨hs.exact, fun f' hf' => ?_, ?_, hs.marked, hs.distinct, hs.notStale⟩
    · rcases List.mem_cons.1 hf' with rfl | hf'
      · exact hs.waits h
      · exact hs.onCourse f' (List.mem_cons_of_mem _ hf')
    · -- the answer of the memo is right
      exact .replied (.cons hs.ready.top.1) (congrArg some (hs.exact _ _ hd)) ⟨ends, hd⟩
  | @push run f below reply tried d h hd =>
    have hgrow : ∀ j, run.memo.Settled j → (run.memo.set d.request .inProgress).Settled j :=
      fun j hj => settled_set hj (.inl hd)
    -- a sub-problem without an entry is neither on the stack nor left marked
    have hfresh : ¬ (d.request ∈ (f :: below).map Frame.key ∨ stale d.request) := by
      rw [← hs.marked, hd]
      exact nofun
    rw [not_or] at hfresh
    refine ⟨exact_set_inProgress hs.exact _, fun f' hf' => ?_, ?_, fun j => ?_, ?_, ?_⟩
    · rcases List.mem_cons.1 hf' with rfl | hf'
      · exact ⟨[], [], rfl, nofun⟩
      · rcases List.mem_cons.1 hf' with rfl | hf'
        · exact (hs.waits h).mono hgrow
        · exact (hs.onCourse f' (List.mem_cons_of_mem _ hf')).mono hgrow
    · exact .fresh rfl (.cons hs.ready.top.1) rfl
    · show (run.memo.set d.request .inProgress).get? j = some .inProgress ↔ _
      rw [Memo.get?_set]
      by_cases hj : j = d.request
      · simp [hj]
      · rw [if_neg hj, hs.marked j]
        simp [hj]
    · exact List.nodup_cons.2 ⟨hfresh.1, hs.distinct⟩
    · intro j hj
      rcases List.mem_cons.1 hj with rfl | hj
      · exact hfresh.2
      · exact hs.notStale j hj

/-! ### Along the stack -/

/-- Every derivation on the stack asks, directly or through those above it, for what the stack
waits for. -/
theorem Awaits.asks {root k : SubProblem} {stack : List Frame} {m : Memo} (h : Awaits root stack k)
    (hc : ∀ f ∈ stack, f.OnCourse g w m) :
    ReflTransGen (g.Asks w) root k ∧ ∀ f ∈ stack, TransGen (g.Asks w) f.key k := by
  induction h with
  | nil => exact ⟨.refl, nofun⟩
  | @cons key d below _ ih =>
    obtain ⟨hroot, hbelow⟩ := ih fun f hf => hc f (List.mem_cons_of_mem _ hf)
    have hask : g.Asks w key d.request := (hc _ List.mem_cons_self).asks
    refine ⟨hroot.tail hask, fun f hf => ?_⟩
    rcases List.mem_cons.1 hf with rfl | hf
    · exact .single hask
    · exact (hbelow f hf).tail hask

/-- From the bottom up, each derivation on the stack asks for the sub-problem of the next one, and the
one on top for what the stack waits for. -/
theorem Awaits.chain {root k : SubProblem} {stack : List Frame} {m : Memo} (h : Awaits root stack k)
    (hc : ∀ f ∈ stack, f.OnCourse g w m) :
    ((stack.map Frame.key).reverse ++ [k]).IsChain (g.Asks w) := by
  induction h with
  | nil => exact .singleton _
  | @cons key d below _ ih =>
    have hbelow := ih fun f hf => hc f (List.mem_cons_of_mem _ hf)
    have hask : g.Asks w key d.request := (hc _ List.mem_cons_self).asks
    rw [List.map_cons, List.reverse_cons, List.append_assoc]
    exact List.isChain_append_cons_cons.2 ⟨hbelow, hask, .singleton _⟩

theorem Sound.reached {root : SubProblem} {stale : SubProblem → Prop} {run : Run} {f : Frame}
    {below : List Frame} {reply : Option (List ℕ)}
    (hs : Sound g w root stale ⟨run, f :: below, reply⟩) : ReflTransGen (g.Asks w) root f.key :=
  (hs.ready.top.1.asks fun f hf => hs.onCourse f (List.mem_cons_of_mem _ hf)).1

/-- In a search for a declared name the derivation on top goes on: it has a rule, and the reply that
it needs. -/
theorem Sound.advance_ne_error {root : SubProblem} {stale : SubProblem → Prop} {run : Run}
    {f : Frame} {below : List Frame} {reply : Option (List ℕ)}
    (hs : Sound g w root stale ⟨run, f :: below, reply⟩) (hroot : root.name ∈ g.names)
    (failure : Failure) : f.advance g w.tokens.toArray g.reserved reply ≠ .error failure := by
  have hsome := Grammar.alternatives?_isSome_iff.2 (Grammar.asks_path_declared hs.reached hroot)
  obtain ⟨alternatives, ha⟩ := Option.isSome_iff_exists.1 hsome
  obtain ⟨-, rfl, -⟩ := hs.ready.top
  obtain ⟨key, stage⟩ := f
  cases stage with
  | fresh => simp [Frame.advance, Frame.answer, ha]
  | waiting d => simp [Frame.advance, Frame.answer]

end Search

end Acceptor
