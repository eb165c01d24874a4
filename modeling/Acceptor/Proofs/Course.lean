import Acceptor.Proofs.Reach
import Acceptor.Recognition.Search

/-!
# The course of a derivation

What a derivation does depends on the answers it gets.  If one function answers every sub-problem,
then all the derivation does is fixed from the start: the sub-problems it asks for, the terminals it
tries and the positions it comes to.  This is its `Course`, and it is computed without any pause.

* `Derivation.explore_course` and `Derivation.resume_course` : a derivation that pauses and goes on
  with the answers of that function keeps to its course.
* `Grammar.mem_follow_ends`, `Grammar.mem_follow_asks`, `Grammar.mem_follow_tries` : with the right
  answers, the course along an alternative has exactly the ends, questions and tries that the
  derivations of its symbols have.
* `SubProblem.course` : the whole course of a sub-problem with the right answers.
-/

namespace Acceptor

/-- What a derivation does from some point on. -/
@[ext] structure Course where
  /-- The sub-problems it asks for, in order. -/
  asks : List SubProblem
  /-- The terminals it tries, in order. -/
  tries : List Attempt
  /-- The positions it comes to in the end. -/
  ends : List ℕ

namespace Course

/-- The course with some questions and tries in front. -/
def after (asks : List SubProblem) (tries : List Attempt) (c : Course) : Course :=
  ⟨asks ++ c.asks, tries ++ c.tries, c.ends⟩

@[simp] theorem after_asks (asks : List SubProblem) (tries : List Attempt) (c : Course) :
    (c.after asks tries).asks = asks ++ c.asks := rfl

@[simp] theorem after_tries (asks : List SubProblem) (tries : List Attempt) (c : Course) :
    (c.after asks tries).tries = tries ++ c.tries := rfl

@[simp] theorem after_ends (asks : List SubProblem) (tries : List Attempt) (c : Course) :
    (c.after asks tries).ends = c.ends := rfl

theorem after_after (asks asks' : List SubProblem) (tries tries' : List Attempt) (c : Course) :
    (c.after asks' tries').after asks tries = c.after (asks ++ asks') (tries ++ tries') := by
  simp [after]

end Course

/-! ### Courses without pauses -/

section

variable (answer : SubProblem → List ℕ) (tokens : Array String) (reserved : List String)

namespace Derivation

/-- The positions that a name leads to from some starts, besides those reached before. -/
def gather (name : String) (reached starts : List ℕ) : List ℕ :=
  starts.foldl (fun reached start => Ascending.union reached (answer ⟨name, start⟩)) reached

/-- The course over one symbol from some starts. -/
def cross (s : Symbol) (starts : List ℕ) : Course :=
  match s with
  | .empty => ⟨[], [], starts⟩
  | .nonterminal name =>
    ⟨starts.map fun start => ⟨name.val, start⟩, [], gather answer name.val [] starts⟩
  | s =>
    let tried := starts.map (attempt tokens reserved s)
    ⟨[], tried, advanced tried⟩

/-- The course along symbols from some starts. -/
def follow : Alternative → List ℕ → Course
  | [], starts => ⟨[], [], starts⟩
  | s :: rest, starts =>
    let c := cross answer tokens reserved s starts
    (follow rest c.ends).after c.asks c.tries

/-- The course through alternatives from `origin`; `ends` are those found before. -/
def survey (origin : ℕ) (ends : List ℕ) : List Alternative → Course
  | [] => ⟨[], [], ends⟩
  | a :: alternatives =>
    let c := follow answer tokens reserved a [origin]
    (survey origin (Ascending.union ends c.ends) alternatives).after c.asks c.tries

end Derivation

/-- The rest of the course along the symbols of the current alternative. -/
def Pause.course (p : Pause) : Course :=
  (Derivation.follow answer tokens reserved p.rest
    (Derivation.gather answer p.name p.reached (p.asked :: p.later))).after
      ((p.asked :: p.later).map fun start => ⟨p.name, start⟩) []

/-- The rest of the course of a derivation from `origin` that waits for an answer. -/
def Waiting.course (origin : ℕ) (d : Waiting) : Course :=
  let c := d.pause.course answer tokens reserved
  (Derivation.survey answer tokens reserved origin (Ascending.union d.ends c.ends)
    d.alternatives).after c.asks c.tries

/-- The course along symbols that a walk belongs to. -/
def Walk.course : Walk → Course
  | .through positions => ⟨[], [], positions⟩
  | .waits pause => pause.course answer tokens reserved

/-- The rest of the course of a derivation from `origin`. -/
def Progress.course (origin : ℕ) : Progress → Course
  | .finished ends => ⟨[], [], ends⟩
  | .waits d => d.course answer tokens reserved origin

variable {answer tokens reserved}

namespace Derivation

theorem cross_terminal {s : Symbol} (hs : s.isTerminal = true) (starts : List ℕ) :
    cross answer tokens reserved s starts = ⟨[], starts.map (attempt tokens reserved s),
      advanced (starts.map (attempt tokens reserved s))⟩ := by
  cases s with
  | literal => rfl
  | lexical => rfl
  | nonterminal => cases hs
  | empty => cases hs

theorem walk_terminal {s : Symbol} (hs : s.isTerminal = true) (rest : Alternative)
    (starts : List ℕ) :
    walk tokens reserved (s :: rest) starts =
      (starts.map (attempt tokens reserved s) ++
        (walk tokens reserved rest (advanced (starts.map (attempt tokens reserved s)))).1,
      (walk tokens reserved rest (advanced (starts.map (attempt tokens reserved s)))).2) := by
  cases s with
  | literal => rfl
  | lexical => rfl
  | nonterminal => cases hs
  | empty => cases hs

theorem walk_course (a : Alternative) (starts : List ℕ) :
    ((walk tokens reserved a starts).2.course answer tokens reserved).after []
      (walk tokens reserved a starts).1 = follow answer tokens reserved a starts := by
  induction a generalizing starts with
  | nil => rfl
  | cons s rest ih =>
    by_cases hs : s.isTerminal = true
    · simp only [walk_terminal hs, follow, cross_terminal hs, ← ih, Course.after_after,
        List.append_nil]
    · cases s with
      | literal => exact absurd rfl hs
      | lexical => exact absurd rfl hs
      | empty => exact ih starts
      | nonterminal name =>
        cases starts with
        -- without a start nothing is asked, and the walk goes on
        | nil => exact ih []
        | cons start later => rfl

theorem explore_course (origin : ℕ) (ends : List ℕ) (alternatives : List Alternative) :
    ((explore tokens reserved origin ends alternatives).2.course answer tokens reserved origin).after
      [] (explore tokens reserved origin ends alternatives).1 =
      survey answer tokens reserved origin ends alternatives := by
  induction alternatives generalizing ends with
  | nil => rfl
  | cons a alternatives ih =>
    simp only [survey, ← walk_course a [origin]]
    rw [explore]
    cases h : walk tokens reserved a [origin] with
    | mk tried result =>
      cases result with
      | waits pause => simp [Walk.course, Progress.course, Waiting.course, Course.after_after]
      | through positions =>
        simp [Walk.course, ← ih, Course.after_after]

/-- A paused derivation that gets the right answer keeps to its course. -/
theorem resume_course (origin : ℕ) (d : Waiting) :
    ((resume tokens reserved origin d (answer d.request)).2.course answer tokens reserved
      origin).after [d.request] (resume tokens reserved origin d (answer d.request)).1 =
      d.course answer tokens reserved origin := by
  obtain ⟨ends, alternatives, name, asked, later, reached, rest⟩ := d
  cases later with
  -- the derivation waits on, for the next start
  | cons start later => rfl
  | nil =>
    have hg : gather answer name reached [asked] =
        Ascending.union reached (answer ⟨name, asked⟩) := rfl
    simp only [Waiting.course, Pause.course, Waiting.request, hg, ← walk_course rest, resume]
    cases h : walk tokens reserved rest (Ascending.union reached (answer ⟨name, asked⟩)) with
    | mk tried result =>
      cases result with
      | waits pause => simp [Walk.course, Progress.course, Waiting.course, Course.after_after]
      | through positions =>
        simp [Walk.course, ← explore_course, Course.after_after]

end Derivation

end

/-! ### The right answers -/

theorem Ascending.ext {α : Type} [LT α] [Std.Asymm (α := α) (· < ·)] {l l' : List α}
    (h : IsAscending l) (h' : IsAscending l') (hmem : ∀ q, q ∈ l ↔ q ∈ l') : l = l' := by
  have hne {a b : α} (hab : a < b) : a ≠ b := by
    rintro rfl
    exact Std.Asymm.asymm a a hab hab
  have hperm : l.Perm l' := (List.perm_ext_iff_of_nodup (h.imp hne) (h'.imp hne)).2 hmem
  exact hperm.eq_of_pairwise (fun a b _ _ hab hba => absurd hba (Std.Asymm.asymm a b hab)) h h'

theorem Ascending.exists_getLast?_ge {l : List ℕ} (h : IsAscending l) {q : ℕ} (hq : q ∈ l) :
    ∃ m, l.getLast? = some m ∧ q ≤ m := by
  obtain ⟨l, m, rfl⟩ := (List.eq_nil_or_concat' l).resolve_left (List.ne_nil_of_mem hq)
  refine ⟨m, List.getLast?_concat, ?_⟩
  rcases List.mem_append.1 hq with hq | hq
  · exact le_of_lt ((List.pairwise_append.1 h).2.2 q hq m (List.mem_singleton_self m))
  · rw [List.mem_singleton.1 hq]

namespace Grammar

variable (g : Grammar) (w : TokenStream)

/-- The course over one symbol, with the right answers. -/
noncomputable abbrev cross (s : Symbol) (starts : List ℕ) : Course :=
  Derivation.cross (SubProblem.ends g w) w.tokens.toArray g.reserved s starts

/-- The course along symbols, with the right answers. -/
noncomputable abbrev follow (a : Alternative) (starts : List ℕ) : Course :=
  Derivation.follow (SubProblem.ends g w) w.tokens.toArray g.reserved a starts

/-- The course through alternatives, with the right answers. -/
noncomputable abbrev survey (origin : ℕ) (ends : List ℕ) (alternatives : List Alternative) : Course :=
  Derivation.survey (SubProblem.ends g w) w.tokens.toArray g.reserved origin ends alternatives

/-- The try of a symbol at a position. -/
abbrev attempt (s : Symbol) (p : ℕ) : Attempt :=
  Derivation.attempt w.tokens.toArray g.reserved s p

variable {g w}

theorem cross_terminal {s : Symbol} (hs : s.isTerminal = true) (starts : List ℕ) :
    g.cross w s starts =
      ⟨[], starts.map (g.attempt w s), Derivation.advanced (starts.map (g.attempt w s))⟩ :=
  Derivation.cross_terminal hs starts

theorem follow_cons (s : Symbol) (a : Alternative) (starts : List ℕ) :
    g.follow w (s :: a) starts =
      (g.follow w a (g.cross w s starts).ends).after (g.cross w s starts).asks
        (g.cross w s starts).tries := rfl

theorem survey_cons (origin : ℕ) (ends : List ℕ) (a : Alternative) (alternatives : List Alternative) :
    g.survey w origin ends (a :: alternatives) =
      (g.survey w origin (Ascending.union ends (g.follow w a [origin]).ends) alternatives).after
        (g.follow w a [origin]).asks (g.follow w a [origin]).tries := rfl

theorem matched_attempt {s : Symbol} {p : ℕ} :
    (g.attempt w s p).matched = true ↔ g.Matches w s p := by
  simp only [Derivation.attempt, List.getElem?_toArray, Matches]
  cases w.tokens[p]? <;> simp

/-! ### Over one symbol -/

theorem mem_gather {name : String} {reached starts : List ℕ} {m : ℕ} :
    m ∈ Derivation.gather (SubProblem.ends g w) name reached starts ↔
      m ∈ reached ∨ ∃ p ∈ starts, SubProblem.EndsAt g w ⟨name, p⟩ m := by
  induction starts generalizing reached with
  | nil => simp [Derivation.gather]
  | cons start later ih =>
    have : Derivation.gather (SubProblem.ends g w) name reached (start :: later) =
        Derivation.gather (SubProblem.ends g w) name
          (Ascending.union reached (SubProblem.ends g w ⟨name, start⟩)) later := rfl
    rw [this, ih, Ascending.mem_union, SubProblem.mem_ends, or_assoc, List.exists_mem_cons_iff]

theorem isAscending_gather {name : String} {reached starts : List ℕ} (h : IsAscending reached) :
    IsAscending (Derivation.gather (SubProblem.ends g w) name reached starts) := by
  induction starts generalizing reached with
  | nil => exact h
  | cons start later ih => exact ih (Ascending.isAscending_union h SubProblem.isAscending_ends)

theorem mem_advanced {s : Symbol} {starts : List ℕ} {m : ℕ} :
    m ∈ Derivation.advanced (starts.map (g.attempt w s)) ↔
      ∃ p ∈ starts, g.Matches w s p ∧ m = p + 1 := by
  simp only [Derivation.advanced, List.mem_map, List.mem_filter]
  constructor
  · rintro ⟨_, ⟨⟨p, hp, rfl⟩, hm⟩, rfl⟩
    exact ⟨p, hp, matched_attempt.1 hm, rfl⟩
  · rintro ⟨p, hp, hm, rfl⟩
    exact ⟨_, ⟨⟨p, hp, rfl⟩, matched_attempt.2 hm⟩, rfl⟩

theorem isAscending_advanced {s : Symbol} {starts : List ℕ} (h : IsAscending starts) :
    IsAscending (Derivation.advanced (starts.map (g.attempt w s))) := by
  refine List.pairwise_map.2 (List.Pairwise.filter _ (List.pairwise_map.2 (h.imp ?_)))
  intro p q hpq
  exact Nat.succ_lt_succ hpq

theorem mem_cross_ends {s : Symbol} {starts : List ℕ} {m : ℕ} :
    m ∈ (g.cross w s starts).ends ↔ ∃ p ∈ starts, g.Spans w [s] p m := by
  by_cases hs : s.isTerminal = true
  · rw [cross_terminal hs, mem_advanced]
    simp only [spans_terminal_cons hs, spans_nil]
  · cases s with
    | literal => exact absurd rfl hs
    | lexical => exact absurd rfl hs
    | empty =>
      simp only [spans_empty_cons, spans_nil]
      exact ⟨fun h => ⟨m, h, rfl⟩, fun ⟨_, h, he⟩ => he ▸ h⟩
    | nonterminal name =>
      simp only [spans_nonterminal]
      have : m ∈ Derivation.gather (SubProblem.ends g w) name.val [] starts ↔ _ := mem_gather
      rwa [or_iff_right List.not_mem_nil] at this

theorem isAscending_cross {s : Symbol} {starts : List ℕ} (h : IsAscending starts) :
    IsAscending (g.cross w s starts).ends := by
  cases s with
  | literal => exact isAscending_advanced h
  | lexical => exact isAscending_advanced h
  | empty => exact h
  | nonterminal => exact isAscending_gather List.Pairwise.nil

theorem mem_cross_asks {s : Symbol} {starts : List ℕ} {j : SubProblem} :
    j ∈ (g.cross w s starts).asks ↔
      ∃ p ∈ starts, ∃ name, name.val = j.name ∧ s = .nonterminal name ∧ j.position = p := by
  cases s with
  | literal => simp [Derivation.cross]
  | lexical => simp [Derivation.cross]
  | empty => simp [Derivation.cross]
  | nonterminal name =>
    simp only [Derivation.cross, List.mem_map, SubProblem.ext_iff]
    constructor
    · rintro ⟨p, hp, hname, rfl⟩
      exact ⟨_, hp, name, hname, rfl, rfl⟩
    · rintro ⟨p, hp, n, hn, hs, rfl⟩
      obtain rfl := Symbol.nonterminal.inj hs
      exact ⟨_, hp, hn, rfl⟩

theorem mem_cross_tries {s : Symbol} {starts : List ℕ} {t : Attempt} :
    t ∈ (g.cross w s starts).tries ↔
      ∃ p ∈ starts, s.isTerminal = true ∧ t = g.attempt w s p := by
  by_cases hs : s.isTerminal = true
  · rw [cross_terminal hs]
    simp [hs, eq_comm]
  · cases s with
    | literal => exact absurd rfl hs
    | lexical => exact absurd rfl hs
    | empty => simp [Derivation.cross, Symbol.isTerminal]
    | nonterminal => simp [Derivation.cross, Symbol.isTerminal]

/-! ### Along symbols -/

theorem mem_follow_ends {a : Alternative} {starts : List ℕ} {q : ℕ} :
    q ∈ (g.follow w a starts).ends ↔ ∃ p ∈ starts, g.Spans w a p q := by
  induction a generalizing starts with
  | nil =>
    simp only [spans_nil]
    exact ⟨fun h => ⟨q, h, rfl⟩, fun ⟨_, h, he⟩ => he ▸ h⟩
  | cons s a ih =>
    rw [follow_cons, Course.after_ends, ih]
    constructor
    · rintro ⟨m, hm, hq⟩
      obtain ⟨p, hp, hpm⟩ := mem_cross_ends.1 hm
      exact ⟨p, hp, spans_append.2 ⟨m, hpm, hq⟩⟩
    · rintro ⟨p, hp, h⟩
      rw [← List.singleton_append, spans_append] at h
      obtain ⟨m, hpm, hq⟩ := h
      exact ⟨m, mem_cross_ends.2 ⟨p, hp, hpm⟩, hq⟩

theorem isAscending_follow {a : Alternative} {starts : List ℕ} (h : IsAscending starts) :
    IsAscending (g.follow w a starts).ends := by
  induction a generalizing starts with
  | nil => exact h
  | cons s a ih => exact ih (isAscending_cross h)

theorem exists_visits_cons {s' : Symbol} {a : Alternative} {starts : List ℕ}
    (P : Symbol → ℕ → Prop) :
    (∃ p ∈ starts, ∃ s m, P s m ∧ g.Visits w (s' :: a) p s m) ↔
      (∃ p ∈ starts, P s' p) ∨
        ∃ p ∈ (g.cross w s' starts).ends, ∃ s m, P s m ∧ g.Visits w a p s m := by
  constructor
  · rintro ⟨p, hp, s, m, hP, hv⟩
    rcases visits_cons.1 hv with ⟨rfl, rfl⟩ | ⟨p', hp', hv⟩
    · exact .inl ⟨m, hp, hP⟩
    · exact .inr ⟨p', mem_cross_ends.2 ⟨p, hp, hp'⟩, s, m, hP, hv⟩
  · rintro (⟨p, hp, hP⟩ | ⟨p', hp', s, m, hP, hv⟩)
    · exact ⟨p, hp, s', p, hP, visits_cons.2 (.inl ⟨rfl, rfl⟩)⟩
    · obtain ⟨p, hp, hpp'⟩ := mem_cross_ends.1 hp'
      exact ⟨p, hp, s, m, hP, visits_cons.2 (.inr ⟨p', hpp', hv⟩)⟩

theorem mem_follow_asks {a : Alternative} {starts : List ℕ} {j : SubProblem} :
    j ∈ (g.follow w a starts).asks ↔
      ∃ p ∈ starts, ∃ s m, (∃ name, name.val = j.name ∧ s = .nonterminal name ∧ j.position = m) ∧
        g.Visits w a p s m := by
  induction a generalizing starts with
  | nil => simp [Derivation.follow, Visits]
  | cons s a ih =>
    rw [follow_cons, Course.after_asks, List.mem_append, ih, mem_cross_asks]
    exact (exists_visits_cons fun s m =>
      ∃ name, name.val = j.name ∧ s = .nonterminal name ∧ j.position = m).symm

theorem mem_follow_tries {a : Alternative} {starts : List ℕ} {t : Attempt} :
    t ∈ (g.follow w a starts).tries ↔
      ∃ p ∈ starts, ∃ s m, (s.isTerminal = true ∧ t = g.attempt w s m) ∧ g.Visits w a p s m := by
  induction a generalizing starts with
  | nil => simp [Derivation.follow, Visits]
  | cons s a ih =>
    rw [follow_cons, Course.after_tries, List.mem_append, ih, mem_cross_tries]
    exact (exists_visits_cons fun s m => s.isTerminal = true ∧ t = g.attempt w s m).symm

/-! ### Through alternatives -/

theorem mem_survey_ends {origin : ℕ} {ends : List ℕ} {alternatives : List Alternative} {q : ℕ} :
    q ∈ (g.survey w origin ends alternatives).ends ↔
      q ∈ ends ∨ ∃ a ∈ alternatives, g.Spans w a origin q := by
  induction alternatives generalizing ends with
  | nil => simp [Derivation.survey]
  | cons a alternatives ih =>
    rw [survey_cons, Course.after_ends, ih, Ascending.mem_union, mem_follow_ends, or_assoc,
      List.exists_mem_cons_iff, List.exists_mem_cons_iff]
    simp

theorem isAscending_survey {origin : ℕ} {ends : List ℕ} (h : IsAscending ends)
    (alternatives : List Alternative) :
    IsAscending (g.survey w origin ends alternatives).ends := by
  induction alternatives generalizing ends with
  | nil => exact h
  | cons a alternatives ih =>
    exact ih (Ascending.isAscending_union h (isAscending_follow (List.pairwise_singleton _ _)))

theorem mem_survey_asks {origin : ℕ} {ends : List ℕ} {alternatives : List Alternative}
    {j : SubProblem} :
    j ∈ (g.survey w origin ends alternatives).asks ↔
      ∃ a ∈ alternatives, j ∈ (g.follow w a [origin]).asks := by
  induction alternatives generalizing ends with
  | nil => simp [Derivation.survey]
  | cons a alternatives ih =>
    rw [survey_cons, Course.after_asks, List.mem_append, ih, List.exists_mem_cons_iff]

theorem mem_survey_tries {origin : ℕ} {ends : List ℕ} {alternatives : List Alternative}
    {t : Attempt} :
    t ∈ (g.survey w origin ends alternatives).tries ↔
      ∃ a ∈ alternatives, t ∈ (g.follow w a [origin]).tries := by
  induction alternatives generalizing ends with
  | nil => simp [Derivation.survey]
  | cons a alternatives ih =>
    rw [survey_cons, Course.after_tries, List.mem_append, ih, List.exists_mem_cons_iff]

end Grammar

/-! ### Of a sub-problem -/

namespace SubProblem

variable (g : Grammar) (w : TokenStream)

/-- The whole course of a sub-problem, with the right answers. -/
noncomputable def course (k : SubProblem) : Course :=
  g.survey w k.position [] ((g.alternatives? k.name).getD [])

variable {g w} {k : SubProblem}

theorem course_ends : (k.course g w).ends = k.ends g w := by
  refine Ascending.ext (Grammar.isAscending_survey List.Pairwise.nil _) isAscending_ends fun q => ?_
  rw [course, Grammar.mem_survey_ends, mem_ends, or_iff_right List.not_mem_nil]
  exact exists_congr fun b => and_congr_left fun _ => Grammar.expands_iff.symm

theorem mem_course_asks {j : SubProblem} : j ∈ (k.course g w).asks ↔ g.Asks w k j := by
  rw [course, Grammar.mem_survey_asks]
  simp only [Grammar.mem_follow_asks, List.mem_singleton, exists_eq_left, ← Grammar.expands_iff]
  constructor
  · rintro ⟨a, ha, s, m, ⟨name, hname, rfl, rfl⟩, pre, rest, rfl, hpre⟩
    exact ⟨pre, name, rest, hname, ha, hpre⟩
  · rintro ⟨pre, name, rest, hname, ha, hpre⟩
    exact ⟨_, ha, _, _, ⟨name, hname, rfl, rfl⟩, pre, rest, rfl, hpre⟩

theorem mem_course_tries {t : Attempt} :
    t ∈ (k.course g w).tries ↔ ∃ s m, s.isTerminal = true ∧ t = g.attempt w s m ∧
      ∃ pre rest, g.Expands k.name (pre ++ s :: rest) ∧ g.Spans w pre k.position m := by
  rw [course, Grammar.mem_survey_tries]
  simp only [Grammar.mem_follow_tries, List.mem_singleton, exists_eq_left, ← Grammar.expands_iff]
  constructor
  · rintro ⟨a, ha, s, m, ⟨hs, ht⟩, pre, rest, rfl, hpre⟩
    exact ⟨s, m, hs, ht, pre, rest, ha, hpre⟩
  · rintro ⟨s, m, hs, ht, pre, rest, ha, hpre⟩
    exact ⟨_, ha, s, m, ⟨hs, ht⟩, pre, rest, rfl, hpre⟩

end SubProblem

end Acceptor
