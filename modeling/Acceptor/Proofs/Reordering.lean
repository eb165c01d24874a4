import Acceptor.Proofs.Course
import Mathlib.Data.List.Perm.Basic
import Mathlib.Data.String.Basic

/-!
# Grammars whose rules stand in another order

The order of rules, and of alternatives within them, is no part of what a grammar means.  A grammar
that is `Reordered` has the same expansions, so it reserves the same texts, derives the same tokens
and asks for the same sub-problems; and the course of each sub-problem tries the same terminals, in
another order (`Grammar.Reordered.tries_perm`).
-/

namespace Acceptor

theorem exists_mem_of_forall₂ {α β : Type} {R : α → β → Prop} {l : List α} {l' : List β}
    (h : List.Forall₂ R l l') {x : α} (hx : x ∈ l) : ∃ y ∈ l', R x y := by
  induction h with
  | nil => cases hx
  | cons hxy _ ih =>
    rcases List.mem_cons.1 hx with rfl | hx
    · exact ⟨_, List.mem_cons_self, hxy⟩
    · obtain ⟨y, hy, hxy⟩ := ih hx
      exact ⟨y, List.mem_cons_of_mem _ hy, hxy⟩

/-- The same rule with its alternatives in another order. -/
structure Rule.Reordered (r r' : Rule) : Prop where
  name : r.name = r'.name
  alternatives : r.alternatives.Perm r'.alternatives

theorem Rule.Reordered.symm {r r' : Rule} (h : r.Reordered r') : r'.Reordered r :=
  ⟨h.name.symm, h.alternatives.symm⟩

namespace Grammar

/-- The same grammar with its rules in another order, and in each rule the alternatives. -/
structure Reordered (g g' : Grammar) : Prop where
  start : g.start = g'.start
  rules : ∃ rules, g.rules.Perm rules ∧ List.Forall₂ Rule.Reordered rules g'.rules

variable {g g' : Grammar} {w : TokenStream}

theorem mem_reserved {t : String} :
    t ∈ g.reserved ↔ ∃ name a, g.Expands name a ∧ t ∈ a.filterMap Symbol.literal? := by
  simp only [reserved, Ascending.mem_ofList, Rule.literals, List.mem_flatMap]
  constructor
  · rintro ⟨r, hr, a, ha, ht⟩
    exact ⟨_, a, ⟨r, hr, rfl, ha⟩, ht⟩
  · rintro ⟨name, a, ⟨r, hr, -, ha⟩, ht⟩
    exact ⟨r, hr, a, ha, ht⟩

theorem survey_tries (origin : ℕ) (ends : List ℕ) (alternatives : List Alternative) :
    (g.survey w origin ends alternatives).tries =
      alternatives.flatMap fun a => (g.follow w a [origin]).tries := by
  induction alternatives generalizing ends with
  | nil => rfl
  | cons a alternatives ih => rw [survey_cons, Course.after_tries, ih, List.flatMap_cons]

namespace Reordered

theorem symm (h : g.Reordered g') : g'.Reordered g where
  start := h.start.symm
  rules := by
    obtain ⟨rules, hperm, hrules⟩ := h.rules
    -- the alternatives can be put in order before the rules as well as after them
    obtain ⟨rules', hrules', hperm'⟩ := List.perm_comp_forall₂ hperm hrules
    exact ⟨rules', hperm'.symm, (hrules'.imp fun _ _ hr => hr.symm).flip⟩

/-! ### Expansions -/

theorem exists_rule (h : g.Reordered g') {r : Rule} (hr : r ∈ g.rules) :
    ∃ r' ∈ g'.rules, r.Reordered r' := by
  obtain ⟨rules, hperm, hrules⟩ := h.rules
  exact exists_mem_of_forall₂ hrules (hperm.mem_iff.1 hr)

theorem alternatives_perm (h : g.Reordered g') (name : String) :
    ((g.alternatives? name).getD []).Perm ((g'.alternatives? name).getD []) := by
  unfold alternatives?
  cases hr : g.rule? name with
  | some r =>
    obtain ⟨hmem, rfl⟩ := rule?_eq_some_iff.1 hr
    obtain ⟨r', hmem', hrr'⟩ := h.exists_rule hmem
    have hr' : g'.rule? r.name.val = some r' :=
      rule?_eq_some_iff.2 ⟨hmem', congrArg Subtype.val hrr'.name.symm⟩
    rw [hr']
    exact hrr'.alternatives
  | none =>
    cases hr' : g'.rule? name with
    | none => exact .nil
    | some r' =>
      obtain ⟨hmem', rfl⟩ := rule?_eq_some_iff.1 hr'
      obtain ⟨r, hmem, hrr'⟩ := h.symm.exists_rule hmem'
      have hsome : g.rule? r'.name.val = some r :=
        rule?_eq_some_iff.2 ⟨hmem, congrArg Subtype.val hrr'.name.symm⟩
      cases hr.symm.trans hsome

theorem expands_iff (h : g.Reordered g') {name : String} {a : Alternative} :
    g.Expands name a ↔ g'.Expands name a := by
  rw [Grammar.expands_iff, Grammar.expands_iff, (h.alternatives_perm name).mem_iff]

theorem reserved_eq (h : g.Reordered g') : g.reserved = g'.reserved := by
  refine Ascending.ext (Ascending.isAscending_ofList _) (Ascending.isAscending_ofList _) fun t => ?_
  have hmem : t ∈ g.reserved ↔ t ∈ g'.reserved := by simp only [mem_reserved, h.expands_iff]
  exact hmem

/-! ### Derivations -/

theorem derives (h : g.Reordered g') {a : Alternative} {u : List String} (ha : g.Derives a u) :
    g'.Derives a u := by
  induction ha with
  | nil => exact .nil
  | empty _ ih => exact .empty ih
  | terminal hs _ ih =>
    rw [h.reserved_eq] at hs
    exact .terminal hs ih
  | nonterminal hb _ _ ih ih' => exact .nonterminal (h.expands_iff.1 hb) ih ih'

theorem spans_iff (h : g.Reordered g') {a : Alternative} {p q : ℕ} :
    g.Spans w a p q ↔ g'.Spans w a p q :=
  exists_congr fun _ => and_congr_left fun _ => ⟨h.derives, h.symm.derives⟩

theorem ends_eq (h : g.Reordered g') : SubProblem.ends g w = SubProblem.ends g' w := by
  funext k
  refine Ascending.ext SubProblem.isAscending_ends SubProblem.isAscending_ends fun q => ?_
  rw [SubProblem.mem_ends, SubProblem.mem_ends]
  exact exists_congr fun b => and_congr h.expands_iff h.spans_iff

theorem asks_eq (h : g.Reordered g') : g.Asks w = g'.Asks w := by
  funext k j
  simp only [Asks, h.expands_iff, h.spans_iff]

theorem reached_iff (h : g.Reordered g') {k : SubProblem} : g.Reached w k ↔ g'.Reached w k := by
  rw [Reached, Reached, h.asks_eq, h.start]

/-! ### Courses -/

theorem follow_eq (h : g.Reordered g') : g.follow w = g'.follow w := by
  unfold Grammar.follow
  rw [h.ends_eq, h.reserved_eq]

theorem tries_perm (h : g.Reordered g') (k : SubProblem) :
    (k.course g w).tries.Perm (k.course g' w).tries := by
  rw [SubProblem.course, SubProblem.course, survey_tries, survey_tries, h.follow_eq]
  exact (h.alternatives_perm k.name).flatMap_right _

end Reordered

end Grammar

end Acceptor
