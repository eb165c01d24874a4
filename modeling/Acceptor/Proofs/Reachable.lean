import Acceptor.Grammar.Reachable
import Acceptor.Proofs.Construction
import Acceptor.Proofs.Language
import Mathlib.Data.List.Perm.Subperm

/-!
# The names that the start symbol leads to

References are followed turn by turn, and each turn looks up the rule of one pending name.  While
they are (`Grammar.Exploring`), every name seen is led to by references, so it is declared, and the
names it mentions are seen as well unless it is still pending.  One turn keeps this
(`Grammar.Exploring.turn`), so no look-up fails in any of the turns of `Grammar.Explored`.  No name
is pending twice, so the turns end before the fuel does, and the names seen in the end are exactly
those that a chain of references leads to (`Grammar.reached_eq_ok`).

`Grammar.unreachable_names` says what this means for the names reported as unreachable, and for the
log of a construction.
-/

namespace Acceptor

open Relation

namespace Grammar

variable (g : Grammar)

/-- The rule of `A` refers to `B` in some alternative. -/
def RefersTo (A B : String) : Prop := ∃ r ∈ g.rules, r.name.val = A ∧ B ∈ r.references

/-- A chain of references, perhaps an empty one, leads from the start symbol to the name. -/
def Leads (name : String) : Prop := ReflTransGen g.RefersTo g.start name

/-- What holds while references are followed. -/
structure Exploring (e : Exploration) : Prop where
  /-- No name is seen twice. -/
  nodup : e.seen.Nodup
  /-- The start symbol is seen. -/
  start : g.start ∈ e.seen
  /-- The pending names are among those seen. -/
  pending_subset : e.pending ⊆ e.seen
  /-- All names that are seen are led to. -/
  leads : ∀ A ∈ e.seen, g.Leads A
  /-- What a name refers to is seen, unless the name is pending. -/
  followed : ∀ A ∈ e.seen, A ∉ e.pending → ∀ B, g.RefersTo A B → B ∈ e.seen

/-- The state after so many turns. -/
inductive Explored : ℕ → Exploration → Prop
  | start : Explored 0 (.start g.start)
  | turn {n : ℕ} {e e' : Exploration} (h : Explored n e) (hturn : g.turn e = .ok (some e')) :
      Explored (n + 1) e'

variable {g}

theorem refersTo_iff_of_rule? {A B : String} {r : Rule} (h : g.rule? A = some r) :
    g.RefersTo A B ↔ B ∈ r.references := by
  obtain ⟨hr, hA⟩ := rule?_eq_some_iff.1 h
  constructor
  · rintro ⟨r', hr', hA', hB⟩
    obtain rfl := Option.some.inj (h.symm.trans (rule?_eq_some_iff.2 ⟨hr', hA'⟩))
    exact hB
  · exact fun hB => ⟨r, hr, hA, hB⟩

theorem refersTo_of_expands {A : String} {a : Alternative} (h : g.Expands A a) {name : Label}
    (hname : .nonterminal name ∈ a) : g.RefersTo A name.val := by
  obtain ⟨r, hr, hA, ha⟩ := h
  exact ⟨r, hr, hA, List.mem_flatMap.2 ⟨a, ha, List.mem_filterMap.2 ⟨_, hname, rfl⟩⟩⟩

theorem Leads.declared {name : String} (h : g.Leads name) : name ∈ g.names := by
  cases h with
  | refl => exact g.startDeclared
  | tail _ hst =>
    obtain ⟨r, hr, -, hname⟩ := hst
    exact g.closed r hr _ hname

/-! ### One turn -/

/-- The names that are new are put in front of those seen and of those pending. -/
theorem discover_eq (e : Exploration) (names : List String) :
    ∃ new, e.discover names = ⟨new ++ e.seen, new ++ e.pending⟩ ∧
      (∀ B, B ∈ new ++ e.seen ↔ B ∈ e.seen ∨ B ∈ names) ∧
      (e.seen.Nodup → (new ++ e.seen).Nodup) := by
  induction names generalizing e with
  | nil => exact ⟨[], rfl, by simp, id⟩
  | cons name names ih =>
    unfold Exploration.discover
    split
    · rename_i hmem
      obtain ⟨new, heq, hnew, hnodup⟩ := ih e
      refine ⟨new, heq, fun B => ?_, hnodup⟩
      rw [hnew, List.mem_cons]
      constructor
      · exact Or.imp_right .inr
      · rintro (hB | rfl | hB)
        · exact .inl hB
        · exact .inl hmem
        · exact .inr hB
    · rename_i hmem
      obtain ⟨new, heq, hnew, hnodup⟩ := ih ⟨name :: e.seen, name :: e.pending⟩
      refine ⟨new ++ [name], by simpa using heq, fun B => ?_, fun h => ?_⟩
      · rw [List.append_assoc, List.singleton_append, hnew, List.mem_cons, List.mem_cons]
        exact or_assoc.trans or_left_comm
      · rw [List.append_assoc]
        exact hnodup (List.nodup_cons.2 ⟨hmem, h⟩)

theorem lookup_of_rule? {name : String} {r : Rule} (h : g.rule? name = some r) :
    g.lookup (.text name) = .ok r := by
  simp only [lookup, find?, h, bind, Except.bind, pure, Except.pure]

theorem lookup_of_none {name : String} (h : g.rule? name = none) :
    g.lookup (.text name) = .error (.undeclared (.text name)) := by
  simp only [lookup, find?, h, bind, Except.bind]
  rfl

/-- **What a turn does**: it ends the exploration, it follows a pending name, or it fails to look up
one that has no rule. -/
theorem turn_cases (g : Grammar) (e : Exploration) :
    (e.pending = [] ∧ g.turn e = .ok none) ∨
      ∃ name pending, e.pending = name :: pending ∧
        ((∃ r, g.rule? name = some r ∧
            g.turn e = .ok (some (Exploration.discover ⟨e.seen, pending⟩ r.references))) ∨
          g.rule? name = none ∧ g.turn e = .error (.undeclared (.text name))) := by
  obtain ⟨seen, pending⟩ := e
  cases pending with
  | nil => exact .inl ⟨rfl, rfl⟩
  | cons name pending =>
    refine .inr ⟨name, pending, rfl, ?_⟩
    cases hr : g.rule? name with
    | none => exact .inr ⟨rfl, by simp only [turn, lookup_of_none hr, bind, Except.bind]⟩
    | some r =>
      refine .inl ⟨r, rfl, ?_⟩
      simp only [turn, lookup_of_rule? hr, bind, Except.bind, pure, Except.pure]

theorem exploring_start : g.Exploring (.start g.start) where
  nodup := List.nodup_singleton _
  start := List.mem_singleton_self _
  pending_subset := List.Subset.refl _
  leads A hA := by
    rw [List.mem_singleton.1 hA]
    exact .refl
  followed A hA hnot := absurd hA hnot

theorem Exploring.pending_declared {e : Exploration} (h : g.Exploring e) {name : String}
    (hname : name ∈ e.pending) : name ∈ g.names :=
  (h.leads name (h.pending_subset hname)).declared

/-- The names that the rule of a pending name mentions are added. -/
theorem Exploring.follow {seen pending : List String} {name : String} {r : Rule}
    (h : g.Exploring ⟨seen, name :: pending⟩) (hr : g.rule? name = some r) {new : List String}
    (hnew : ∀ B, B ∈ new ++ seen ↔ B ∈ seen ∨ B ∈ r.references)
    (hnodup : seen.Nodup → (new ++ seen).Nodup) : g.Exploring ⟨new ++ seen, new ++ pending⟩ where
  nodup := hnodup h.nodup
  start := (hnew _).2 (.inl h.start)
  pending_subset := by
    obtain ⟨-, hsub⟩ := List.cons_subset.1 h.pending_subset
    exact List.append_subset.2
      ⟨List.subset_append_left _ _, List.subset_append_of_subset_right _ hsub⟩
  leads B hB := by
    have hname : name ∈ seen := h.pending_subset List.mem_cons_self
    rcases (hnew B).1 hB with hB | hB
    · exact h.leads B hB
    · exact (h.leads name hname).tail ((refersTo_iff_of_rule? hr).2 hB)
  followed A hA hnot B hB := by
    rw [List.mem_append, not_or] at hnot
    by_cases hAname : A = name
    · subst hAname
      exact (hnew B).2 (.inr ((refersTo_iff_of_rule? hr).1 hB))
    · have hseen : A ∈ seen := (List.mem_append.1 hA).resolve_left hnot.1
      have hpending : A ∉ name :: pending := by simp [hAname, hnot.2]
      exact (hnew B).2 (.inl (h.followed A hseen hpending B hB))

/-- **One turn while references are followed**: nothing is pending, or the next name is followed; no
look-up fails.  The turn takes one name off those pending, and what it adds to them it adds to those
seen. -/
theorem Exploring.turn {e : Exploration} (h : g.Exploring e) :
    (e.pending = [] ∧ g.turn e = .ok none) ∨
      ∃ e', g.turn e = .ok (some e') ∧ g.Exploring e' ∧
        e'.seen.length + e.pending.length = e.seen.length + e'.pending.length + 1 := by
  rcases g.turn_cases e with hdone | ⟨name, pending, hpending, ⟨r, hr, hturn⟩ | ⟨hnone, -⟩⟩
  · exact .inl hdone
  · obtain ⟨seen, _⟩ := e
    cases hpending
    obtain ⟨new, heq, hnew, hnodup⟩ := discover_eq ⟨seen, pending⟩ r.references
    rw [heq] at hturn
    refine .inr ⟨_, hturn, h.follow hr hnew hnodup, ?_⟩
    simp only [List.length_append, List.length_cons]
    omega
  · -- a pending name is declared, so its rule is found
    obtain ⟨r, hr, hname⟩ := List.mem_map.1 (h.pending_declared (hpending ▸ List.mem_cons_self))
    cases hnone.symm.trans (rule?_eq_some_iff.2 ⟨hr, hname⟩)

/-- When nothing is pending, the names seen are those that are led to. -/
theorem Exploring.mem_iff {e : Exploration} (h : g.Exploring e) (hdone : e.pending = [])
    {name : String} : name ∈ e.seen ↔ g.Leads name := by
  refine ⟨h.leads name, fun hleads => ?_⟩
  induction hleads with
  | refl => exact h.start
  | tail _ hst ih => exact h.followed _ ih (hdone ▸ List.not_mem_nil) _ hst

theorem Exploring.length_le {e : Exploration} (h : g.Exploring e) :
    e.seen.length ≤ g.rules.length := by
  have hsub : e.seen ⊆ g.names := fun A hA => (h.leads A hA).declared
  have hle := (List.subperm_of_subset h.nodup hsub).length_le
  rwa [names, ruleNames, List.length_map] at hle

/-! ### All turns -/

/-- After every turn, as many names are seen as are pending or were looked up. -/
theorem Explored.exploring {n : ℕ} {e : Exploration} (h : g.Explored n e) :
    g.Exploring e ∧ n + e.pending.length = e.seen.length := by
  induction h with
  | start => exact ⟨exploring_start, rfl⟩
  | @turn n e e' _ hturn ih =>
    obtain ⟨hexploring, hlength⟩ := ih
    rcases hexploring.turn with ⟨-, hdone⟩ | ⟨e'', hnext, hexploring', hlength'⟩
    · cases hdone.symm.trans hturn
    · cases hnext.symm.trans hturn
      exact ⟨hexploring', by omega⟩

theorem Explored.le {n : ℕ} {e : Exploration} (h : g.Explored n e) : n ≤ g.rules.length := by
  obtain ⟨hexploring, hlength⟩ := h.exploring
  have hle := hexploring.length_le
  omega

/-- **The fuel lasts**: it is not used up before nothing is pending. -/
theorem Explored.explore {fuel n : ℕ} {e : Exploration} (h : g.Explored n e)
    (hfuel : g.rules.length < fuel + n) :
    ∃ m e', g.Explored m e' ∧ g.turn e' = .ok none ∧ g.explore fuel e = .ok e'.seen := by
  induction fuel generalizing n e with
  | zero =>
    have hle := h.le
    omega
  | succ fuel ih =>
    rcases h.exploring.1.turn with ⟨-, hdone⟩ | ⟨e', hnext, -⟩
    · exact ⟨n, e, h, hdone, by simp only [Grammar.explore, hdone]⟩
    · simpa only [Grammar.explore, hnext] using ih (h.turn hnext) (by omega)

/-- The last turn finds nothing pending, and what is seen then is reached. -/
theorem explored_reached (g : Grammar) :
    ∃ n e, g.Explored n e ∧ g.turn e = .ok none ∧ g.reached = .ok e.seen :=
  Explored.start.explore (Nat.lt_succ_self _)

/-- **The names reached are those that a chain of references leads to.** -/
theorem reached_eq_ok (g : Grammar) :
    ∃ seen, g.reached = .ok seen ∧ ∀ name, name ∈ seen ↔ g.Leads name := by
  obtain ⟨n, e, h, hdone, hreached⟩ := g.explored_reached
  refine ⟨e.seen, hreached, fun name => h.exploring.1.mem_iff ?_⟩
  rcases g.turn_cases e with ⟨hpending, -⟩ | ⟨name, pending, -, ⟨r, -, hturn⟩ | ⟨-, hturn⟩⟩
  · exact hpending
  · cases hturn.symm.trans hdone
  · cases hturn.symm.trans hdone

theorem unreachable_eq_ok (g : Grammar) :
    ∃ names, g.unreachable = .ok names ∧ names.Sublist g.names ∧
      ∀ name, name ∈ names ↔ name ∈ g.names ∧ ¬ g.Leads name := by
  obtain ⟨seen, hreached, hseen⟩ := g.reached_eq_ok
  refine ⟨_, by rw [unreachable, hreached]; rfl, List.filter_sublist, fun name => ?_⟩
  rw [List.mem_filter, decide_eq_true_eq, hseen]

theorem mem_unreachable {names : List String} (h : g.unreachable = .ok names) {name : String} :
    name ∈ names ↔ name ∈ g.names ∧ ¬ g.Leads name := by
  obtain ⟨names', h', -, hmem⟩ := g.unreachable_eq_ok
  cases h.symm.trans h'
  exact hmem name

/-! ### Construction -/

theorem exists_warning_iff {start : String} {names : List String} :
    (∃ e ∈ unreachableLog start names, e.level = .warning) ↔ names ≠ [] := by
  unfold unreachableLog
  cases names with
  | nil => simp
  | cons name names => simp

/-- A construction succeeds if the components make a grammar: its references can be followed. -/
theorem construct_of_ofComponents {components : List Component} {start : Value}
    {names : List String} (h : ofComponents components start = .ok g)
    (hnames : g.unreachable = .ok names) :
    construct components start = .ok (g, unreachableLog g.start names) := by
  simp only [construct, h, hnames, Except.mapError, bind, Except.bind, pure, Except.pure]

theorem construct_of_fault {components : List Component} {start : Value} {fault : GrammarFault}
    (h : ofComponents components start = .error fault) :
    construct components start = .error (.fault fault) := by
  simp only [construct, h, Except.mapError, bind, Except.bind]

/-- **What a construction gives**: the grammar that the components make, with the report on its
unreachable names. -/
theorem construct_eq_ok_iff {components : List Component} {start : Value} {log : List LogEntry} :
    construct components start = .ok (g, log) ↔ ofComponents components start = .ok g ∧
      ∃ names, g.unreachable = .ok names ∧ log = unreachableLog g.start names := by
  constructor
  · intro h
    cases hg : ofComponents components start with
    | error fault => cases (construct_of_fault hg).symm.trans h
    | ok g' =>
      obtain ⟨names, hnames, -⟩ := g'.unreachable_eq_ok
      obtain ⟨rfl, rfl⟩ : g' = g ∧ _ = log :=
        Prod.mk.inj (Except.ok.inj ((construct_of_ofComponents hg hnames).symm.trans h))
      exact ⟨rfl, names, hnames, rfl⟩
  · rintro ⟨hg, names, hnames, rfl⟩
    exact construct_of_ofComponents hg hnames

theorem exists_construct_eq_ok_iff {components : List Component} {start : Value} :
    (∃ log, construct components start = .ok (g, log)) ↔ ofComponents components start = .ok g := by
  refine ⟨fun ⟨log, h⟩ => (construct_eq_ok_iff.1 h).1, fun h => ?_⟩
  obtain ⟨names, hnames, -⟩ := g.unreachable_eq_ok
  exact ⟨_, construct_of_ofComponents h hnames⟩

/-- A construction that fails is at fault in its components. -/
theorem construct_eq_error {components : List Component} {start : Value} {e : ConstructionError}
    (h : construct components start = .error e) : ∃ fault, e = .fault fault := by
  cases hg : ofComponents components start with
  | error fault => exact ⟨fault, (Except.error.inj ((construct_of_fault hg).symm.trans h)).symm⟩
  | ok g =>
    obtain ⟨names, hnames, -⟩ := g.unreachable_eq_ok
    cases (construct_of_ofComponents hg hnames).symm.trans h

/-! ### What is reported -/

variable (g) in
/-- Some alternative of `A` mentions `B`. -/
def Mentions (A B : String) : Prop :=
  ∃ a, g.Expands A a ∧ ∃ name : Label, .nonterminal name ∈ a ∧ name.val = B

theorem refersTo_eq_mentions : g.RefersTo = g.Mentions := by
  funext A B
  refine propext ⟨?_, ?_⟩
  · rintro ⟨r, hr, hA, hB⟩
    obtain ⟨a, ha, hname⟩ := Rule.mem_references.1 hB
    exact ⟨a, ⟨r, hr, hA, ha⟩, hname⟩
  · rintro ⟨a, ha, name, hname, rfl⟩
    exact refersTo_of_expands ha hname

/-- **Unreachable rules.**  At every turn in which references are followed, all names that have
still to be looked up are declared, and the turn does not fail; there are at most as many turns as
rules before the one that finds nothing pending, and what is seen then is what is reached.  The
names reported are, in the order of their declaration and without repeats, the declared names to
which no chain of mentions leads from the start symbol.  The grammar can be constructed from its
rules, and whatever it is constructed from, a warning is logged iff there are such names. -/
theorem unreachable_names (g : Grammar) :
    (∀ n e, g.Explored n e →
        n ≤ g.rules.length ∧ (∀ name ∈ e.pending, name ∈ g.names) ∧ ∃ next, g.turn e = .ok next) ∧
      (∃ n e, g.Explored n e ∧ g.turn e = .ok none ∧ g.reached = .ok e.seen) ∧
      ∃ names, g.unreachable = .ok names ∧ names.Sublist g.names ∧ names.Nodup ∧
        (∀ name, name ∈ names ↔ name ∈ g.names ∧ ¬ ReflTransGen g.Mentions g.start name) ∧
        (∃ log, construct (g.rules.map .rule) (.text g.start) = .ok (g, log)) ∧
        ∀ components start log, construct components start = .ok (g, log) →
          ((∃ e ∈ log, e.level = .warning) ↔ names ≠ []) := by
  obtain ⟨names, hnames, hsublist, hmem⟩ := g.unreachable_eq_ok
  refine ⟨fun n e h => ⟨h.le, fun name => h.exploring.1.pending_declared, ?_⟩, g.explored_reached,
    names, hnames, hsublist, hsublist.nodup g.distinct, fun name => ?_, ?_, ?_⟩
  · rcases h.exploring.1.turn with ⟨-, hturn⟩ | ⟨e', hturn, -⟩
    · exact ⟨_, hturn⟩
    · exact ⟨_, hturn⟩
  · rw [hmem, Leads, refersTo_eq_mentions]
  · exact exists_construct_eq_ok_iff.2 (ofRules_eq_ok_iff.2 ⟨rfl, rfl⟩)
  · intro components start log h
    obtain ⟨-, names', hnames', rfl⟩ := construct_eq_ok_iff.1 h
    cases hnames.symm.trans hnames'
    exact exists_warning_iff

/-- A house of rooms that lead to each other, and two places that only lead to each other. -/
def house : Grammar where
  rules := [
    ⟨⟨"attic", by decide⟩, [[.nonterminal ⟨"ladder", by decide⟩]], by decide⟩,
    ⟨⟨"house", by decide⟩,
      [[.nonterminal ⟨"room", by decide⟩], [.nonterminal ⟨"house", by decide⟩]], by decide⟩,
    ⟨⟨"ladder", by decide⟩,
      [[.nonterminal ⟨"attic", by decide⟩], [.nonterminal ⟨"room", by decide⟩]], by decide⟩,
    ⟨⟨"room", by decide⟩, [[.nonterminal ⟨"house", by decide⟩], []], by decide⟩]
  start := "house"
  distinct := by decide
  startDeclared := by decide
  closed := by decide

theorem unreachable_names_house :
    (∃ e, house.Explored 1 e ∧ e.pending = ["room"] ∧ "room" ∈ house.names ∧
        ∃ next, house.turn e = .ok next) ∧
      house.unreachable = .ok ["attic", "ladder"] ∧
      (∀ name ∈ ["attic", "ladder"], ¬ ReflTransGen house.Mentions "house" name) ∧
      ∃ log, construct (house.rules.map .rule) (.text "house") = .ok (house, log) ∧
        ∃ e ∈ log, e.level = .warning := by
  have hturn : house.turn (.start "house") = .ok (some ⟨["room", "house"], ["room"]⟩) := rfl
  have hexplored : house.Explored 1 ⟨["room", "house"], ["room"]⟩ := Explored.start.turn hturn
  have hunreachable : house.unreachable = .ok ["attic", "ladder"] := rfl
  obtain ⟨hturns, -, names, hnames, -, -, hmem, ⟨log, hlog⟩, hwarning⟩ := unreachable_names house
  cases hunreachable.symm.trans hnames
  obtain ⟨-, hdeclared, hnext⟩ := hturns 1 _ hexplored
  refine ⟨⟨_, hexplored, rfl, hdeclared _ List.mem_cons_self, hnext⟩, hunreachable, ?_,
    log, hlog, ?_⟩
  · intro name hname
    exact ((hmem name).1 hname).2
  · exact (hwarning _ _ _ hlog).2 (List.cons_ne_nil _ _)

end Grammar

end Acceptor
