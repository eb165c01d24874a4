import Acceptor.Grammar.Basic
import Mathlib.Data.List.Nodup
import Mathlib.Data.String.Basic

/-!
# Building grammars

`Grammar.ofRules` enters rules into a table one after the other and then checks the start symbol and
all references.  What it builds is known from its result alone: `Grammar.ofRules_eq_ok_iff` says
that a grammar comes out iff it has the given rules, in the given order, and the given start symbol.

If only references are wrong, the report lists them: `Grammar.dangling` has every pair of a rule and
an undeclared name that it mentions (`Grammar.mem_dangling`) once, in the order of
`Grammar.Precedes` (`Grammar.pairwise_dangling`), and it begins with the first rule that mentions
such a name, which is looked for on its own (`Grammar.offender?_of_dangling`).
`Grammar.ofRules_outcome` puts both together.
-/

namespace Acceptor

namespace Grammar

theorem ruleNames_append (rules others : List Rule) :
    ruleNames (rules ++ others) = ruleNames rules ++ ruleNames others := by
  simp [ruleNames]

/-- Rules that can be entered behind those of a table stand there in the end. -/
theorem declare_eq_ok_iff {table table' : Table} {rules : List Rule} :
    declare table (rules.map .rule) = .ok table' ↔ table'.val = table.val ++ rules := by
  induction rules generalizing table with
  | nil =>
    rw [List.map_nil, declare, Except.ok.injEq, List.append_nil, Subtype.ext_iff, eq_comm]
  | cons r rules ih =>
    rw [List.map_cons, declare]
    split
    · rename_i hmem
      refine ⟨nofun, fun htable => ?_⟩
      -- the table would have the name of the rule twice
      have hnodup := table'.2
      rw [htable, ruleNames_append] at hnodup
      exact absurd rfl ((List.nodup_append.1 hnodup).2.2 _ hmem _ List.mem_cons_self)
    · rw [ih, List.append_assoc, List.singleton_append]

theorem declared?_eq_some_iff {names : List String} {v : Value} {name : { s // s ∈ names }} :
    declared? names v = some name ↔ v = .text name.val := by
  constructor
  · intro h
    cases v with
    | text s =>
      simp only [declared?] at h
      split at h
      · rw [← Option.some.inj h]
      · cases h
    | _ => cases h
  · rintro rfl
    exact dif_pos name.2

theorem dangling_eq_nil {rules : List Rule}
    (h : ∀ r ∈ rules, ∀ name ∈ r.references, name ∈ ruleNames rules) : dangling rules = [] := by
  rw [dangling, List.flatMap_eq_nil_iff]
  intro r hr
  rw [List.map_eq_nil_iff, List.filter_eq_nil_iff]
  intro name hname
  simpa using h r hr name (List.mem_eraseDups.1 hname)

/-- **What is built**: the grammar with exactly these rules and this start symbol, if there is
one. -/
theorem ofRules_eq_ok_iff {rules : List Rule} {start : Value} {g : Grammar} :
    ofRules rules start = .ok g ↔ g.rules = rules ∧ start = .text g.start := by
  constructor
  · intro h
    unfold ofRules ofComponents at h
    cases htable : declare ⟨[], List.nodup_nil⟩ (rules.map .rule) with
    | error fault => simp [htable, bind, Except.bind] at h
    | ok table =>
      have hrules : table.val = [] ++ rules := declare_eq_ok_iff.1 htable
      simp only [htable, bind, Except.bind] at h
      split at h
      · cases h
      · rename_i name hname
        split at h
        · obtain rfl := Except.ok.inj h
          exact ⟨hrules, declared?_eq_some_iff.1 hname⟩
        · cases h
  · rintro ⟨rfl, rfl⟩
    have htable : declare ⟨[], List.nodup_nil⟩ (g.rules.map .rule) = .ok ⟨g.rules, g.distinct⟩ :=
      declare_eq_ok_iff.2 rfl
    have hname : declared? (ruleNames g.rules) (.text g.start) = some ⟨g.start, g.startDeclared⟩ :=
      declared?_eq_some_iff.2 rfl
    have hdangling : dangling g.rules = [] := dangling_eq_nil g.closed
    simp only [ofRules, ofComponents, htable, bind, Except.bind, hname]
    split
    · rfl
    · rename_i hcons
      rw [hdangling] at hcons
      cases hcons

theorem exists_ofRules_eq_ok_iff {rules : List Rule} {start : String} :
    (∃ g, ofRules rules (.text start) = .ok g) ↔ (ruleNames rules).Nodup ∧
      start ∈ ruleNames rules ∧ ∀ r ∈ rules, ∀ name ∈ r.references, name ∈ ruleNames rules := by
  simp only [ofRules_eq_ok_iff, Value.text.injEq]
  refine ⟨?_, fun ⟨hdistinct, hstart, hclosed⟩ => ?_⟩
  · rintro ⟨g, rfl, rfl⟩
    exact ⟨g.distinct, g.startDeclared, g.closed⟩
  · exact ⟨⟨rules, start, hdistinct, hstart, hclosed⟩, rfl, rfl⟩

/-! ### Undeclared names -/

/-- A pair of names: the rule of the first one mentions the second one, which is not declared. -/
def Dangles (rules : List Rule) (pair : String × String) : Prop :=
  ∃ r ∈ rules, r.name.val = pair.1 ∧
    (∃ a ∈ r.alternatives, ∃ name : Label, .nonterminal name ∈ a ∧ name.val = pair.2) ∧
    pair.2 ∉ ruleNames rules

/-- The order of such pairs: by the declarations of the rules, and for one rule by the places where
it mentions the names first. -/
def Precedes (rules : List Rule) (p q : String × String) : Prop :=
  (ruleNames rules).idxOf p.1 < (ruleNames rules).idxOf q.1 ∨
    ∃ r ∈ rules, r.name.val = p.1 ∧ r.name.val = q.1 ∧
      r.references.idxOf p.2 < r.references.idxOf q.2

theorem mem_dangling {rules : List Rule} {pair : String × String} :
    pair ∈ dangling rules ↔ Dangles rules pair := by
  obtain ⟨rule, name⟩ := pair
  simp only [dangling, Dangles, List.mem_flatMap, List.mem_map, List.mem_filter,
    List.mem_eraseDups, decide_eq_true_eq, Prod.mk.injEq, ← Rule.mem_references]
  refine exists_congr fun r => and_congr_right fun _ => ⟨?_, ?_⟩
  · rintro ⟨_, ⟨hname, hnot⟩, hrule, rfl⟩
    exact ⟨hrule, hname, hnot⟩
  · rintro ⟨hrule, hname, hnot⟩
    exact ⟨name, ⟨hname, hnot⟩, hrule, rfl⟩

theorem idxOf_filter_lt {p : String → Bool} {l : List String} {a b : String} (ha : p a = true)
    (hb : p b = true) (h : (l.filter p).idxOf a < (l.filter p).idxOf b) :
    l.idxOf a < l.idxOf b := by
  induction l with
  | nil => exact h
  | cons c l ih => grind

/-- What is left of a list without repeats stands in the order of first occurrence. -/
theorem pairwise_idxOf_eraseDups (l : List String) :
    l.eraseDups.Pairwise fun a b => l.idxOf a < l.idxOf b := by
  induction hn : l.length using Nat.strongRecOn generalizing l with
  | ind n ih =>
    cases l with
    | nil => exact List.Pairwise.nil
    | cons c l =>
      have hshorter : (l.filter fun b => !b == c).length < n := by
        rw [← hn, List.length_cons]
        exact Nat.lt_succ_of_le (List.length_filter_le _ _)
      have hne : ∀ a ∈ (l.filter fun b => !b == c).eraseDups, (!a == c) = true := by
        intro a ha
        exact (List.mem_filter.1 (List.mem_eraseDups.1 ha)).2
      have hidx : ∀ a, (!a == c) = true → (c :: l).idxOf a = l.idxOf a + 1 := by
        intro a ha
        have hac : a ≠ c := by simpa using ha
        rw [List.idxOf_cons, beq_false_of_ne hac.symm, cond_false]
      rw [List.eraseDups_cons, List.pairwise_cons]
      refine ⟨fun a ha => ?_, (ih _ hshorter _ rfl).imp_of_mem fun {a b} ha hb hab => ?_⟩
      · rw [List.idxOf_cons_self, hidx a (hne a ha)]
        exact Nat.succ_pos _
      · rw [hidx a (hne a ha), hidx b (hne b hb)]
        exact Nat.succ_lt_succ (idxOf_filter_lt (hne a ha) (hne b hb) hab)

theorem pairwise_idxOf_ruleNames {rules : List Rule} (h : (ruleNames rules).Nodup) :
    rules.Pairwise fun r r' =>
      (ruleNames rules).idxOf r.name.val < (ruleNames rules).idxOf r'.name.val := by
  have hnames : (ruleNames rules).Pairwise fun a b =>
      (ruleNames rules).idxOf a < (ruleNames rules).idxOf b := by
    rw [List.pairwise_iff_getElem]
    intro i j hi hj hij
    rwa [h.idxOf_getElem i hi, h.idxOf_getElem j hj]
  exact hnames.of_map (fun r : Rule => r.name.val) fun _ _ => id

/-- **The undeclared names are listed in order.** -/
theorem pairwise_dangling {rules : List Rule} (h : (ruleNames rules).Nodup) :
    (dangling rules).Pairwise (Precedes rules) := by
  refine List.pairwise_flatMap.2 ⟨fun r hr => ?_, ?_⟩
  · rw [List.pairwise_map]
    refine ((pairwise_idxOf_eraseDups r.references).filter _).imp fun hlt => ?_
    exact .inr ⟨r, hr, rfl, rfl, hlt⟩
  · refine (pairwise_idxOf_ruleNames h).imp fun hlt p hp q hq => .inl ?_
    -- all pairs of one rule begin with its name
    obtain ⟨_, -, rfl⟩ := List.mem_map.1 hp
    obtain ⟨_, -, rfl⟩ := List.mem_map.1 hq
    exact hlt

theorem nodup_dangling {rules : List Rule} (h : (ruleNames rules).Nodup) :
    (dangling rules).Nodup := by
  refine (pairwise_dangling h).imp ?_
  rintro p _ hlt rfl
  rcases hlt with hlt | ⟨r, -, -, -, hlt⟩
  · exact Nat.lt_irrefl _ hlt
  · exact Nat.lt_irrefl _ hlt

/-- The list begins with the first rule that mentions an undeclared name. -/
theorem offender?_of_dangling {rules : List Rule} {first : String × String}
    {others : List (String × String)} (h : dangling rules = first :: others) :
    ∃ r, offender? rules = some r ∧ r.name.val = first.1 := by
  have hfirst : (dangling rules).head? = some first := by rw [h, List.head?_cons]
  rw [dangling, List.head?_flatMap, List.findSome?_eq_some_iff] at hfirst
  obtain ⟨before, r, after, hrules, hr, hbefore⟩ := hfirst
  obtain ⟨name, hname, rfl⟩ := List.mem_map.1 (List.mem_of_mem_head? hr)
  obtain ⟨hname, hnot⟩ := List.mem_filter.1 hname
  refine ⟨r, List.find?_eq_some_iff_append.2 ⟨?_, before, after, hrules, fun r' hr' => ?_⟩, rfl⟩
  · exact List.any_eq_true.2 ⟨name, List.mem_eraseDups.1 hname, hnot⟩
  · have hnone := hbefore r' hr'
    rw [List.head?_eq_none_iff, List.map_eq_nil_iff, List.filter_eq_nil_iff] at hnone
    rw [Bool.not_eq_true', List.any_eq_false]
    exact fun name hname => hnone name (List.mem_eraseDups.2 hname)

/-- The rule that is reported is the one that the first pair names. -/
theorem ofRules_of_dangling {rules : List Rule} {start : String} {first : String × String}
    {others : List (String × String)} (hdistinct : (ruleNames rules).Nodup)
    (hstart : start ∈ ruleNames rules) (h : dangling rules = first :: others) :
    ofRules rules (.text start) = .error (.dangling first others first.1) := by
  have htable : declare ⟨[], List.nodup_nil⟩ (rules.map .rule) = .ok ⟨rules, hdistinct⟩ :=
    declare_eq_ok_iff.2 rfl
  have hname : declared? (ruleNames rules) (.text start) = some ⟨start, hstart⟩ :=
    declared?_eq_some_iff.2 rfl
  simp only [ofRules, ofComponents, htable, bind, Except.bind, hname]
  split
  · rename_i hnil
    cases hnil.symm.trans h
  · rename_i hcons
    obtain ⟨rfl, rfl⟩ := List.cons.inj (hcons.symm.trans h)
    obtain ⟨r, hr, hfirst⟩ := offender?_of_dangling h
    simp only [hr, Option.get_some, hfirst]

/-! ### The outcome -/

/-- Every reference in every alternative is to a declared name. -/
def AllDeclared (rules : List Rule) : Prop :=
  ∀ r ∈ rules, ∀ a ∈ r.alternatives, ∀ name : Label, .nonterminal name ∈ a →
    name.val ∈ ruleNames rules

theorem allDeclared_iff {rules : List Rule} :
    AllDeclared rules ↔ ∀ r ∈ rules, ∀ name ∈ r.references, name ∈ ruleNames rules := by
  refine forall₂_congr fun r _ => ⟨fun h name hname => ?_, fun h a ha name hname => ?_⟩
  · obtain ⟨a, ha, label, hlabel, rfl⟩ := Rule.mem_references.1 hname
    exact h a ha label hlabel
  · exact h name.val (Rule.mem_references.2 ⟨a, ha, name, hname, rfl⟩)

/-- A menu that mentions a dish before its rule, and others that have no rule. -/
def menuRules : List Rule := [
  ⟨⟨"menu", by decide⟩,
    [[.nonterminal ⟨"soup", by decide⟩, .nonterminal ⟨"dish", by decide⟩],
      [.nonterminal ⟨"salad", by decide⟩, .nonterminal ⟨"soup", by decide⟩]], by decide⟩,
  ⟨⟨"dish", by decide⟩, [[.nonterminal ⟨"sauce", by decide⟩]], by decide⟩]

example : dangling menuRules = [("menu", "soup"), ("menu", "salad"), ("dish", "sauce")] := by decide

end Grammar

end Acceptor
