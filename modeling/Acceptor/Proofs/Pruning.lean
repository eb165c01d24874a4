import Acceptor.Proofs.Construction
import Acceptor.Proofs.Reachable
import Acceptor.Proofs.Reordering

/-!
# Grammars without unreachable rules

`Grammar.pruned` leaves out the rules that are reported as unreachable.  The names that are kept
have the same alternatives as before (`Grammar.alternatives?_pruned`), and no search asks for any
others (`Grammar.leads_of_asks_path`).  Still the grammar may mean something else: the literals of
the rules that are left out are no longer reserved, so the word-like classes match more tokens.
What was derived is derived by the pruned grammar, too (`Grammar.Generates.pruned`), and terminals
match alike all tokens that are reserved in both or in neither (`Grammar.accepts_pruned`).
-/

namespace Acceptor

open Relation

theorem Symbol.accepts_congr {reserved reserved' : List String} {t : String}
    (h : t ∈ reserved ↔ t ∈ reserved') (s : Symbol) :
    s.accepts reserved t = s.accepts reserved' t := by
  have hcontains : reserved.contains t = reserved'.contains t := by
    rw [Bool.eq_iff_iff, List.contains_iff_mem, List.contains_iff_mem, h]
  cases s with
  | lexical c => simp only [accepts, LexicalClass.accepts, hcontains]
  | _ => rfl

/-- With fewer reserved texts a symbol matches no fewer tokens. -/
theorem Symbol.accepts_mono {reserved reserved' : List String} {t : String}
    (h : t ∈ reserved' → t ∈ reserved) {s : Symbol} (hs : s.accepts reserved t = true) :
    s.accepts reserved' t = true := by
  by_cases ht : t ∈ reserved'
  · rwa [← accepts_congr (iff_of_true (h ht) ht)]
  · cases s with
    | lexical c =>
      simp only [accepts, LexicalClass.accepts, Bool.and_eq_true] at hs ⊢
      refine ⟨⟨hs.1.1, ?_⟩, hs.2⟩
      simp [ht]
    | _ => exact hs

namespace Grammar

variable {g : Grammar} {unused : List String} (hunused : g.unreachable = .ok unused)

/-! ### The rules that are kept -/

include hunused in
theorem mem_filter_reachable {r : Rule} :
    r ∈ g.rules.filter (fun r => r.name.val ∉ unused) ↔ r ∈ g.rules ∧ g.Leads r.name.val := by
  rw [List.mem_filter, decide_eq_true_eq, mem_unreachable hunused]
  refine and_congr_right fun hr => ?_
  have hname : r.name.val ∈ g.names := List.mem_map_of_mem hr
  rw [not_and_not_right]
  exact ⟨fun h => h hname, fun h _ => h⟩

include hunused in
theorem mem_ruleNames_filter {name : String} (h : g.Leads name) :
    name ∈ ruleNames (g.rules.filter fun r => r.name.val ∉ unused) := by
  obtain ⟨r, hr, rfl⟩ := List.mem_map.1 h.declared
  exact List.mem_map.2 ⟨r, (mem_filter_reachable hunused).2 ⟨hr, h⟩, rfl⟩

/-- The grammar without the rules that are reported. -/
def pruned : Grammar where
  rules := g.rules.filter fun r => r.name.val ∉ unused
  start := g.start
  distinct := (List.filter_sublist.map _).nodup g.distinct
  startDeclared := mem_ruleNames_filter hunused ReflTransGen.refl
  closed r hr name hname := by
    obtain ⟨hr, hleads⟩ := (mem_filter_reachable hunused).1 hr
    exact mem_ruleNames_filter hunused (hleads.tail ⟨r, hr, rfl, hname⟩)

theorem ofRules_pruned :
    ofRules (g.rules.filter fun r => r.name.val ∉ unused) (.text g.start) = .ok (pruned hunused) :=
  ofRules_eq_ok_iff.2 ⟨rfl, rfl⟩

theorem mem_pruned_rules {r : Rule} :
    r ∈ (pruned hunused).rules ↔ r ∈ g.rules ∧ g.Leads r.name.val :=
  mem_filter_reachable hunused

theorem expands_pruned_iff {name : String} {a : Alternative} :
    (pruned hunused).Expands name a ↔ g.Expands name a ∧ g.Leads name := by
  constructor
  · rintro ⟨r, hr, rfl, ha⟩
    obtain ⟨hr, hleads⟩ := (mem_pruned_rules hunused).1 hr
    exact ⟨⟨r, hr, rfl, ha⟩, hleads⟩
  · rintro ⟨⟨r, hr, rfl, ha⟩, hleads⟩
    exact ⟨r, (mem_pruned_rules hunused).2 ⟨hr, hleads⟩, rfl, ha⟩

theorem alternatives?_pruned {name : String} (h : g.Leads name) :
    (pruned hunused).alternatives? name = g.alternatives? name := by
  have hrule : (pruned hunused).rule? name = g.rule? name := by
    refine Option.ext fun r => ?_
    rw [rule?_eq_some_iff, rule?_eq_some_iff, mem_pruned_rules]
    constructor
    · rintro ⟨⟨hr, -⟩, hname⟩
      exact ⟨hr, hname⟩
    · rintro ⟨hr, rfl⟩
      exact ⟨⟨hr, h⟩, rfl⟩
  rw [alternatives?, alternatives?, hrule]

/-- All that is kept is led to by what is kept. -/
theorem Leads.pruned {name : String} (h : g.Leads name) : (pruned hunused).Leads name := by
  induction h with
  | refl => exact .refl
  | tail hA hst ih =>
    obtain ⟨r, hr, rfl, hB⟩ := hst
    exact ih.tail ⟨r, (mem_pruned_rules hunused).2 ⟨hr, hA⟩, rfl, hB⟩

theorem unreachable_pruned : (pruned hunused).unreachable = .ok [] := by
  obtain ⟨names, hnames, -, hmem⟩ := (pruned hunused).unreachable_eq_ok
  rw [hnames, Except.ok.injEq]
  refine List.eq_nil_iff_forall_not_mem.2 fun name hname => ?_
  obtain ⟨hdeclared, hnot⟩ := (hmem name).1 hname
  obtain ⟨r, hr, rfl⟩ := List.mem_map.1 hdeclared
  exact hnot (((mem_pruned_rules hunused).1 hr).2.pruned hunused)

/-! ### The tokens that are matched -/

theorem mem_reserved_of_pruned {t : String} (h : t ∈ (pruned hunused).reserved) :
    t ∈ g.reserved := by
  obtain ⟨name, a, ha, ht⟩ := mem_reserved.1 h
  exact mem_reserved.2 ⟨name, a, ((expands_pruned_iff hunused).1 ha).1, ht⟩

/-- Terminals match a token alike if it did not cease to be reserved. -/
theorem accepts_pruned {t : String} (h : t ∈ g.reserved → t ∈ (pruned hunused).reserved)
    (s : Symbol) : s.accepts (pruned hunused).reserved t = s.accepts g.reserved t :=
  s.accepts_congr ⟨mem_reserved_of_pruned hunused, h⟩

theorem attempt_pruned {w : TokenStream}
    (h : ∀ t ∈ w.tokens, t ∈ g.reserved → t ∈ (pruned hunused).reserved) (s : Symbol) (p : ℕ) :
    (pruned hunused).attempt w s p = g.attempt w s p := by
  simp only [Derivation.attempt, List.getElem?_toArray]
  cases ht : w.tokens[p]? with
  | none => rfl
  | some t => simp only [accepts_pruned hunused (h t (List.mem_of_getElem? ht))]

/-! ### What is derived -/

theorem Derives.pruned {a : Alternative} {u : List String} (h : g.Derives a u)
    (ha : ∀ name : Label, .nonterminal name ∈ a → g.Leads name.val) :
    (pruned hunused).Derives a u := by
  induction h with
  | nil => exact .nil
  | empty _ ih => exact .empty (ih fun name hname => ha name (List.mem_cons_of_mem _ hname))
  | terminal hs _ ih =>
    exact .terminal (Symbol.accepts_mono (mem_reserved_of_pruned hunused) hs)
      (ih fun name hname => ha name (List.mem_cons_of_mem _ hname))
  | @nonterminal name b a u v hb _ _ ih ih' =>
    -- the alternative refers only to names that its own name leads to
    have hleads : g.Leads name.val := ha name List.mem_cons_self
    exact .nonterminal ((expands_pruned_iff hunused).2 ⟨hb, hleads⟩)
      (ih fun n hn => hleads.tail (refersTo_of_expands hb hn))
      (ih' fun n hn => ha n (List.mem_cons_of_mem _ hn))

/-- **The pruned grammar derives no less.** -/
theorem Generates.pruned {u : List String} (h : g.Generates g.start u) :
    (pruned hunused).Generates g.start u := by
  obtain ⟨b, hb, hd⟩ := h
  refine ⟨b, (expands_pruned_iff hunused).2 ⟨hb, .refl⟩, hd.pruned hunused fun n hn => ?_⟩
  exact ReflTransGen.single (refersTo_of_expands hb hn)

/-- A search asks only for names that the start symbol leads to. -/
theorem leads_of_asks_path {w : TokenStream} {k j : SubProblem}
    (h : ReflTransGen (g.Asks w) k j) (hk : g.Leads k.name) : g.Leads j.name := by
  induction h with
  | refl => exact hk
  | tail _ hst ih =>
    obtain ⟨pre, n, rest, hn, hb, -⟩ := hst
    exact hn ▸ ih.tail (refersTo_of_expands hb (by simp))

end Grammar

end Acceptor
