import Acceptor.Proofs.Language
import Mathlib.Data.List.Perm.Subperm

/-!
# Equal grammars

Grammars are equal if they have the same start symbol and the same rules, in any order
(`Grammar.sameAs_iff`).  The key that a grammar is hashed by keeps the rules in the order of their
declaration, so equality of grammars alone does not make their keys agree.  They agree iff the
grammars are equal and declare their names in the same order (`Grammar.hashKey_eq_iff`).
-/

namespace Acceptor

namespace Grammar

variable {g h : Grammar}

theorem nodup_rules (g : Grammar) : g.rules.Nodup := List.Nodup.of_map _ g.distinct

/-- **Equality ignores the order of rules.** -/
theorem sameAs_iff : g.sameAs h = true ↔ g.start = h.start ∧ g.rules.Perm h.rules := by
  simp only [sameAs, Bool.and_eq_true, beq_iff_eq, List.all_eq_true, decide_eq_true_eq]
  constructor
  · rintro ⟨⟨hstart, hlength⟩, hsub⟩
    -- no rule comes twice, so as many rules of the other grammar are all of them
    have hsubperm : g.rules.Subperm h.rules := List.subperm_of_subset g.nodup_rules hsub
    exact ⟨hstart, hsubperm.perm_of_length_le (Nat.le_of_eq hlength.symm)⟩
  · rintro ⟨hstart, hperm⟩
    exact ⟨⟨hstart, hperm.length_eq⟩, fun r hr => hperm.mem_iff.1 hr⟩

/-- The rules are found again by their names. -/
theorem filterMap_rule?_names (g : Grammar) : g.names.filterMap g.rule? = g.rules := by
  have hfound : ∀ r ∈ g.rules, g.rule? r.name.val = some r := fun r hr =>
    rule?_eq_some_iff.2 ⟨hr, rfl⟩
  rw [names, ruleNames, List.filterMap_map]
  exact (List.filterMap_congr hfound).trans List.filterMap_some

theorem rule?_eq_of_perm (hperm : g.rules.Perm h.rules) : g.rule? = h.rule? := by
  funext name
  refine Option.ext fun r => ?_
  rw [rule?_eq_some_iff, rule?_eq_some_iff, hperm.mem_iff]

/-- **The keys that grammars are hashed by agree** iff the grammars are equal and declare their
names in the same order. -/
theorem hashKey_eq_iff (g h : Grammar) :
    g.hashKey = h.hashKey ↔ g.sameAs h = true ∧ g.names = h.names := by
  rw [hashKey, hashKey, Prod.mk.injEq, sameAs_iff]
  constructor
  · rintro ⟨hstart, hrules⟩
    exact ⟨⟨hstart, hrules ▸ List.Perm.refl _⟩, congrArg ruleNames hrules⟩
  · rintro ⟨⟨hstart, hperm⟩, hnames⟩
    refine ⟨hstart, ?_⟩
    calc g.rules
      _ = g.names.filterMap g.rule? := g.filterMap_rule?_names.symm
      _ = h.names.filterMap h.rule? := by rw [hnames, rule?_eq_of_perm hperm]
      _ = h.rules := h.filterMap_rule?_names

/-- A pair of a key and its value. -/
def pair : Grammar where
  rules := [
    ⟨⟨"pair", by decide⟩,
      [[.lexical .identifier, .literal ⟨"=", by decide⟩, .nonterminal ⟨"value", by decide⟩]],
      by decide⟩,
    ⟨⟨"value", by decide⟩, [[.lexical .integer], [.lexical .word]], by decide⟩]
  start := "pair"
  distinct := by decide
  startDeclared := by decide
  closed := by decide

/-- The same pair, with the value declared first. -/
def pairSwapped : Grammar where
  rules := pair.rules.reverse
  start := "pair"
  distinct := by decide
  startDeclared := by decide
  closed := by decide

/-- Equal grammars may have different keys. -/
theorem hashKey_ne_of_sameAs_pair :
    pair.sameAs pairSwapped = true ∧ pair.hashKey ≠ pairSwapped.hashKey := by
  decide

end Grammar

end Acceptor
