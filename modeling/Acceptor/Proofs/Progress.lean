import Acceptor.Proofs.Reach
import Mathlib.Order.Bounds.Defs

/-!
# How far derivations get

A leftmost derivation that has got to some position either ends, there or further on, or gets stuck
at a terminal that does not match (`Grammar.Gets.ends_or_stuck`), provided that no sub-problem leads
back to itself.  So the furthest position that any derivation gets to is the furthest of the ends
and of the places where one is stuck.
-/

namespace Acceptor

open Relation

namespace Grammar

variable (g : Grammar) (w : TokenStream)

/-- Some leftmost derivation gets to the position: it matches all tokens in front of it. -/
def Gets (p : ℕ) : Prop :=
  p ≤ w.length ∧ ∃ x, g.Leftmost [g.startSymbol] (w.tokens.take p) x

/-- A derivation is stuck: the terminal stands at the position and does not match there. -/
def Stuck (s : Symbol) (p : ℕ) : Prop :=
  s.isTerminal = true ∧ g.Occurs w s p ∧ ¬ g.Matches w s p

variable {g w}

/-! ### Positions that derivations get to -/

theorem Occurs.gets {s : Symbol} {p : ℕ} (h : g.Occurs w s p) : g.Gets w p := by
  obtain ⟨hp, x, hx⟩ := occurs_iff_leftmost.1 h
  exact ⟨hp, _, hx⟩

theorem Occurs.gets_succ {s : Symbol} {p : ℕ} (h : g.Occurs w s p) (hm : g.Matches w s p) :
    g.Gets w (p + 1) := by
  obtain ⟨-, x, hx⟩ := occurs_iff_leftmost.1 h
  obtain ⟨t, ht, hs⟩ := hm
  obtain ⟨hlt, -⟩ := List.getElem?_eq_some_iff.1 ht
  refine ⟨hlt, x, ?_⟩
  rw [List.take_add_one, ht]
  exact hx.shift hs

theorem start_endsAt_iff {q : ℕ} :
    SubProblem.EndsAt g w ⟨g.start, 0⟩ q ↔ q ≤ w.length ∧ g.Generates g.start (w.tokens.take q) := by
  rw [SubProblem.endsAt_iff_between (Nat.zero_le _)]
  exact and_iff_right (Nat.zero_le q)

theorem gets_of_start_endsAt {q : ℕ} (h : SubProblem.EndsAt g w ⟨g.start, 0⟩ q) : g.Gets w q := by
  obtain ⟨hq, b, hb, hd⟩ := start_endsAt_iff.1 h
  refine ⟨hq, [], ?_⟩
  have hexp : g.Leftmost [g.startSymbol] [] (b ++ []) := Leftmost.refl.expand hb
  exact hexp.through hd

theorem Leftmost.start_endsAt {p q : ℕ} {x : Alternative} (hp : p ≤ w.length)
    (h : g.Leftmost [g.startSymbol] (w.tokens.take p) x) (hx : g.Spans w x p q) :
    SubProblem.EndsAt g w ⟨g.start, 0⟩ q := by
  obtain ⟨v, hv, hpre, rfl⟩ := hx
  have hspans : g.Spans w [g.startSymbol] 0 (p + v.length) := by
    refine ⟨w.tokens.take p ++ v, h.derives hv, ?_, ?_⟩
    · rw [take_append_eq_take hpre]
      exact List.take_prefix _ _
    · rw [List.length_append, List.length_take_of_le hp, Nat.zero_add]
  exact spans_nonterminal.1 hspans

/-! ### Dead ends -/

/-- Derivations of symbols end or get stuck, if those of the names that they come to do. -/
theorem spans_or_stuck {a : Alternative} {p : ℕ} (hocc : ∀ s m, g.Visits w a p s m → g.Occurs w s m)
    (hname : ∀ (name : Label) m, g.Visits w a p (.nonterminal name) m →
      (∃ q, SubProblem.EndsAt g w ⟨name.val, m⟩ q) ∨ ∃ s q, m ≤ q ∧ g.Stuck w s q) :
    (∃ q, g.Spans w a p q) ∨ ∃ s q, p ≤ q ∧ g.Stuck w s q := by
  induction a generalizing p with
  | nil => exact .inl ⟨p, spans_nil.2 rfl⟩
  | cons s a ih =>
    have hhead : g.Visits w (s :: a) p s p := visits_cons.2 (.inl ⟨rfl, rfl⟩)
    -- what lies behind a derivation of the first symbol
    have hrest : ∀ m, g.Spans w [s] p m →
        (∃ q, g.Spans w (s :: a) p q) ∨ ∃ s q, p ≤ q ∧ g.Stuck w s q := by
      intro m hm
      have hvisits : ∀ s' q, g.Visits w a m s' q → g.Visits w (s :: a) p s' q := fun s' q hq =>
        visits_cons.2 (.inr ⟨m, hm, hq⟩)
      rcases ih (fun s' q hq => hocc s' q (hvisits s' q hq))
        (fun name q hq => hname name q (hvisits _ q hq)) with ⟨q, hq⟩ | ⟨s', q, hmq, hq⟩
      · exact .inl ⟨q, spans_append.2 ⟨m, hm, hq⟩⟩
      · exact .inr ⟨s', q, hm.le.trans hmq, hq⟩
    have hterminal : s.isTerminal = true →
        (∃ q, g.Spans w (s :: a) p q) ∨ ∃ s q, p ≤ q ∧ g.Stuck w s q := by
      intro hs
      by_cases hm : g.Matches w s p
      · exact hrest (p + 1) ((spans_terminal_cons hs).2 ⟨hm, spans_nil.2 rfl⟩)
      · exact .inr ⟨s, p, le_rfl, hs, hocc s p hhead, hm⟩
    cases s with
    | literal text => exact hterminal rfl
    | lexical c => exact hterminal rfl
    | empty => exact hrest p (spans_empty_cons.2 (spans_nil.2 rfl))
    | nonterminal name =>
      rcases hname name p hhead with ⟨m, hm⟩ | hstuck
      · exact hrest m (spans_nonterminal.2 hm)
      · exact .inr hstuck

theorem Reached.endsAt_or_stuck {k : SubProblem} (hacc : Acc (fun j k => g.Asks w k j) k)
    (hk : g.Reached w k) : (∃ q, k.EndsAt g w q) ∨ ∃ s q, k.position ≤ q ∧ g.Stuck w s q := by
  induction hacc with
  | intro k _ ih =>
    -- any alternative will do, and every rule has one
    obtain ⟨b, hb⟩ := exists_expands hk.declared
    have hocc : ∀ s m, g.Visits w b k.position s m → g.Occurs w s m := by
      rintro s m ⟨pre, rest, rfl, hpre⟩
      exact .inr ⟨k, hk, pre, rest, hb, hpre⟩
    have hname : ∀ (name : Label) m, g.Visits w b k.position (.nonterminal name) m →
        (∃ q, SubProblem.EndsAt g w ⟨name.val, m⟩ q) ∨ ∃ s q, m ≤ q ∧ g.Stuck w s q := by
      rintro name m ⟨pre, rest, rfl, hpre⟩
      have hask : g.Asks w k ⟨name.val, m⟩ := ⟨pre, name, rest, rfl, hb, hpre⟩
      exact ih ⟨name.val, m⟩ hask (hk.tail hask)
    rcases spans_or_stuck hocc hname with ⟨q, hq⟩ | hstuck
    · exact .inl ⟨q, b, hb, hq⟩
    · exact .inr hstuck

/-- **Every derivation ends or gets stuck**, there or further on, if no sub-problem leads back to
itself. -/
theorem Gets.ends_or_stuck {p : ℕ} (h : g.Gets w p)
    (hacc : ∀ k, g.Reached w k → Acc (fun j k => g.Asks w k j) k) :
    (∃ q, p ≤ q ∧ SubProblem.EndsAt g w ⟨g.start, 0⟩ q) ∨ ∃ s q, p ≤ q ∧ g.Stuck w s q := by
  obtain ⟨hp, x, hx⟩ := h
  have hlen : (w.tokens.take p).length = p := List.length_take_of_le hp
  have hocc : ∀ s m, g.Visits w x p s m → g.Occurs w s m := by
    rintro s m ⟨pre, rest, hxs, hpre⟩
    exact hx.occurs (List.take_prefix _ _) hxs (hlen.symm ▸ hpre)
  have hname : ∀ (name : Label) m, g.Visits w x p (.nonterminal name) m →
      (∃ q, SubProblem.EndsAt g w ⟨name.val, m⟩ q) ∨ ∃ s q, m ≤ q ∧ g.Stuck w s q := by
    intro name m hm
    have hk : g.Reached w ⟨name.val, m⟩ := occurs_nonterminal_iff.1 (hocc _ m hm)
    exact hk.endsAt_or_stuck (hacc _ hk)
  rcases spans_or_stuck hocc hname with ⟨q, hq⟩ | hstuck
  · exact .inl ⟨q, hq.le, hx.start_endsAt hp hq⟩
  · exact .inr hstuck

/-- At the furthest position every terminal that stands next is stuck. -/
theorem stuck_iff_of_isGreatest {s : Symbol} {p : ℕ} (hp : IsGreatest {q | g.Gets w q} p) :
    g.Stuck w s p ↔
      s.isTerminal = true ∧ ∃ x, g.Leftmost [g.startSymbol] (w.tokens.take p) (s :: x) := by
  have hocc := occurs_iff_leftmost (g := g) (w := w) (s := s) (p := p)
  rw [and_iff_right hp.1.1] at hocc
  rw [Stuck, ← hocc]
  refine and_congr_right fun _ => and_iff_left_of_imp fun hs hm => ?_
  exact absurd (hp.2 (hs.gets_succ hm)) (Nat.not_succ_le_self p)

end Grammar

end Acceptor
