import Acceptor.Proofs.Language
import Acceptor.Recognition.Memo
import Acceptor.Token.Stream
import Mathlib.Data.List.Infix
import Mathlib.Order.Lattice

/-!
# Derivations over a token stream

`Grammar.Spans w a p q` says that the symbols `a` derive the tokens of `w` from position `p` up to
position `q`.  It is read off symbol by symbol (`spans_nil`, `spans_empty_cons`,
`spans_terminal_cons`, `spans_nonterminal_cons`), which is how a search goes through an alternative.

* `SubProblem.EndsAt g w k q` : a derivation of the sub-problem `k` ends at `q`.
* `SubProblem.ends g w k` : the ascending list of all these ends.
-/

namespace Acceptor

/-- The tokens from position `p` up to position `q`. -/
def TokenStream.between (w : TokenStream) (p q : ℕ) : List String := (w.tokens.take q).drop p

namespace Grammar

variable (g : Grammar) (w : TokenStream)

/-- The symbol matches the token at a position. -/
def Matches (s : Symbol) (p : ℕ) : Prop :=
  ∃ t, w.tokens[p]? = some t ∧ s.accepts g.reserved t = true

/-- The symbols derive the tokens from position `p` up to position `q`. -/
def Spans (a : Alternative) (p q : ℕ) : Prop :=
  ∃ u, g.Derives a u ∧ u <+: w.tokens.drop p ∧ q = p + u.length

/-- A derivation of the symbols from `p` comes to `s` at `m`. -/
def Visits (a : Alternative) (p : ℕ) (s : Symbol) (m : ℕ) : Prop :=
  ∃ pre rest, a = pre ++ s :: rest ∧ g.Spans w pre p m

end Grammar

/-- A derivation of the sub-problem ends at `q`. -/
def SubProblem.EndsAt (g : Grammar) (w : TokenStream) (k : SubProblem) (q : ℕ) : Prop :=
  ∃ b, g.Expands k.name b ∧ g.Spans w b k.position q

namespace Grammar

variable {g : Grammar} {w : TokenStream}

/-! ### Symbol by symbol -/

theorem append_prefix_drop {u v l : List String} {p : ℕ} :
    u ++ v <+: l.drop p ↔ u <+: l.drop p ∧ v <+: l.drop (p + u.length) := by
  constructor
  · rintro ⟨x, hx⟩
    refine ⟨⟨v ++ x, by simpa using hx⟩, ⟨x, ?_⟩⟩
    rw [← List.drop_drop, ← hx, List.append_assoc, List.drop_left]
  · rintro ⟨⟨x, hx⟩, y, hy⟩
    refine ⟨y, ?_⟩
    rw [← List.drop_drop, ← hx, List.drop_left] at hy
    rw [← hx, ← hy, List.append_assoc]

theorem cons_prefix_drop {t : String} {u l : List String} {p : ℕ} :
    t :: u <+: l.drop p ↔ l[p]? = some t ∧ u <+: l.drop (p + 1) := by
  have hone : [t] <+: l.drop p ↔ l[p]? = some t := by
    rw [List.singleton_prefix_iff_head?_eq_some, List.head?_drop]
  rw [← List.singleton_append, append_prefix_drop, hone, List.length_singleton]

theorem spans_nil {p q : ℕ} : g.Spans w [] p q ↔ q = p := by
  constructor
  · rintro ⟨u, h, -, rfl⟩
    cases h
    rfl
  · rintro rfl
    exact ⟨[], .nil, List.nil_prefix, rfl⟩

theorem spans_empty_cons {a : Alternative} {p q : ℕ} :
    g.Spans w (.empty :: a) p q ↔ g.Spans w a p q := by
  constructor
  · rintro ⟨u, h, hu, rfl⟩
    cases h with
    | empty h => exact ⟨u, h, hu, rfl⟩
    | terminal hs h => cases hs
  · rintro ⟨u, h, hu, rfl⟩
    exact ⟨u, .empty h, hu, rfl⟩

theorem spans_terminal_cons {s : Symbol} (hs : s.isTerminal = true) {a : Alternative} {p q : ℕ} :
    g.Spans w (s :: a) p q ↔ g.Matches w s p ∧ g.Spans w a (p + 1) q := by
  constructor
  · rintro ⟨u, h, hu, rfl⟩
    cases h with
    | empty h => cases hs
    | @terminal _ t _ u ht h =>
      obtain ⟨hp, hu⟩ := cons_prefix_drop.1 hu
      refine ⟨⟨t, hp, ht⟩, u, h, hu, ?_⟩
      rw [List.length_cons]
      omega
    | nonterminal hb hd h => cases hs
  · rintro ⟨⟨t, hp, ht⟩, u, h, hu, rfl⟩
    refine ⟨t :: u, .terminal ht h, cons_prefix_drop.2 ⟨hp, hu⟩, ?_⟩
    rw [List.length_cons]
    omega

theorem spans_append {a b : Alternative} {p q : ℕ} :
    g.Spans w (a ++ b) p q ↔ ∃ m, g.Spans w a p m ∧ g.Spans w b m q := by
  constructor
  · rintro ⟨x, h, hx, rfl⟩
    obtain ⟨u, v, hu, hv, rfl⟩ := h.split
    obtain ⟨hpu, hpv⟩ := append_prefix_drop.1 hx
    refine ⟨p + u.length, ⟨u, hu, hpu, rfl⟩, v, hv, hpv, ?_⟩
    rw [List.length_append, Nat.add_assoc]
  · rintro ⟨m, ⟨u, hu, hpu, rfl⟩, v, hv, hpv, rfl⟩
    refine ⟨u ++ v, hu.append hv, append_prefix_drop.2 ⟨hpu, hpv⟩, ?_⟩
    rw [List.length_append, Nat.add_assoc]

theorem spans_nonterminal {name : Label} {p q : ℕ} :
    g.Spans w [.nonterminal name] p q ↔ SubProblem.EndsAt g w ⟨name.val, p⟩ q := by
  constructor
  · rintro ⟨x, h, hx, rfl⟩
    obtain ⟨u, v, ⟨b, hb, hu⟩, hv, rfl⟩ := derives_nonterminal_cons.1 h
    cases hv
    rw [List.append_nil] at hx ⊢
    exact ⟨b, hb, u, hu, hx, rfl⟩
  · rintro ⟨b, hb, u, hu, hx, rfl⟩
    refine ⟨u, derives_nonterminal_cons.2 ⟨u, [], ⟨b, hb, hu⟩, .nil, ?_⟩, hx, rfl⟩
    rw [List.append_nil]

theorem spans_nonterminal_cons {name : Label} {a : Alternative} {p q : ℕ} :
    g.Spans w (.nonterminal name :: a) p q ↔
      ∃ m, SubProblem.EndsAt g w ⟨name.val, p⟩ m ∧ g.Spans w a m q := by
  rw [← List.singleton_append, spans_append]
  exact exists_congr fun m => and_congr_left fun _ => spans_nonterminal

theorem visits_cons {s' s : Symbol} {a : Alternative} {p m : ℕ} :
    g.Visits w (s' :: a) p s m ↔
      (s = s' ∧ m = p) ∨ ∃ p', g.Spans w [s'] p p' ∧ g.Visits w a p' s m := by
  constructor
  · rintro ⟨pre, rest, ha, hpre⟩
    rcases List.cons_eq_append_iff.1 ha with ⟨rfl, hs⟩ | ⟨pre, rfl, rfl⟩
    · exact .inl ⟨(List.cons.inj hs).1, spans_nil.1 hpre⟩
    · rw [← List.singleton_append, spans_append] at hpre
      obtain ⟨p', hp', hm⟩ := hpre
      exact .inr ⟨p', hp', pre, rest, rfl, hm⟩
  · rintro (⟨rfl, rfl⟩ | ⟨p', hp', pre, rest, rfl, hm⟩)
    · exact ⟨[], a, rfl, spans_nil.2 rfl⟩
    · exact ⟨s' :: pre, rest, rfl, spans_append.2 ⟨p', hp', hm⟩⟩

/-! ### Where derivations end -/

theorem Spans.le {a : Alternative} {p q : ℕ} (h : g.Spans w a p q) : p ≤ q := by
  obtain ⟨u, -, -, rfl⟩ := h
  exact Nat.le_add_right p u.length

theorem Spans.le_max {a : Alternative} {p q : ℕ} (h : g.Spans w a p q) : q ≤ max w.length p := by
  obtain ⟨u, -, hu, rfl⟩ := h
  have hlen := hu.length_le
  rw [List.length_drop] at hlen
  unfold TokenStream.length
  omega

theorem Spans.mono {u : TokenStream} (hu : u.tokens <+: w.tokens) {a : Alternative} {p q : ℕ}
    (h : g.Spans u a p q) : g.Spans w a p q := by
  obtain ⟨x, hx, hpre, rfl⟩ := h
  exact ⟨x, hx, hpre.trans (hu.drop p), rfl⟩

theorem spans_self {a : Alternative} {p : ℕ} : g.Spans w a p p ↔ g.Derives a [] := by
  constructor
  · rintro ⟨u, h, -, hu⟩
    obtain rfl := List.eq_nil_of_length_eq_zero (by omega : u.length = 0)
    exact h
  · intro h
    exact ⟨[], h, List.nil_prefix, rfl⟩

theorem prefix_drop_iff {u l : List String} {p q : ℕ} (hp : p ≤ l.length) :
    (u <+: l.drop p ∧ q = p + u.length) ↔ p ≤ q ∧ q ≤ l.length ∧ u = (l.take q).drop p := by
  constructor
  · rintro ⟨hu, rfl⟩
    have hlen := hu.length_le
    rw [List.length_drop] at hlen
    refine ⟨Nat.le_add_right _ _, by omega, ?_⟩
    rw [List.drop_take, Nat.add_sub_cancel_left]
    exact List.prefix_iff_eq_take.1 hu
  · rintro ⟨hpq, hq, rfl⟩
    rw [List.length_drop, List.length_take, Nat.min_eq_left hq]
    refine ⟨?_, by omega⟩
    rw [List.drop_take]
    exact List.take_prefix _ _

/-- The symbols derive the tokens from `p` up to `q`, in so many words. -/
theorem spans_iff_between {a : Alternative} {p q : ℕ} (hp : p ≤ w.length) :
    g.Spans w a p q ↔ p ≤ q ∧ q ≤ w.length ∧ g.Derives a (w.between p q) := by
  constructor
  · rintro ⟨u, h, hu⟩
    obtain ⟨hpq, hq, rfl⟩ := (prefix_drop_iff hp).1 hu
    exact ⟨hpq, hq, h⟩
  · rintro ⟨hpq, hq, h⟩
    exact ⟨_, h, (prefix_drop_iff hp).2 ⟨hpq, hq, rfl⟩⟩

end Grammar

namespace SubProblem

variable {g : Grammar} {w : TokenStream} {k : SubProblem} {q : ℕ}

theorem EndsAt.le (h : k.EndsAt g w q) : k.position ≤ q := by
  obtain ⟨b, -, h⟩ := h
  exact h.le

theorem EndsAt.le_max (h : k.EndsAt g w q) : q ≤ max w.length k.position := by
  obtain ⟨b, -, h⟩ := h
  exact h.le_max

theorem endsAt_iff_between (hk : k.position ≤ w.length) :
    k.EndsAt g w q ↔ k.position ≤ q ∧ q ≤ w.length ∧ g.Generates k.name (w.between k.position q) := by
  constructor
  · rintro ⟨b, hb, h⟩
    obtain ⟨hpq, hq, h⟩ := (Grammar.spans_iff_between hk).1 h
    exact ⟨hpq, hq, b, hb, h⟩
  · rintro ⟨hpq, hq, b, hb, h⟩
    exact ⟨b, hb, (Grammar.spans_iff_between hk).2 ⟨hpq, hq, h⟩⟩

open Classical in
/-- The ascending list of the ends of all derivations of the sub-problem. -/
noncomputable def ends (g : Grammar) (w : TokenStream) (k : SubProblem) : List ℕ :=
  (List.range (max w.length k.position + 1)).filter fun q => k.EndsAt g w q

theorem mem_ends : q ∈ k.ends g w ↔ k.EndsAt g w q := by
  simp only [ends, List.mem_filter, List.mem_range, decide_eq_true_eq]
  exact ⟨fun h => h.2, fun h => ⟨Nat.lt_succ_of_le h.le_max, h⟩⟩

theorem isAscending_ends : IsAscending (k.ends g w) :=
  List.Pairwise.filter _ List.pairwise_lt_range

end SubProblem

end Acceptor
