import Acceptor.Proofs.Span
import Mathlib.Data.List.Chain

/-!
# The sub-problems that derivations reach

Deriving a name at a position asks for other names at other positions (`Grammar.Asks`).  The
symbols that this leads to from the start symbol are those that stand next in some leftmost
derivation (`Grammar.occurs_iff_leftmost`).  A name is left recursive iff it asks for itself at the
position where it stands, directly or through others (`Grammar.leftRecursive_iff_asks`).

A `Grammar.Circle` is a sub-problem that is reached, with the way of questions that leads back to it.
All of it lies at one position, so the names on it are left corners of each other
(`Grammar.Circle.leftCorner`).
-/

namespace Acceptor

open Relation

namespace Grammar

variable (g : Grammar) (w : TokenStream)

/-- Deriving `k` asks for `j`: an alternative of `k` refers to `j` behind symbols that derive the
tokens in front of it. -/
def Asks (k j : SubProblem) : Prop :=
  ∃ (pre : Alternative) (name : Label) (rest : Alternative), name.val = j.name ∧
    g.Expands k.name (pre ++ .nonterminal name :: rest) ∧ g.Spans w pre k.position j.position

/-- The start symbol at the first position asks for the sub-problem, directly or through others. -/
def Reached (k : SubProblem) : Prop := ReflTransGen (g.Asks w) ⟨g.start, 0⟩ k

/-- The symbol stands at a position: it is the start symbol at the first one, or an alternative of a
sub-problem that is reached has it there. -/
def Occurs (s : Symbol) (p : ℕ) : Prop :=
  (s = g.startSymbol ∧ p = 0) ∨
    ∃ k, g.Reached w k ∧ ∃ pre rest, g.Expands k.name (pre ++ s :: rest) ∧ g.Spans w pre k.position p

variable {g w}

/-! ### Bounds -/

theorem Asks.le {k j : SubProblem} (h : g.Asks w k j) : k.position ≤ j.position := by
  obtain ⟨pre, name, rest, -, -, hpre⟩ := h
  exact hpre.le

theorem Asks.le_max {k j : SubProblem} (h : g.Asks w k j) :
    j.position ≤ max w.length k.position := by
  obtain ⟨pre, name, rest, -, -, hpre⟩ := h
  exact hpre.le_max

theorem Asks.declared {k j : SubProblem} (h : g.Asks w k j) : j.name ∈ ruleNames g.rules := by
  obtain ⟨pre, name, rest, hname, hb, -⟩ := h
  rw [← hname]
  exact hb.declared (by simp)

theorem asks_path_le_max {k j : SubProblem} (h : ReflTransGen (g.Asks w) k j) :
    j.position ≤ max w.length k.position := by
  induction h with
  | refl => exact le_max_right _ _
  | tail _ hst ih => exact hst.le_max.trans (max_le (le_max_left _ _) ih)

theorem asks_path_declared {k j : SubProblem} (h : ReflTransGen (g.Asks w) k j)
    (hk : k.name ∈ ruleNames g.rules) : j.name ∈ ruleNames g.rules := by
  cases h with
  | refl => exact hk
  | tail _ hst => exact hst.declared

theorem Reached.le {k : SubProblem} (h : g.Reached w k) : k.position ≤ w.length := by
  have := asks_path_le_max h
  rwa [Nat.max_zero] at this

theorem Reached.declared {k : SubProblem} (h : g.Reached w k) : k.name ∈ ruleNames g.rules :=
  asks_path_declared h g.startDeclared

theorem Occurs.le {s : Symbol} {p : ℕ} (h : g.Occurs w s p) : p ≤ w.length := by
  rcases h with ⟨-, rfl⟩ | ⟨k, hk, pre, rest, -, hpre⟩
  · exact Nat.zero_le _
  · exact hpre.le_max.trans (max_le le_rfl hk.le)

/-! ### Longer streams -/

theorem Asks.mono {u : TokenStream} (hu : u.tokens <+: w.tokens) {k j : SubProblem}
    (h : g.Asks u k j) : g.Asks w k j := by
  obtain ⟨pre, name, rest, hname, hb, hpre⟩ := h
  exact ⟨pre, name, rest, hname, hb, hpre.mono hu⟩

theorem Reached.mono {u : TokenStream} (hu : u.tokens <+: w.tokens) {k : SubProblem}
    (h : g.Reached u k) : g.Reached w k :=
  ReflTransGen.mono (fun _ _ hask => hask.mono hu) _ _ h

/-! ### Leftmost derivations -/

theorem occurs_nonterminal_iff {name : Label} {p : ℕ} :
    g.Occurs w (.nonterminal name) p ↔ g.Reached w ⟨name.val, p⟩ := by
  constructor
  · rintro (⟨hs, rfl⟩ | ⟨k, hk, pre, rest, hb, hpre⟩)
    · obtain rfl := Symbol.nonterminal.inj hs
      exact .refl
    · exact hk.tail ⟨pre, name, rest, rfl, hb, hpre⟩
  · intro h
    generalize hj : (⟨name.val, p⟩ : SubProblem) = j at h
    cases h with
    | refl =>
      obtain ⟨hname, rfl⟩ := SubProblem.mk.inj hj
      exact .inl ⟨congrArg Symbol.nonterminal (Subtype.ext hname), rfl⟩
    | tail hk hst =>
      subst hj
      obtain ⟨pre, n, rest, hname, hb, hpre⟩ := hst
      obtain rfl := Subtype.ext hname
      exact .inr ⟨_, hk, pre, rest, hb, hpre⟩

theorem isTerminal_of_accepts {s : Symbol} {reserved : List String} {t : String}
    (h : s.accepts reserved t = true) : s.isTerminal = true := by
  cases s with
  | literal => rfl
  | lexical => rfl
  | nonterminal => cases h
  | empty => cases h

/-- Whatever the symbols left by a leftmost derivation can get to occurs there. -/
theorem Leftmost.occurs {u : List String} {x : Alternative}
    (h : g.Leftmost [g.startSymbol] u x) (hu : u <+: w.tokens) {pre post : Alternative} {s : Symbol}
    {p : ℕ} (hx : x = pre ++ s :: post) (hpre : g.Spans w pre u.length p) : g.Occurs w s p := by
  -- a step back over the derivation puts in front of the mark what the step took away
  induction h generalizing pre post s p with
  | refl =>
    rcases List.singleton_eq_append_iff.1 hx with ⟨rfl, hs⟩ | ⟨-, hs⟩
    · obtain ⟨rfl, -⟩ := List.cons.inj hs
      exact .inl ⟨rfl, spans_nil.1 hpre⟩
    · cases hs
  | skip _ ih =>
    subst hx
    exact ih hu (List.cons_append ..).symm (spans_empty_cons.2 hpre)
  | @shift u s' x t _ hs' ih =>
    subst hx
    have hut : u <+: w.tokens ∧ [t] <+: w.tokens.drop u.length := by
      have := append_prefix_drop (l := w.tokens) (p := 0) (u := u) (v := [t])
      simpa using this.1 hu
    obtain ⟨hut, ht⟩ := hut
    rw [List.singleton_prefix_iff_head?_eq_some, List.head?_drop] at ht
    refine ih hut (List.cons_append ..).symm ?_
    refine (spans_terminal_cons (isTerminal_of_accepts hs')).2 ⟨⟨t, ht, hs'⟩, ?_⟩
    rwa [List.length_append, List.length_singleton] at hpre
  | @expand u name x b _ hb ih =>
    -- the mark stands in the new alternative, or behind it
    rcases marked_append hx with ⟨c, rfl, rfl⟩ | ⟨c, rfl, rfl⟩
    · have hk : g.Reached w ⟨name.val, u.length⟩ :=
        occurs_nonterminal_iff.1 (ih hu (List.nil_append _).symm (spans_nil.2 rfl))
      exact .inr ⟨_, hk, pre, c, hb, hpre⟩
    · obtain ⟨m, hm, hc⟩ := spans_append.1 hpre
      exact ih hu (List.cons_append ..).symm (spans_nonterminal_cons.2 ⟨m, ⟨b, hb, hm⟩, hc⟩)

theorem take_append_eq_take {l v : List String} {p : ℕ} (h : v <+: l.drop p) :
    l.take p ++ v = l.take (p + v.length) := by
  rw [List.take_add, ← List.prefix_iff_eq_take.1 h]

/-- A leftmost derivation that has come to a name goes on to what its alternatives have behind
symbols that derive the tokens in between. -/
theorem Leftmost.into {p q : ℕ} {name : Label} {x pre rest : Alternative} {s : Symbol}
    (h : g.Leftmost [g.startSymbol] (w.tokens.take p) (.nonterminal name :: x))
    (hb : g.Expands name.val (pre ++ s :: rest)) (hpre : g.Spans w pre p q) :
    g.Leftmost [g.startSymbol] (w.tokens.take q) (s :: (rest ++ x)) := by
  obtain ⟨v, hd, hv, rfl⟩ := hpre
  have hexp := h.expand hb
  rw [List.append_assoc] at hexp
  rw [← take_append_eq_take hv]
  exact hexp.through hd

theorem Reached.leftmost {k : SubProblem} (h : g.Reached w k) :
    ∃ name x, name.val = k.name ∧
      g.Leftmost [g.startSymbol] (w.tokens.take k.position) (.nonterminal name :: x) := by
  induction h with
  | refl => exact ⟨⟨g.start, g.start_ne_empty⟩, [], rfl, .refl⟩
  | tail _ hst ih =>
    obtain ⟨name, x, hname, hx⟩ := ih
    obtain ⟨pre, n, rest, hn, hb, hpre⟩ := hst
    rw [← hname] at hb
    exact ⟨n, rest ++ x, hn, hx.into hb hpre⟩

/-- **The symbols that occur are those that stand next in a leftmost derivation.** -/
theorem occurs_iff_leftmost {s : Symbol} {p : ℕ} :
    g.Occurs w s p ↔
      p ≤ w.length ∧ ∃ x, g.Leftmost [g.startSymbol] (w.tokens.take p) (s :: x) := by
  constructor
  · intro h
    refine ⟨h.le, ?_⟩
    rcases h with ⟨rfl, rfl⟩ | ⟨k, hk, pre, rest, hb, hpre⟩
    · exact ⟨[], .refl⟩
    · obtain ⟨name, x, hname, hx⟩ := hk.leftmost
      rw [← hname] at hb
      exact ⟨rest ++ x, hx.into hb hpre⟩
  · rintro ⟨hp, x, h⟩
    refine h.occurs (List.take_prefix _ _) (List.nil_append _).symm (spans_nil.2 ?_)
    exact (List.length_take_of_le hp).symm

/-! ### Left recursion -/

theorem asks_path_le {k j : SubProblem} (h : TransGen (g.Asks w) k j) : k.position ≤ j.position := by
  induction h with
  | single hst => exact hst.le
  | tail _ hst ih => exact ih.trans hst.le

theorem Asks.leftCorner {k j : SubProblem} (h : g.Asks w k j) (hle : j.position ≤ k.position) :
    g.LeftCorner k.name j.name := by
  have hp : j.position = k.position := le_antisymm hle h.le
  obtain ⟨pre, name, rest, hname, hb, hpre⟩ := h
  rw [hp, spans_self] at hpre
  exact ⟨pre, name, rest, hname, hb, hpre⟩

theorem leftCorner_of_asks_path {k j : SubProblem} (h : TransGen (g.Asks w) k j)
    (hle : j.position ≤ k.position) : TransGen g.LeftCorner k.name j.name := by
  -- positions never decrease, so on a way that does not lead further none of them changes
  induction h with
  | single hst => exact .single (hst.leftCorner hle)
  | tail hk hst ih =>
    exact .tail (ih (hst.le.trans hle)) (hst.leftCorner (hle.trans (asks_path_le hk)))

theorem not_asks_self {k : SubProblem} (h : Acc (fun j k => g.Asks w k j) k) :
    ¬ TransGen (g.Asks w) k k := by
  induction h with
  | intro k _ ih =>
    intro hcycle
    obtain ⟨j, hkj, hjk⟩ := TransGen.head'_iff.1 hcycle
    exact ih j hkj (TransGen.tail' hjk hkj)

/-- **A name is left recursive iff it asks for itself at the same position**, whatever the
position. -/
theorem leftRecursive_iff_asks {name : Label} (p : ℕ) :
    g.LeftRecursive name ↔ TransGen (g.Asks w) ⟨name.val, p⟩ ⟨name.val, p⟩ := by
  rw [leftRecursive_iff]
  constructor
  · intro h
    refine TransGen.lift (fun A => (⟨A, p⟩ : SubProblem)) (fun A B hAB => ?_) _ _ h
    obtain ⟨pre, n, rest, hn, hb, hpre⟩ := hAB
    exact ⟨pre, n, rest, hn, hb, spans_self.2 hpre⟩
  · intro h
    exact leftCorner_of_asks_path h le_rfl

/-! ### Circles -/

variable (g w) in
/-- A sub-problem that is reached asks for itself, directly or through the others. -/
structure Circle (k : SubProblem) (others : List SubProblem) : Prop where
  /-- It is reached. -/
  reached : g.Reached w k
  /-- Each sub-problem asks for the next, and the last one for the first. -/
  chain : (k :: others ++ [k]).IsChain (g.Asks w)
  /-- None of them comes up twice. -/
  distinct : (k :: others).Nodup

namespace Circle

variable {k : SubProblem} {others : List SubProblem}

theorem pairwise (h : g.Circle w k others) :
    (k :: others ++ [k]).Pairwise (TransGen (g.Asks w)) :=
  List.isChain_iff_pairwise.1 (h.chain.imp fun _ _ => .single)

theorem asks_self (h : g.Circle w k others) : TransGen (g.Asks w) k k :=
  (List.pairwise_cons.1 h.pairwise).1 k (by simp)

/-- Positions never decrease on the way, and it comes back to where it began. -/
theorem position_eq (h : g.Circle w k others) {j : SubProblem} (hj : j ∈ k :: others) :
    j.position = k.position := by
  rcases List.mem_cons.1 hj with rfl | hj
  · rfl
  · obtain ⟨hfrom, hrest⟩ := List.pairwise_cons.1 h.pairwise
    have hto : TransGen (g.Asks w) j k := (List.pairwise_append.1 hrest).2.2 j hj k (by simp)
    exact le_antisymm (asks_path_le hto) (asks_path_le (hfrom j (by simp [hj])))

theorem leftCorner (h : g.Circle w k others) :
    ((k :: others ++ [k]).map SubProblem.name).IsChain g.LeftCorner := by
  have hpos : ∀ j ∈ k :: others ++ [k], j.position = k.position := by
    intro j hj
    rcases List.mem_append.1 hj with hj | hj
    · exact h.position_eq hj
    · rw [List.mem_singleton.1 hj]
  refine (List.isChain_map _).2 (h.chain.imp_of_mem_imp fun i j hi hj hask => ?_)
  exact hask.leftCorner (by rw [hpos i hi, hpos j hj])

theorem nodup_names (h : g.Circle w k others) : ((k :: others).map SubProblem.name).Nodup := by
  refine h.distinct.map_on fun i hi j hj hname => SubProblem.ext hname ?_
  rw [h.position_eq hi, h.position_eq hj]

theorem declared (h : g.Circle w k others) {j : SubProblem} (hj : j ∈ k :: others) :
    j.name ∈ ruleNames g.rules := by
  rcases List.mem_cons.1 hj with rfl | hj
  · exact h.reached.declared
  · have hfrom : TransGen (g.Asks w) k j := (List.pairwise_cons.1 h.pairwise).1 j (by simp [hj])
    exact asks_path_declared hfrom.to_reflTransGen h.reached.declared

end Circle

end Grammar

end Acceptor
