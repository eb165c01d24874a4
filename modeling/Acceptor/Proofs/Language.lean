import Acceptor.Grammar.Basic
import Mathlib.Data.List.Nodup
import Mathlib.Logic.Relation

/-!
# The language of a grammar

What a grammar means, independently of how it is searched.

* `Grammar.Derives a u` : the symbols `a` derive exactly the tokens `u`.
* `Grammar.Leftmost a u x` : a leftmost derivation leads from the symbols `a` to the tokens `u`
  followed by the symbols `x`.
* `Grammar.Rewrites x y` : expanding one reference, anywhere in `x`, gives `y`.
* `Grammar.LeftRecursive name` : the reference `name` rewrites, in one expansion or more, to itself
  behind symbols that derive the empty sequence.

`Grammar.leftRecursive_iff` reduces left recursion to a cycle of `Grammar.LeftCorner`, the relation
of a name to the names that its alternatives can begin with.
-/

namespace Acceptor

namespace Grammar

variable (g : Grammar)

/-! ### Derivations -/

/-- `a` is an alternative of the rule of `name`. -/
def Expands (name : String) (a : Alternative) : Prop :=
  ∃ r ∈ g.rules, r.name.val = name ∧ a ∈ r.alternatives

/-- The symbols derive exactly these tokens: a terminal one token that it matches, the empty marker
none, and a reference what one of its alternatives derives. -/
inductive Derives : Alternative → List String → Prop
  | nil : Derives [] []
  | empty {a : Alternative} {u : List String} (h : Derives a u) : Derives (.empty :: a) u
  | terminal {s : Symbol} {t : String} {a : Alternative} {u : List String}
      (hs : s.accepts g.reserved t = true) (h : Derives a u) : Derives (s :: a) (t :: u)
  | nonterminal {name : Label} {b a : Alternative} {u v : List String}
      (hb : g.Expands name.val b) (h : Derives b u) (h' : Derives a v) :
      Derives (.nonterminal name :: a) (u ++ v)

/-- The rule of `name` derives exactly these tokens. -/
def Generates (name : String) (u : List String) : Prop := ∃ b, g.Expands name b ∧ g.Derives b u

/-- A leftmost derivation from the symbols `a`: the terminals in front have matched some tokens, and
symbols are left behind them. -/
inductive Leftmost (a : Alternative) : List String → Alternative → Prop
  | refl : Leftmost a [] a
  | skip {u : List String} {x : Alternative} (h : Leftmost a u (.empty :: x)) : Leftmost a u x
  | shift {u : List String} {s : Symbol} {x : Alternative} {t : String}
      (h : Leftmost a u (s :: x)) (hs : s.accepts g.reserved t = true) : Leftmost a (u ++ [t]) x
  | expand {u : List String} {name : Label} {x b : Alternative}
      (h : Leftmost a u (.nonterminal name :: x)) (hb : g.Expands name.val b) : Leftmost a u (b ++ x)

/-- Expanding one reference. -/
inductive Rewrites : Alternative → Alternative → Prop
  | expand {name : Label} {b : Alternative} (pre post : Alternative)
      (hb : g.Expands name.val b) : Rewrites (pre ++ .nonterminal name :: post) (pre ++ (b ++ post))

/-- The reference rewrites to itself behind symbols that derive the empty sequence. -/
def LeftRecursive (name : Label) : Prop :=
  ∃ α β, Relation.TransGen g.Rewrites [.nonterminal name] (α ++ .nonterminal name :: β) ∧
    g.Derives α []

theorem start_ne_empty : g.start ≠ "" := by
  obtain ⟨r, -, hr⟩ := List.mem_map.1 g.startDeclared
  rw [← hr]
  exact r.name.2

/-- The reference to the start symbol. -/
def startSymbol : Symbol := .nonterminal ⟨g.start, g.start_ne_empty⟩

variable {g}

/-! ### Looking up alternatives -/

theorem rule?_eq_some_iff {name : String} {r : Rule} :
    g.rule? name = some r ↔ r ∈ g.rules ∧ r.name.val = name := by
  constructor
  · intro h
    exact ⟨List.mem_of_find?_eq_some h, by simpa using List.find?_some h⟩
  · rintro ⟨hr, rfl⟩
    obtain ⟨r', hr'⟩ : ∃ r', g.rule? r.name.val = some r' := by
      rw [← Option.isSome_iff_exists, rule?, List.find?_isSome]
      exact ⟨r, hr, by simp⟩
    have hmem : r' ∈ g.rules := List.mem_of_find?_eq_some hr'
    have hname : r'.name.val = r.name.val := by simpa using List.find?_some hr'
    rw [hr', List.inj_on_of_nodup_map g.distinct hmem hr hname]

theorem alternatives?_isSome_iff {name : String} :
    (g.alternatives? name).isSome ↔ name ∈ ruleNames g.rules := by
  rw [alternatives?, Option.isSome_map, Option.isSome_iff_exists, ruleNames, List.mem_map]
  exact exists_congr fun r => rule?_eq_some_iff

theorem expands_iff {name : String} {a : Alternative} :
    g.Expands name a ↔ a ∈ (g.alternatives? name).getD [] := by
  constructor
  · rintro ⟨r, hr, hname, ha⟩
    rw [alternatives?, rule?_eq_some_iff.2 ⟨hr, hname⟩]
    exact ha
  · intro ha
    cases h : g.rule? name with
    | none => simp [alternatives?, h] at ha
    | some r =>
      obtain ⟨hr, hname⟩ := rule?_eq_some_iff.1 h
      exact ⟨r, hr, hname, by simpa [alternatives?, h] using ha⟩

theorem exists_expands {name : String} (h : name ∈ ruleNames g.rules) : ∃ a, g.Expands name a := by
  obtain ⟨r, hr, hname⟩ := List.mem_map.1 h
  obtain ⟨a, ha⟩ := List.exists_mem_of_ne_nil _ r.nonempty
  exact ⟨a, r, hr, hname, ha⟩

theorem Expands.declared {name : String} {a : Alternative} (h : g.Expands name a) {n : Label}
    (hn : .nonterminal n ∈ a) : n.val ∈ ruleNames g.rules := by
  obtain ⟨r, hr, -, ha⟩ := h
  refine g.closed r hr n.val (List.mem_flatMap.2 ⟨a, ha, List.mem_filterMap.2 ⟨_, hn, rfl⟩⟩)

/-! ### Composing derivations -/

theorem Derives.append {a b : Alternative} {u v : List String} (h : g.Derives a u)
    (h' : g.Derives b v) : g.Derives (a ++ b) (u ++ v) := by
  induction h with
  | nil => exact h'
  | empty _ ih => exact .empty ih
  | terminal hs _ ih => exact .terminal hs ih
  | nonterminal hb hd _ _ ih =>
    rw [List.append_assoc]
    exact .nonterminal hb hd ih

theorem Derives.split {a b : Alternative} {x : List String} (h : g.Derives (a ++ b) x) :
    ∃ u v, g.Derives a u ∧ g.Derives b v ∧ x = u ++ v := by
  induction a generalizing x with
  | nil => exact ⟨[], x, .nil, h, rfl⟩
  | cons s a ih =>
    cases h with
    | empty h =>
      obtain ⟨u, v, hu, hv, rfl⟩ := ih h
      exact ⟨u, v, .empty hu, hv, rfl⟩
    | terminal hs h =>
      obtain ⟨u, v, hu, hv, rfl⟩ := ih h
      exact ⟨_ :: u, v, .terminal hs hu, hv, rfl⟩
    | nonterminal hb hd h =>
      obtain ⟨u, v, hu, hv, rfl⟩ := ih h
      exact ⟨_ ++ u, v, .nonterminal hb hd hu, hv, (List.append_assoc _ _ _).symm⟩

theorem derives_append_nil {a b : Alternative} :
    g.Derives (a ++ b) [] ↔ g.Derives a [] ∧ g.Derives b [] := by
  constructor
  · intro h
    obtain ⟨u, v, hu, hv, he⟩ := h.split
    obtain ⟨rfl, rfl⟩ := List.append_eq_nil_iff.1 he.symm
    exact ⟨hu, hv⟩
  · rintro ⟨h, h'⟩
    exact h.append h'

theorem derives_nonterminal_cons {name : Label} {a : Alternative} {x : List String} :
    g.Derives (.nonterminal name :: a) x ↔
      ∃ u v, g.Generates name.val u ∧ g.Derives a v ∧ x = u ++ v := by
  constructor
  · intro h
    cases h with
    | terminal hs h => cases hs
    | nonterminal hb hd h => exact ⟨_, _, ⟨_, hb, hd⟩, h, rfl⟩
  · rintro ⟨u, v, ⟨b, hb, hd⟩, h, rfl⟩
    exact .nonterminal hb hd h

/-! ### Composing leftmost derivations -/

/-- What the symbols left behind derive completes a leftmost derivation. -/
theorem Leftmost.derives {a x : Alternative} {u v : List String} (h : g.Leftmost a u x)
    (hv : g.Derives x v) : g.Derives a (u ++ v) := by
  induction h generalizing v with
  | refl => exact hv
  | skip _ ih => exact ih (.empty hv)
  | shift _ hs ih =>
    rw [List.append_assoc]
    exact ih (.terminal hs hv)
  | expand _ hb ih =>
    -- one part is derived by the new alternative, the other by the symbols behind it
    obtain ⟨v₁, v₂, h₁, h₂, rfl⟩ := hv.split
    exact ih (.nonterminal hb h₁ h₂)

/-- A leftmost derivation goes through any symbols in front that derive something. -/
theorem Leftmost.through {a b x : Alternative} {u v : List String} (h : g.Leftmost a u (b ++ x))
    (hb : g.Derives b v) : g.Leftmost a (u ++ v) x := by
  induction hb generalizing u x with
  | nil => simpa using h
  | empty _ ih => exact ih h.skip
  | @terminal s t b v hs _ ih =>
    have := ih (h.shift hs)
    rwa [List.append_assoc] at this
  | @nonterminal name c b v v' hc _ _ ih ih' =>
    have := ih' (ih (h.expand hc))
    rwa [List.append_assoc] at this

/-- A leftmost derivation goes along any first part of what the symbols in front derive. -/
theorem Leftmost.partway {a b x : Alternative} {t z u v : List String}
    (h : g.Leftmost a t (b ++ x)) (hb : g.Derives b z) (hz : z = u ++ v) :
    ∃ y, g.Leftmost a (t ++ u) y := by
  induction hb generalizing t x u v with
  | nil =>
    obtain ⟨rfl, -⟩ := List.append_eq_nil_iff.1 hz.symm
    exact ⟨_, by simpa using h⟩
  | empty _ ih => exact ih h.skip hz
  | @terminal s token b z hs _ ih =>
    rcases List.cons_eq_append_iff.1 hz with ⟨rfl, -⟩ | ⟨u, rfl, hu⟩
    · exact ⟨_, by simpa using h⟩
    · obtain ⟨y, hy⟩ := ih (h.shift hs) hu
      exact ⟨y, by simpa using hy⟩
  | @nonterminal name c b z z' hc hd _ ih ih' =>
    have hexp : g.Leftmost a t (c ++ (b ++ x)) := h.expand hc
    -- the first part stops within what the reference derives, or goes beyond it
    rcases List.append_eq_append_iff.1 hz with ⟨u, rfl, hu⟩ | ⟨v, hv, -⟩
    · obtain ⟨y, hy⟩ := ih' (hexp.through hd) hu
      exact ⟨y, by simpa using hy⟩
    · exact ih hexp hv

/-! ### Left recursion -/

variable (g) in
/-- An alternative of `A` begins with the name `B`, behind symbols that derive the empty
sequence. -/
def LeftCorner (A B : String) : Prop :=
  ∃ (pre : Alternative) (name : Label) (rest : Alternative), name.val = B ∧
    g.Expands A (pre ++ .nonterminal name :: rest) ∧ g.Derives pre []

theorem marked_append {α β x y : Alternative} {s : Symbol} (h : x ++ y = α ++ s :: β) :
    (∃ c, x = α ++ s :: c ∧ β = c ++ y) ∨ ∃ c, α = x ++ c ∧ y = c ++ s :: β := by
  rcases List.append_eq_append_iff.1 h with ⟨c, hα, hy⟩ | ⟨c, hx, hβ⟩
  · exact .inr ⟨c, hα, hy⟩
  · rcases List.cons_eq_append_iff.1 hβ with ⟨rfl, hy⟩ | ⟨d, rfl, hd⟩
    · exact .inr ⟨[], by simpa using hx.symm, hy⟩
    · exact .inl ⟨d, hx, hd⟩

/-- Where the marked reference of a rewritten form comes from: a reference of the form before leads
to it through left corners. -/
theorem leftCorner_of_rewrites {x y : Alternative} (h : Relation.ReflTransGen g.Rewrites x y)
    {α β : Alternative} {n : Label} (hy : y = α ++ .nonterminal n :: β) (hα : g.Derives α []) :
    ∃ α' m β', x = α' ++ .nonterminal m :: β' ∧ g.Derives α' [] ∧
      Relation.ReflTransGen g.LeftCorner m.val n.val := by
  induction h generalizing α β n with
  | refl => exact ⟨α, n, β, hy, hα, .refl⟩
  | tail _ hstep ih =>
    cases hstep with
    | @expand m b pre post hb =>
      -- the mark stands in front of the expanded alternative, in it, or behind it
      rcases marked_append hy with ⟨c, rfl, rfl⟩ | ⟨c, rfl, hc⟩
      · exact ih (List.append_assoc _ _ _) hα
      · rw [derives_append_nil] at hα
        rcases marked_append hc with ⟨d, rfl, rfl⟩ | ⟨d, rfl, rfl⟩
        · obtain ⟨α', k, β', hx, hα', hk⟩ := ih rfl hα.1
          exact ⟨α', k, β', hx, hα', hk.tail ⟨c, n, d, rfl, hb, hα.2⟩⟩
        · rw [derives_append_nil] at hα
          refine ih (List.append_assoc pre (.nonterminal m :: d) (.nonterminal n :: β)).symm ?_
          exact derives_append_nil.2 ⟨hα.1, .nonterminal hb hα.2.1 hα.2.2⟩

theorem rewrites_of_leftCorner {A : Label} {B : String}
    (h : Relation.TransGen g.LeftCorner A.val B) :
    ∃ α n β, n.val = B ∧
      Relation.TransGen g.Rewrites [.nonterminal A] (α ++ .nonterminal n :: β) ∧
      g.Derives α [] := by
  induction h with
  | single h =>
    obtain ⟨pre, n, rest, rfl, hb, hpre⟩ := h
    refine ⟨pre, n, rest, rfl, .single ?_, hpre⟩
    simpa using Rewrites.expand [] [] hb
  | tail _ h ih =>
    obtain ⟨α, m, β, rfl, hr, hα⟩ := ih
    obtain ⟨pre, n, rest, rfl, hb, hpre⟩ := h
    -- expand the marked reference where it stands
    refine ⟨α ++ pre, n, rest ++ β, rfl, hr.tail ?_, derives_append_nil.2 ⟨hα, hpre⟩⟩
    simpa using Rewrites.expand α β hb

theorem rewrites_singleton {name : Label} {x : Alternative}
    (h : g.Rewrites [.nonterminal name] x) : ∃ b, g.Expands name.val b ∧ b = x := by
  generalize hz : [Symbol.nonterminal name] = z at h
  cases h with
  | @expand m b pre post hb =>
    rcases List.singleton_eq_append_iff.1 hz with ⟨rfl, he⟩ | ⟨-, he⟩
    · obtain ⟨hm, rfl⟩ := List.cons.inj he
      obtain rfl := Symbol.nonterminal.inj hm
      exact ⟨b, hb, by simp⟩
    · cases he

/-- **Left recursion is a cycle of left corners.** -/
theorem leftRecursive_iff {name : Label} :
    g.LeftRecursive name ↔ Relation.TransGen g.LeftCorner name.val name.val := by
  constructor
  · rintro ⟨α, β, h, hα⟩
    -- the first expansion is of the name itself, and gives the first left corner
    obtain ⟨x, hstep, hrest⟩ := Relation.TransGen.head'_iff.1 h
    obtain ⟨α', m, β', rfl, hα', hm⟩ := leftCorner_of_rewrites hrest rfl hα
    obtain ⟨b, hb, hx⟩ := rewrites_singleton hstep
    exact Relation.TransGen.head' ⟨α', m, β', rfl, hx ▸ hb, hα'⟩ hm
  · intro h
    obtain ⟨α, n, β, hn, hr, hα⟩ := rewrites_of_leftCorner h
    obtain rfl := Subtype.ext hn
    exact ⟨α, β, hr, hα⟩

end Grammar

end Acceptor
