import Acceptor.NumberMap

/-!
# Sub-problems and their memo

A sub-problem asks where the derivations of a name end that start at a position.  The memo keeps
the answers, and marks the sub-problems that are being solved, in the order in which they came up.
Entries are found by their position first and then by their name, and `Memo.get?_set` says what an
entry is after a change.
-/

namespace Acceptor

/-- A name, and the position at which its derivations start. -/
@[ext] structure SubProblem where
  /-- The name of the nonterminal. -/
  name : String
  /-- Where its derivations start. -/
  position : Nat
  deriving Repr, DecidableEq

/-- What is known of a sub-problem. -/
inductive Entry where
  /-- It is being solved. -/
  | inProgress
  /-- Its derivations end at these positions, in ascending order. -/
  | solved (ends : List Nat)
  deriving Repr, DecidableEq

/-- The entries of one position, by name. -/
abbrev Shelf := List (String × Entry)

namespace Shelf

/-- The entry of a name. -/
def get? (s : Shelf) (name : String) : Option Entry := List.lookup name s

/-- The shelf with a new entry for a name. -/
def set (name : String) (e : Entry) : Shelf → Shelf
  | [] => [(name, e)]
  | x :: s => if x.1 = name then (name, e) :: s else x :: set name e s

theorem get?_set (s : Shelf) (name other : String) (e : Entry) :
    (s.set name e).get? other = if other = name then some e else s.get? other := by
  induction s with
  | nil =>
    by_cases h : other = name
    · simp [get?, set, h]
    · have hb : (other == name) = false := by simpa using h
      simp [get?, set, List.lookup_cons, h, hb]
  | cons x s ih =>
    obtain ⟨key, d⟩ := x
    unfold get? at ih
    by_cases hk : key = name
    · subst hk
      by_cases h : other = key
      · simp [get?, set, h]
      · have hb : (other == key) = false := by simpa using h
        simp [get?, set, List.lookup_cons, h, hb]
    · by_cases h : other = key
      · subst h
        simp [get?, set, hk]
      · have hb : (other == key) = false := by simpa using h
        simp [get?, set, hk, List.lookup_cons, hb, ih]

end Shelf

/-- The shelves of all positions. -/
abbrev Shelves := NumberMap Shelf

namespace Shelves

/-- The shelf of a position. -/
def shelf (t : Shelves) (position : Nat) : Shelf := (NumberMap.get? t position).getD []

/-- The entry of a sub-problem. -/
def find? (t : Shelves) (k : SubProblem) : Option Entry := (t.shelf k.position).get? k.name

/-- The shelves with a new entry for `k`. -/
def put (t : Shelves) (k : SubProblem) (e : Entry) : Shelves :=
  NumberMap.set t k.position ((t.shelf k.position).set k.name e)

theorem find?_put (t : Shelves) (k j : SubProblem) (e : Entry) :
    (t.put k e).find? j = if j = k then some e else t.find? j := by
  unfold find? put shelf
  rw [NumberMap.get?_set]
  by_cases hp : j.position = k.position
  · rw [if_pos hp, Option.getD_some, Shelf.get?_set, hp]
    by_cases hn : j.name = k.name
    · rw [if_pos hn, if_pos (SubProblem.ext hn hp)]
    · rw [if_neg hn, if_neg fun h => hn (congrArg SubProblem.name h)]
  · rw [if_neg hp, if_neg fun h => hp (congrArg SubProblem.position h)]

end Shelves

/-- What is known of sub-problems, in the order in which they came up. -/
structure Memo where
  /-- The sub-problems that came up, the latest first. -/
  latest : List SubProblem
  /-- Their entries. -/
  shelves : Shelves
  /-- Exactly the sub-problems that came up have entries. -/
  mem_latest : ∀ k, k ∈ latest ↔ (shelves.find? k).isSome
  /-- Each of them came up once. -/
  nodup : latest.Nodup
  deriving DecidableEq

namespace Memo

/-- Nothing is known. -/
def empty : Memo := ⟨[], .empty, fun _ => ⟨nofun, nofun⟩, List.nodup_nil⟩

/-- The entry of a sub-problem. -/
def get? (m : Memo) (k : SubProblem) : Option Entry := m.shelves.find? k

/-- The sub-problems that came up, in order. -/
def keys (m : Memo) : List SubProblem := m.latest.reverse

/-- The sub-problems with their entries, in order. -/
def entries (m : Memo) : List (SubProblem × Entry) :=
  m.keys.filterMap fun k => (m.get? k).map fun e => (k, e)

/-- Change the entry of `k` in its place, or add it at the end. -/
def set (m : Memo) (k : SubProblem) (e : Entry) : Memo where
  latest := if (m.get? k).isSome then m.latest else k :: m.latest
  shelves := m.shelves.put k e
  mem_latest j := by
    rw [Shelves.find?_put]
    by_cases hj : j = k
    · subst hj
      split
      · rename_i h
        simpa using (m.mem_latest j).2 h
      · simp
    · rw [if_neg hj]
      split
      · exact m.mem_latest j
      · simp [hj, m.mem_latest j]
  nodup := by
    split
    · exact m.nodup
    · rename_i h
      exact List.nodup_cons.2 ⟨fun hk => h ((m.mem_latest k).1 hk), m.nodup⟩

theorem get?_set (m : Memo) (k j : SubProblem) (e : Entry) :
    (m.set k e).get? j = if j = k then some e else m.get? j :=
  Shelves.find?_put m.shelves k j e

theorem mem_keys {m : Memo} {k : SubProblem} : k ∈ m.keys ↔ (m.get? k).isSome :=
  List.mem_reverse.trans (m.mem_latest k)

theorem nodup_keys (m : Memo) : m.keys.Nodup :=
  List.pairwise_reverse.2 (m.nodup.imp Ne.symm)

theorem keys_set_of_mem {m : Memo} {k : SubProblem} (e : Entry) (h : k ∈ m.keys) :
    (m.set k e).keys = m.keys := by
  show (if (m.get? k).isSome then m.latest else k :: m.latest).reverse = m.latest.reverse
  rw [if_pos (mem_keys.1 h)]

theorem keys_set_of_not_mem {m : Memo} {k : SubProblem} (e : Entry) (h : k ∉ m.keys) :
    (m.set k e).keys = m.keys ++ [k] := by
  show (if (m.get? k).isSome then m.latest else k :: m.latest).reverse = m.latest.reverse ++ [k]
  rw [if_neg fun hk => h (mem_keys.2 hk), List.reverse_cons]

theorem mem_entries {m : Memo} {k : SubProblem} {e : Entry} :
    (k, e) ∈ m.entries ↔ m.get? k = some e := by
  unfold entries
  rw [List.mem_filterMap]
  constructor
  · rintro ⟨j, -, hj⟩
    obtain ⟨d, hd, he⟩ := Option.map_eq_some_iff.1 hj
    obtain ⟨rfl, rfl⟩ := Prod.mk.inj he
    exact hd
  · intro h
    exact ⟨k, mem_keys.2 (by simp [h]), by simp [h]⟩

end Memo

end Acceptor
