/-!
# Maps from natural numbers

A `NumberMap` is a binary tree in which the place of a number is found by its binary digits, the
lowest first.  Reading and writing take as many turns as the number has digits.  The lemma
`NumberMap.get?_set` says what a map holds after a change; nothing else about the tree matters.
-/

namespace Acceptor

/-- A map from natural numbers. -/
inductive NumberMap (α : Type) where
  /-- Nothing. -/
  | empty
  /-- What zero leads to, and the maps for the halves of even and of odd numbers. -/
  | node (zero : Option α) (even odd : NumberMap α)
  deriving Repr, DecidableEq

namespace NumberMap

variable {α : Type}

/-- What a number leads to. -/
def get? : NumberMap α → Nat → Option α
  | .empty, _ => none
  | .node zero even odd, n =>
    if n = 0 then zero else if n % 2 = 0 then even.get? (n / 2) else odd.get? (n / 2)

/-- What zero leads to. -/
def zero? : NumberMap α → Option α
  | .empty => none
  | .node zero _ _ => zero

/-- The map for the halves of even numbers. -/
def evens : NumberMap α → NumberMap α
  | .empty => .empty
  | .node _ even _ => even

/-- The map for the halves of odd numbers. -/
def odds : NumberMap α → NumberMap α
  | .empty => .empty
  | .node _ _ odd => odd

/-- Let `n` lead to `a`; `depth` is greater than `n`. -/
def setWithin (a : α) : Nat → Nat → NumberMap α → NumberMap α
  | 0, _, m => m
  | depth + 1, n, m =>
    if n = 0 then .node (some a) m.evens m.odds
    else if n % 2 = 0 then .node m.zero? (setWithin a depth (n / 2) m.evens) m.odds
    else .node m.zero? m.evens (setWithin a depth (n / 2) m.odds)

/-- Let `n` lead to `a`. -/
def set (m : NumberMap α) (n : Nat) (a : α) : NumberMap α := setWithin a (n + 1) n m

theorem get?_eq (m : NumberMap α) (n : Nat) :
    m.get? n =
      if n = 0 then m.zero?
      else if n % 2 = 0 then m.evens.get? (n / 2) else m.odds.get? (n / 2) := by
  cases m with
  | empty => simp [get?, zero?, evens, odds]
  | node zero even odd => rfl

theorem get?_setWithin (a : α) {depth n : Nat} (h : n < depth) (m : NumberMap α) (j : Nat) :
    (setWithin a depth n m).get? j = if j = n then some a else m.get? j := by
  induction depth generalizing n m j with
  | zero => exact absurd h (Nat.not_lt_zero n)
  | succ depth ih =>
    rw [get?_eq m j]
    unfold setWithin
    by_cases hn : n = 0
    · rw [if_pos hn, hn, get?]
      by_cases hj : j = 0
      · simp [hj]
      · simp [hj]
    · rw [if_neg hn]
      have hlt : n / 2 < depth := by omega
      by_cases hp : n % 2 = 0
      · rw [if_pos hp, get?, ih hlt]
        by_cases hj : j = 0
        · simp [hj, show ¬ 0 = n by omega]
        · by_cases hq : j % 2 = 0
          · have he : j / 2 = n / 2 ↔ j = n := by omega
            simp [hj, hq, he]
          · simp [hj, hq, show ¬ j = n by omega]
      · rw [if_neg hp, get?, ih hlt]
        by_cases hj : j = 0
        · simp [hj, show ¬ 0 = n by omega]
        · by_cases hq : j % 2 = 0
          · simp [hj, hq, show ¬ j = n by omega]
          · have he : j / 2 = n / 2 ↔ j = n := by omega
            simp [hj, hq, he]

/-- After a change, `n` leads to the new value and every other number leads where it did. -/
theorem get?_set (m : NumberMap α) (n j : Nat) (a : α) :
    (m.set n a).get? j = if j = n then some a else m.get? j :=
  get?_setWithin a (Nat.lt_succ_self n) m j

end NumberMap

end Acceptor
