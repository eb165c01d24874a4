/-!
# Rounding a quotient

`roundQuotient num den` is the whole number nearest to `num / den`; of two equally near ones it is
the even one.  Every conversion between decimal and binary numbers of this library rounds by it.
-/

namespace Acceptor

namespace Decimal

/-- The power `2 ^ n`. -/
def twos (n : Nat) : Nat := Nat.pow 2 n

/-- The power `10 ^ n`. -/
def tens (n : Nat) : Nat := Nat.pow 10 n

/-- The whole number nearest to `num / den`, the even one of two. -/
def roundQuotient (num den : Nat) : Nat :=
  let below := num / den
  let rest := num % den
  if 2 * rest < den then below
  else if den < 2 * rest then below + 1
  else below + below % 2

/-- The rounded quotient is at most half a unit away from the quotient. -/
theorem roundQuotient_near (num : Nat) {den : Nat} (h : 0 < den) :
    2 * (roundQuotient num den * den) ≤ 2 * num + den ∧
      2 * num ≤ 2 * (roundQuotient num den * den) + den := by
  have hdiv := Nat.div_add_mod num den
  have hlt := Nat.mod_lt num h
  have hsucc : (num / den + 1) * den = den * (num / den) + den := by
    rw [Nat.add_mul, Nat.one_mul, Nat.mul_comm]
  have hself : num / den * den = den * (num / den) := Nat.mul_comm _ _
  unfold roundQuotient
  dsimp only
  split
  · omega
  · split
    · omega
    · rcases Nat.mod_two_eq_zero_or_one (num / den) with hp | hp <;> rw [hp]
      · rw [Nat.add_zero]; omega
      · omega

/-- A tie goes to the even neighbour. -/
theorem roundQuotient_tie {num den : Nat} (h : 2 * (num % den) = den) :
    roundQuotient num den % 2 = 0 := by
  unfold roundQuotient
  dsimp only
  split
  · omega
  · split
    · omega
    · omega

end Decimal

end Acceptor
