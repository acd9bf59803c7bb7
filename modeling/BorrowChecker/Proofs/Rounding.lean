import Mathlib.Tactic
import Mathlib.Data.Rat.Defs
import BorrowChecker.Number.Double

/-!
Rounding a quotient to a double. A double is an integer of at most fifty-three bits times a power of
two; every quotient that lies at most half a step from it, or less than half a step when the integer
is odd, rounds to it.
-/

namespace BorrowChecker

namespace Double

theorem roundDiv_eq {num den m : Nat} (positive : 0 < den)
    (lower : 2 * m * den ≤ 2 * num + den) (upper : 2 * num ≤ 2 * m * den + den)
    (ends : m % 2 = 0 ∨ 2 * m * den < 2 * num + den ∧ 2 * num < 2 * m * den + den) :
    roundDiv num den = m := by
  have split : den * (num / den) + num % den = num := Nat.div_add_mod num den
  have small : num % den < den := Nat.mod_lt num positive
  have double : 2 * m * den = 2 * (den * m) := by ring
  have near : m = num / den ∨ m = num / den + 1 := by
    have above : m ≤ num / den + 1 := by
      by_contra far
      have : den * (num / den + 2) ≤ den * m := Nat.mul_le_mul_left den (by omega)
      have : den * (num / den + 2) = den * (num / den) + 2 * den := by ring
      omega
    have below : num / den ≤ m := by
      by_contra far
      have : den * (m + 1) ≤ den * (num / den) := Nat.mul_le_mul_left den (by omega)
      have : den * (m + 1) = den * m + den := by ring
      omega
    omega
  simp only [roundDiv]
  rcases near with same | same
  · have : den * m = den * (num / den) := by rw [same]
    split
    · exact same.symm
    · rw [if_neg (by omega), if_pos (by omega)]
      exact same.symm
  · have : den * m = den * (num / den) + den := by rw [same]; ring
    rw [if_neg (by omega)]
    split
    · exact same.symm
    · rw [if_neg (by omega)]
      exact same.symm

/-- The smallest double is two to the minus this. -/
def bias : Nat := 1074

section Logarithm

variable {num den l : Nat}

theorem log2_lt_of_le (positive : 0 < num) {k j : Nat} (bound : num * 2 ^ k ≤ den * 2 ^ j) :
    num.log2 + k < den.log2 + 1 + j := by
  have low := Nat.log2_self_le (Nat.pos_iff_ne_zero.mp positive)
  have high := @Nat.lt_log2_self den
  have powers : 2 ^ (num.log2 + k) < 2 ^ (den.log2 + 1 + j) := by
    rw [pow_add, pow_add _ (den.log2 + 1)]
    calc 2 ^ num.log2 * 2 ^ k ≤ num * 2 ^ k := Nat.mul_le_mul_right _ low
      _ ≤ den * 2 ^ j := bound
      _ < 2 ^ (den.log2 + 1) * 2 ^ j := Nat.mul_lt_mul_of_pos_right high (by positivity)
  exact (Nat.pow_lt_pow_iff_right (by decide)).mp powers

theorem logQuotient_def (num den : Nat) :
    logQuotient num den =
      if den * 2 ^ (bias + num.log2 - den.log2) ≤ num * 2 ^ bias then bias + num.log2 - den.log2
      else bias + num.log2 - den.log2 - 1 := rfl

theorem logQuotient_eq (positive : 0 < num) (proper : 0 < den)
    (lower : den * 2 ^ l ≤ num * 2 ^ bias) (upper : num * 2 ^ bias < den * 2 ^ (l + 1)) :
    logQuotient num den = l := by
  have first := log2_lt_of_le proper lower
  have second := log2_lt_of_le positive (Nat.le_of_lt upper)
  rw [logQuotient_def]
  by_cases same : bias + num.log2 - den.log2 = l
  · rw [same, if_pos lower]
  · have above : bias + num.log2 - den.log2 = l + 1 := by omega
    rw [above, if_neg (by omega), Nat.add_sub_cancel]

theorem logQuotient_le (positive : 0 < num) (upper : num * 2 ^ bias < den * 2 ^ (l + 1)) :
    logQuotient num den ≤ l := by
  have second := log2_lt_of_le positive (Nat.le_of_lt upper)
  rw [logQuotient_def]
  by_cases within : bias + num.log2 - den.log2 ≤ l
  · split <;> omega
  · have above : bias + num.log2 - den.log2 = l + 1 := by omega
    rw [above, if_neg (by omega), Nat.add_sub_cancel]

end Logarithm

/-- A significand and the power of two it is taken times, as a finite double that is not zero has
them. -/
structure IsSignificand (m s : Nat) : Prop where
  positive : 0 < m
  small : m < 2 ^ 53
  normal : s = 0 ∨ 2 ^ 52 ≤ m
  finite : s ≤ 2045

/-- How far below a significand its reach goes. Below a power of two the doubles are twice as
dense. -/
def margin (m s : Nat) : ℚ := if m = 2 ^ 52 ∧ 0 < s then 1 / 4 else 1 / 2

def steps (s : Nat) (v : ℚ) : ℚ := v * 2 ^ bias / 2 ^ s

/-- A number that rounds to a significand times a power of two. -/
structure Reaches (m s : Nat) (v : ℚ) : Prop where
  lower : m - margin m s ≤ steps s v
  upper : steps s v ≤ m + 1 / 2
  ends : m % 2 = 0 ∨ m - margin m s < steps s v ∧ steps s v < m + 1 / 2

theorem steps_quotient (s num den : Nat) :
    steps s (num / den) = ((num * 2 ^ bias : ℕ) : ℚ) / ((den * 2 ^ s : ℕ) : ℚ) := by
  rw [steps]
  push_cast
  rw [div_mul_eq_mul_div, div_div]

theorem margin_le (m s : Nat) : margin m s ≤ 1 / 2 := by
  unfold margin
  split <;> norm_num

section Quotient

variable {m s num den : Nat}

theorem Reaches.upper_nat (reaches : Reaches m s (num / den)) (proper : 0 < den) :
    2 * (num * 2 ^ bias) ≤ 2 * m * (den * 2 ^ s) + den * 2 ^ s := by
  have positive : (0 : ℚ) < ((den * 2 ^ s : ℕ) : ℚ) := by positivity
  have bound := reaches.upper
  rw [steps_quotient, div_le_iff₀ positive] at bound
  have doubled : (2 * (num * 2 ^ bias : ℕ) : ℚ) ≤
      2 * m * (den * 2 ^ s : ℕ) + (den * 2 ^ s : ℕ) := by linarith
  exact_mod_cast doubled

theorem Reaches.lower_nat (reaches : Reaches m s (num / den)) (proper : 0 < den) :
    2 * m * (den * 2 ^ s) ≤ 2 * (num * 2 ^ bias) + den * 2 ^ s := by
  have positive : (0 : ℚ) < ((den * 2 ^ s : ℕ) : ℚ) := by positivity
  have bound : (m : ℚ) - 1 / 2 ≤ steps s (num / den) :=
    le_trans (sub_le_sub_left (margin_le m s) _) reaches.lower
  rw [steps_quotient, le_div_iff₀ positive] at bound
  have doubled : (2 * m * (den * 2 ^ s : ℕ) : ℚ) ≤
      2 * (num * 2 ^ bias : ℕ) + (den * 2 ^ s : ℕ) := by linarith
  exact_mod_cast doubled

/-- Below a power of two only a quarter of a step. -/
theorem Reaches.lower_power (reaches : Reaches (2 ^ 52) s (num / den)) (proper : 0 < den)
    (scaled : 0 < s) :
    4 * 2 ^ 52 * (den * 2 ^ s) ≤ 4 * (num * 2 ^ bias) + den * 2 ^ s := by
  have positive : (0 : ℚ) < ((den * 2 ^ s : ℕ) : ℚ) := by positivity
  have bound := reaches.lower
  rw [margin, if_pos ⟨rfl, scaled⟩, steps_quotient, le_div_iff₀ positive] at bound
  push_cast at bound
  have doubled : (4 * 2 ^ 52 * (den * 2 ^ s : ℕ) : ℚ) ≤
      4 * (num * 2 ^ bias : ℕ) + (den * 2 ^ s : ℕ) := by
    push_cast
    linarith
  exact_mod_cast doubled

theorem Reaches.ends_nat (reaches : Reaches m s (num / den)) (proper : 0 < den) :
    m % 2 = 0 ∨ 2 * m * (den * 2 ^ s) < 2 * (num * 2 ^ bias) + den * 2 ^ s ∧
      2 * (num * 2 ^ bias) < 2 * m * (den * 2 ^ s) + den * 2 ^ s := by
  have positive : (0 : ℚ) < ((den * 2 ^ s : ℕ) : ℚ) := by positivity
  rcases reaches.ends with even | ⟨low, high⟩
  · exact .inl even
  · right
    have lower : (m : ℚ) - 1 / 2 < steps s (num / den) :=
      lt_of_le_of_lt (sub_le_sub_left (margin_le m s) _) low
    rw [steps_quotient, lt_div_iff₀ positive] at lower
    rw [steps_quotient, div_lt_iff₀ positive] at high
    have first : (2 * m * (den * 2 ^ s : ℕ) : ℚ) <
        2 * (num * 2 ^ bias : ℕ) + (den * 2 ^ s : ℕ) := by linarith
    have second : (2 * (num * 2 ^ bias : ℕ) : ℚ) <
        2 * m * (den * 2 ^ s : ℕ) + (den * 2 ^ s : ℕ) := by linarith
    exact ⟨by exact_mod_cast first, by exact_mod_cast second⟩

theorem mul_pow_add (den s k : Nat) : den * 2 ^ (s + k) = 2 ^ k * (den * 2 ^ s) := by
  rw [pow_add]
  ring

/-- A quotient within reach lies in no higher binade. -/
theorem Reaches.below (reaches : Reaches m s (num / den)) (shape : IsSignificand m s)
    (proper : 0 < den) : num * 2 ^ bias < den * 2 ^ (s + 53) := by
  have upper := reaches.upper_nat proper
  have step : 0 < den * 2 ^ s := by positivity
  have regroup : 2 * m * (den * 2 ^ s) + 2 * (den * 2 ^ s) = 2 * ((m + 1) * (den * 2 ^ s)) := by ring
  have top : (m + 1) * (den * 2 ^ s) ≤ 2 ^ 53 * (den * 2 ^ s) := Nat.mul_le_mul_right _ shape.small
  rw [mul_pow_add]
  omega

/-- A quotient within reach is at least half a step. -/
theorem Reaches.above (reaches : Reaches m s (num / den)) (shape : IsSignificand m s)
    (proper : 0 < den) : den * 2 ^ s ≤ num * 2 ^ (bias + 1) := by
  have lower := reaches.lower_nat proper
  have significant : den * 2 ^ s ≤ m * (den * 2 ^ s) := Nat.le_mul_of_pos_left _ shape.positive
  have regroup : 2 * m * (den * 2 ^ s) = 2 * (m * (den * 2 ^ s)) := by ring
  rw [mul_pow_add, pow_one]
  omega

theorem Reaches.present (reaches : Reaches m s (num / den)) (shape : IsSignificand m s)
    (proper : 0 < den) : 0 < num := by
  have step : 0 < den * 2 ^ s := by positivity
  exact Nat.pos_of_mul_pos_right (step.trans_le (reaches.above shape proper))

/-- No quotient within reach of a double is so large or so small that it is not divided at all. -/
theorem Reaches.nearestBits_of_log {shift : Nat} (reaches : Reaches m s (num / den))
    (shape : IsSignificand m s) (proper : 0 < den) (log : logQuotient num den - 52 = shift) :
    nearestBits num den = roundDiv (num * 2 ^ bias) (den * 2 ^ shift) + shift * 2 ^ 52 := by
  have present := reaches.present shape proper
  have notLarge : ¬ den.log2 + 1100 < num.log2 := by
    have bound := log2_lt_of_le present (Nat.le_of_lt (reaches.below shape proper))
    have finite := shape.finite
    unfold bias at bound
    omega
  have notSmall : ¬ num.log2 + 1100 < den.log2 := by
    have bound := log2_lt_of_le proper (reaches.above shape proper)
    unfold bias at bound
    omega
  rw [nearestBits, if_neg (Nat.ne_of_gt present), if_neg notLarge, if_neg notSmall, ← log]
  rfl

theorem Reaches.nearestBits_of_scale (reaches : Reaches m s (num / den)) (shape : IsSignificand m s)
    (proper : 0 < den) (log : logQuotient num den - 52 = s) :
    nearestBits num den = m + s * 2 ^ 52 := by
  have step : 0 < den * 2 ^ s := by positivity
  rw [reaches.nearestBits_of_log shape proper log, roundDiv_eq step (reaches.lower_nat proper)
    (reaches.upper_nat proper) (reaches.ends_nat proper)]

/-- Only the reach of a power of two goes down into the binade below. -/
theorem Reaches.eq_power (reaches : Reaches m s (num / den)) (shape : IsSignificand m s)
    (proper : 0 < den) (scaled : s ≠ 0) (low : num * 2 ^ bias < 2 ^ 52 * (den * 2 ^ s)) :
    m = 2 ^ 52 := by
  have lower := reaches.lower_nat proper
  have large : 2 ^ 52 ≤ m := shape.normal.resolve_left scaled
  have regroup : 2 * m * (den * 2 ^ s) = 2 * (m * (den * 2 ^ s)) := by ring
  by_contra other
  have more : (2 ^ 52 + 1) * (den * 2 ^ s) ≤ m * (den * 2 ^ s) := Nat.mul_le_mul_right _ (by omega)
  have spread : (2 ^ 52 + 1) * (den * 2 ^ s) = 2 ^ 52 * (den * 2 ^ s) + den * 2 ^ s := by ring
  omega

/-- In the binade below, where the steps are half as wide, the power of two is the end. -/
theorem Reaches.nearestBits_power {k : Nat} (reaches : Reaches (2 ^ 52) (k + 1) (num / den))
    (shape : IsSignificand (2 ^ 52) (k + 1)) (proper : 0 < den)
    (low : num * 2 ^ bias < 2 ^ 52 * (den * 2 ^ (k + 1))) :
    nearestBits num den = 2 ^ 52 + (k + 1) * 2 ^ 52 := by
  have quarter := reaches.lower_power proper (Nat.succ_pos k)
  have half := mul_pow_add den k 1
  rw [half] at quarter low
  have log : logQuotient num den = k + 52 := by
    refine logQuotient_eq (reaches.present shape proper) proper ?_ ?_
    · rw [mul_pow_add]
      omega
    · rw [Nat.add_assoc, mul_pow_add]
      omega
  have rounded : roundDiv (num * 2 ^ bias) (den * 2 ^ k) = 2 ^ 53 := by
    refine roundDiv_eq (by positivity) ?_ ?_ (.inl (by decide))
    · omega
    · omega
  rw [reaches.nearestBits_of_log shape proper (show logQuotient num den - 52 = k by omega), rounded]
  ring

/-- Every quotient within reach of a double rounds to it. -/
theorem nearestBits_eq (shape : IsSignificand m s) (proper : 0 < den)
    (reaches : Reaches m s (num / den)) : nearestBits num den = m + s * 2 ^ 52 := by
  have present := reaches.present shape proper
  by_cases full : 2 ^ 52 * (den * 2 ^ s) ≤ num * 2 ^ bias
  · -- The quotient lies in the binade of the double.
    have log : logQuotient num den = s + 52 := by
      refine logQuotient_eq present proper ?_ (reaches.below shape proper)
      rw [mul_pow_add]
      exact full
    exact reaches.nearestBits_of_scale shape proper (by omega)
  · by_cases least : s = 0
    · -- Below the binades the steps do not get smaller.
      subst least
      have log : logQuotient num den ≤ 51 := by
        refine logQuotient_le present ?_
        rw [← Nat.zero_add (51 + 1), mul_pow_add]
        exact Nat.lt_of_not_le full
      exact reaches.nearestBits_of_scale shape proper (by omega)
    · -- The double is a power of two and the quotient lies in the binade below.
      have low := Nat.lt_of_not_le full
      obtain rfl := reaches.eq_power shape proper least low
      obtain ⟨k, rfl⟩ := Nat.exists_eq_succ_of_ne_zero least
      exact reaches.nearestBits_power shape proper low

end Quotient

def IsFinite (x : Double) : Prop := x.exponentField ≠ 2047

instance (x : Double) : Decidable x.IsFinite := inferInstanceAs (Decidable (_ ≠ _))

section Finite

variable {x : Double}

theorem exponentField_lt (x : Double) : x.exponentField < 2048 := Nat.mod_lt _ (by decide)

theorem fraction_lt (x : Double) : x.fraction < 2 ^ 52 := Nat.mod_lt _ (by decide)

theorem isSignificand_of_isFinite (finite : x.IsFinite) (nonzero : x.isZero = false) :
    IsSignificand x.significand x.scale := by
  have field := x.exponentField_lt
  have part := x.fraction_lt
  simp only [isZero, Bool.and_eq_false_iff, beq_eq_false_iff_ne] at nonzero
  unfold IsFinite at finite
  constructor
  · unfold significand
    split <;> omega
  · unfold significand
    split <;> omega
  · unfold significand scale
    split <;> omega
  · unfold scale
    omega

theorem bits_eq (x : Double) :
    x.bits.toNat = x.significand + x.scale * 2 ^ 52 + if x.isNegative then 2 ^ 63 else 0 := by
  have size : x.bits.toNat < 2 ^ 64 := x.bits.toNat_lt
  have unsigned : x.significand + x.scale * 2 ^ 52 = x.bits.toNat % 2 ^ 63 := by
    unfold significand scale exponentField fraction
    split <;> omega
  rw [unsigned]
  by_cases negative : 2 ^ 63 ≤ x.bits.toNat
  · have sign : x.isNegative := decide_eq_true negative
    rw [if_pos sign]
    omega
  · have sign : ¬ x.isNegative := fun sign => negative (of_decide_eq_true sign)
    rw [if_neg sign]
    omega

theorem withSign_bits (x : Double) :
    withSign x.isNegative (x.significand + x.scale * 2 ^ 52) = x := by
  have whole := x.bits_eq
  have constants : (if x.isNegative then 2 ^ 63 else 0) =
      if x.isNegative then 0x8000000000000000 else 0 := rfl
  rw [withSign, ← constants, ← whole]
  simp

def value (x : Double) : ℚ := x.significand * 2 ^ x.scale / 2 ^ bias

theorem magnitude_positive (x : Double) : 0 < x.magnitude.2 := by
  unfold magnitude
  split
  · exact Nat.one_pos
  · exact Nat.pow_pos (by decide)

theorem magnitude_eq (x : Double) : (x.magnitude.1 / x.magnitude.2 : ℚ) = x.value := by
  have powers : ∀ k n : Nat, k ≤ n → (2 : ℚ) ^ n = 2 ^ (n - k) * 2 ^ k := by
    intro k n order
    rw [← pow_add, Nat.sub_add_cancel order]
  unfold magnitude value
  split
  · rename_i large
    rw [powers bias x.scale large]
    simp only [Nat.pow_eq]
    push_cast
    field_simp
    rfl
  · rename_i small
    rw [powers x.scale bias (by unfold bias; omega)]
    simp only [Nat.pow_eq]
    push_cast
    field_simp
    rfl

theorem steps_value (x : Double) : steps x.scale x.value = x.significand := by
  rw [steps, value]
  field_simp

end Finite

end Double

end BorrowChecker
