import BorrowChecker.Proofs.Numerals
import BorrowChecker.Proofs.Rounding

/-!
The digits that a double is written with. Seventeen digits are always enough: the decimals of that
length lie closer together than the doubles do, so one of the two around a double rounds to it.
-/

namespace BorrowChecker

namespace Double

def quotient (p : Nat × Nat) : ℚ := p.1 / p.2

section Between

variable {low x high : Nat × Nat} {ends : Bool}

theorem quotient_le_iff {p q : Nat × Nat} (first : 0 < p.2) (second : 0 < q.2) :
    quotient p ≤ quotient q ↔ p.1 * q.2 ≤ q.1 * p.2 := by
  unfold quotient
  rw [div_le_div_iff₀ (by exact_mod_cast first) (by exact_mod_cast second)]
  exact_mod_cast Iff.rfl

theorem quotient_lt_iff {p q : Nat × Nat} (first : 0 < p.2) (second : 0 < q.2) :
    quotient p < quotient q ↔ p.1 * q.2 < q.1 * p.2 := by
  unfold quotient
  rw [div_lt_div_iff₀ (by exact_mod_cast first) (by exact_mod_cast second)]
  exact_mod_cast Iff.rfl

theorem between_iff (first : 0 < low.2) (second : 0 < x.2) (third : 0 < high.2) :
    between ends low x high ↔
      if ends then quotient low ≤ quotient x ∧ quotient x ≤ quotient high
      else quotient low < quotient x ∧ quotient x < quotient high := by
  cases ends
  · simp [between, quotient_lt_iff, first, second, third]
  · simp [between, quotient_le_iff, first, second, third]

theorem between_of_lt (first : 0 < low.2) (second : 0 < x.2) (third : 0 < high.2)
    (lower : quotient low < quotient x) (upper : quotient x < quotient high) :
    between ends low x high := by
  rw [between_iff first second third]
  cases ends
  · exact ⟨lower, upper⟩
  · exact ⟨le_of_lt lower, le_of_lt upper⟩

end Between

section Decimals

theorem gridPoint_positive (k : Nat) (e : Int) : 0 < (gridPoint k e).2 := by
  unfold gridPoint
  split
  · exact Nat.one_pos
  · exact Nat.pow_pos (by decide)

theorem power_toNat {e : Int} (positive : 0 ≤ e) : ((10 ^ e.toNat : ℕ) : ℚ) = 10 ^ e := by
  obtain ⟨n, rfl⟩ := Int.eq_ofNat_of_zero_le positive
  simp

theorem quotient_gridPoint (k : Nat) (e : Int) : quotient (gridPoint k e) = k * 10 ^ e := by
  unfold gridPoint quotient
  split
  · rename_i positive
    have power := power_toNat positive
    push_cast at power
    simp [power]
  · rename_i negative
    have power := power_toNat (show 0 ≤ -e by omega)
    push_cast at power
    simp [power]

def inUnits (value : Nat × Nat) (e : Int) : Nat × Nat :=
  if 0 ≤ e then (value.1, value.2 * Nat.pow 10 e.toNat)
  else (value.1 * Nat.pow 10 (-e).toNat, value.2)

theorem inUnits_positive {value : Nat × Nat} (proper : 0 < value.2) (e : Int) :
    0 < (inUnits value e).2 := by
  unfold inUnits
  split
  · exact Nat.mul_pos proper (Nat.pow_pos (by decide))
  · exact proper

theorem quotient_inUnits (value : Nat × Nat) (e : Int) :
    quotient (inUnits value e) = quotient value / 10 ^ e := by
  unfold inUnits quotient
  split
  · rename_i positive
    have power := power_toNat positive
    push_cast at power
    simp [power, div_div]
  · rename_i negative
    have power := power_toNat (show 0 ≤ -e by omega)
    push_cast at power
    simp [power]
    ring

theorem nearestOfLength_eq (value low high : Nat × Nat) (ends : Bool) (point : Int)
    (length : Nat) :
    nearestOfLength value low high ends point length =
      let e := point - length
      let k := (inUnits value e).1 / (inUnits value e).2
      let lower := between ends low (gridPoint k e) high && 0 < k
      let upper := between ends low (gridPoint (k + 1) e) high
      (if lower && upper then some (roundDiv (inUnits value e).1 (inUnits value e).2)
        else if lower then some k else if upper then some (k + 1) else none).map fun c =>
          ⟨dropZeros (Text.ofNat c), point + ((Text.ofNat c).length - length : Int)⟩ := by
  unfold nearestOfLength inUnits
  by_cases positive : 0 ≤ point - length
  · simp only [if_pos positive]
  · simp only [if_neg positive]

/-- What is found is one of the decimals of the interval. -/
theorem nearestOfLength_some {value low high : Nat × Nat} {ends : Bool} {point : Int}
    {length : Nat} {d : Digits}
    (found : nearestOfLength value low high ends point length = some d) :
    ∃ c, 0 < c ∧ between ends low (gridPoint c (point - length)) high ∧
      d = ⟨dropZeros (Text.ofNat c), point + ((Text.ofNat c).length - length : Int)⟩ := by
  rw [nearestOfLength_eq] at found
  simp only [Option.map_eq_some_iff] at found
  obtain ⟨c, chosen, rfl⟩ := found
  refine ⟨c, ?_⟩
  generalize unit : inUnits value (point - length) = u at chosen
  have rounded : roundDiv u.1 u.2 = u.1 / u.2 ∨ roundDiv u.1 u.2 = u.1 / u.2 + 1 := by
    simp only [roundDiv]
    split_ifs <;> simp
  split_ifs at chosen with both lower upper
  · simp only [Bool.and_eq_true, decide_eq_true_eq] at both
    obtain rfl := Option.some.inj chosen
    rcases rounded with same | same
    · rw [same]
      exact ⟨both.1.2, both.1.1, rfl⟩
    · rw [same]
      exact ⟨Nat.succ_pos _, both.2, rfl⟩
  · simp only [Bool.and_eq_true, decide_eq_true_eq] at lower
    obtain rfl := Option.some.inj chosen
    exact ⟨lower.2, lower.1, rfl⟩
  · obtain rfl := Option.some.inj chosen
    exact ⟨Nat.succ_pos _, upper, rfl⟩

theorem nearestOfLength_isSome {value low high : Nat × Nat} {ends : Bool} {point : Int}
    {length k : Nat}
    (floor : (inUnits value (point - length)).1 / (inUnits value (point - length)).2 = k)
    (positive : 0 < k)
    (near : between ends low (gridPoint k (point - length)) high ∨
      between ends low (gridPoint (k + 1) (point - length)) high) :
    (nearestOfLength value low high ends point length).isSome := by
  rw [nearestOfLength_eq]
  simp only [Option.isSome_map, floor]
  rcases near with lower | upper
  · simp only [lower, positive, decide_true, Bool.and_true, Bool.true_and, if_true]
    split <;> rfl
  · simp only [upper, Bool.and_true, if_true]
    split
    · rfl
    · rfl

theorem dropZeros_split (digits : Text) :
    ∃ n, digits = dropZeros digits ++ List.replicate n 48 := by
  refine ⟨(digits.reverse.takeWhile (· == 48)).length, ?_⟩
  have zero : digits.reverse.takeWhile (· == 48) =
      List.replicate (digits.reverse.takeWhile (· == 48)).length 48 := by
    refine List.eq_replicate_of_mem fun b member => ?_
    exact eq_of_beq (List.all_eq_true.mp (List.all_takeWhile ..) b member)
  have whole := List.takeWhile_append_dropWhile (p := (· == (48 : UInt8))) (l := digits.reverse)
  rw [dropZeros, ← List.reverse_replicate, ← zero, ← List.reverse_append, whole,
    List.reverse_reverse]

def Digits.value (d : Digits) : ℚ :=
  Text.digitsValue d.digits * 10 ^ (d.point - d.digits.length)

theorem Digits.value_dropZeros (c : Nat) (e : Int) :
    Digits.value ⟨dropZeros (Text.ofNat c), e + (Text.ofNat c).length⟩ = c * 10 ^ e := by
  obtain ⟨n, split⟩ := dropZeros_split (Text.ofNat c)
  have number := Text.digitsValue_ofNat c
  have size := congrArg List.length split
  rw [split, Text.digitsValue_append, Text.digitsValue_zeros, List.length_replicate] at number
  rw [List.length_append, List.length_replicate] at size
  simp only [Digits.value]
  generalize dropZeros (Text.ofNat c) = d at *
  have power : e + ((Text.ofNat c).length : Int) - (d.length : Int) = n + e := by omega
  rw [power, zpow_add₀ (by norm_num), ← number]
  push_cast
  rw [zpow_natCast]
  ring

theorem dropZeros_isDigits {c : Nat} (positive : 0 < c) : (dropZeros (Text.ofNat c)).IsDigits := by
  obtain ⟨n, split⟩ := dropZeros_split (Text.ofNat c)
  constructor
  · intro empty
    rw [empty, List.nil_append] at split
    have := Text.digitsValue_ofNat c
    rw [split, Text.digitsValue_zeros] at this
    omega
  · intro b member
    apply (Text.isDigits_ofNat c).digits
    rw [split]
    exact List.mem_append_left _ member

theorem toDigits_length {n : Nat} (positive : 0 < n) :
    ∃ l, (Nat.toDigits 10 n).length = l + 1 ∧ 10 ^ l ≤ n ∧ n < 10 ^ (l + 1) := by
  obtain ⟨l, size⟩ := Nat.exists_eq_succ_of_ne_zero
    (Nat.pos_iff_ne_zero.mp (Nat.length_toDigits_pos (b := 10) (n := n)))
  refine ⟨l, size, ?_, ?_⟩
  · by_contra small
    rcases Nat.eq_zero_or_pos l with rfl | longer
    · simp at small
      omega
    · have := (Nat.length_toDigits_le_iff (b := 10) (n := n) (by decide) longer).mpr (by omega)
      omega
  · exact (Nat.length_toDigits_le_iff (by decide) (Nat.succ_pos l)).mp (le_of_eq size)

/-- The decimal point of a quotient tells the power of ten it has reached. -/
theorem decimalPoint_bounds {num den : Nat} (present : 0 < num) (proper : 0 < den) :
    (10 : ℚ) ^ (decimalPoint num den - 1) ≤ num / den ∧
      (num / den : ℚ) < 10 ^ decimalPoint num den := by
  have bottom : (0 : ℚ) < den := by exact_mod_cast proper
  unfold decimalPoint
  split
  · rename_i large
    obtain ⟨l, size, lower, upper⟩ := toDigits_length (Nat.div_pos large proper)
    rw [size]
    constructor
    · have bound : 10 ^ l * den ≤ num := (Nat.le_div_iff_mul_le proper).mp lower
      rw [le_div_iff₀ bottom]
      simp only [Nat.cast_add, Nat.cast_one, add_sub_cancel_right, zpow_natCast]
      exact_mod_cast bound
    · have bound : num < 10 ^ (l + 1) * den := (Nat.div_lt_iff_lt_mul proper).mp upper
      rw [div_lt_iff₀ bottom, zpow_natCast]
      exact_mod_cast bound
  · rename_i small
    obtain ⟨l, size, lower, upper⟩ := toDigits_length (n := (den - 1) / num) (Nat.div_pos (by omega) present)
    rw [size]
    constructor
    · have bound : den ≤ num * 10 ^ (l + 1) := by
        have := (Nat.div_lt_iff_lt_mul present).mp upper
        rw [Nat.mul_comm]
        omega
      have power : (1 - ((l + 1 : ℕ) : ℤ) - 1) = -((l + 1 : ℕ) : ℤ) := by omega
      rw [power, zpow_neg, zpow_natCast, inv_le_iff_one_le_mul₀ (by positivity), div_mul_eq_mul_div,
        one_le_div bottom]
      exact_mod_cast bound
    · have bound : num * 10 ^ l < den := by
        have := (Nat.le_div_iff_mul_le present).mp lower
        rw [Nat.mul_comm]
        omega
      have power : (1 - ((l + 1 : ℕ) : ℤ)) = -(l : ℤ) := by omega
      rw [power, zpow_neg, zpow_natCast, div_lt_iff₀ bottom, inv_mul_eq_div,
        lt_div_iff₀ (by positivity)]
      exact_mod_cast bound

end Decimals

section Interval

variable {x : Double}

def lowEnd (x : Double) : Nat × Nat :=
  if x.significand = 0x10000000000000 ∧ 1 < x.exponentField then
    (x.magnitude.1 * (4 * x.significand - 1), x.magnitude.2 * (4 * x.significand))
  else (x.magnitude.1 * (2 * x.significand - 1), x.magnitude.2 * (2 * x.significand))

def highEnd (x : Double) : Nat × Nat :=
  (x.magnitude.1 * (2 * x.significand + 1), x.magnitude.2 * (2 * x.significand))

def ofLength (x : Double) (length : Nat) : Option Digits :=
  nearestOfLength x.magnitude x.lowEnd x.highEnd (x.significand % 2 == 0)
    (decimalPoint x.magnitude.1 x.magnitude.2) length

theorem shortest_eq (nonzero : x.isZero = false) :
    x.shortest = ((List.range 17).findSome? fun n => x.ofLength (n + 1)).getD ⟨[48], 1⟩ := by
  rw [shortest, if_neg (by simp [nonzero])]
  rfl

theorem lowEnd_positive (present : 0 < x.significand) : 0 < x.lowEnd.2 := by
  have := x.magnitude_positive
  unfold lowEnd
  split <;> exact Nat.mul_pos this (by omega)

theorem highEnd_positive (present : 0 < x.significand) : 0 < x.highEnd.2 :=
  Nat.mul_pos x.magnitude_positive (by omega)

theorem quotient_lowEnd (present : 0 < x.significand) :
    quotient x.lowEnd = x.value * (1 - margin x.significand x.scale / x.significand) := by
  have proper : (0 : ℚ) < x.significand := by exact_mod_cast present
  have bottom : (0 : ℚ) < x.magnitude.2 := by exact_mod_cast x.magnitude_positive
  have subtract : ∀ k : Nat, 0 < k →
      ((k * x.significand - 1 : ℕ) : ℚ) = k * x.significand - 1 := by
    intro k positive
    rw [Nat.cast_sub (Nat.mul_pos positive present)]
    push_cast
    rfl
  have power : (x.significand = 0x10000000000000 ∧ 1 < x.exponentField) ↔
      x.significand = 2 ^ 52 ∧ 0 < x.scale := by
    unfold scale
    omega
  unfold quotient lowEnd margin
  rw [← magnitude_eq]
  by_cases dense : x.significand = 2 ^ 52 ∧ 0 < x.scale
  · rw [if_pos (power.mpr dense), if_pos dense]
    have := subtract 4 (by decide)
    push_cast at this ⊢
    rw [this]
    field_simp
  · rw [if_neg (mt power.mp dense), if_neg dense]
    have := subtract 2 (by decide)
    push_cast at this ⊢
    rw [this]
    field_simp

theorem quotient_highEnd (present : 0 < x.significand) :
    quotient x.highEnd = x.value * (1 + 1 / 2 / x.significand) := by
  have proper : (0 : ℚ) < x.significand := by exact_mod_cast present
  have bottom : (0 : ℚ) < x.magnitude.2 := by exact_mod_cast x.magnitude_positive
  unfold quotient highEnd
  rw [← magnitude_eq]
  push_cast
  field_simp

theorem steps_mul (s : Nat) (v r : ℚ) : steps s (v * r) = steps s v * r := by
  unfold steps
  ring

theorem steps_le {s : Nat} {v w : ℚ} (order : v ≤ w) : steps s v ≤ steps s w := by
  unfold steps
  gcongr

theorem steps_lt {s : Nat} {v w : ℚ} (order : v < w) : steps s v < steps s w := by
  unfold steps
  gcongr

/-- Between the ends every number rounds to the double. -/
theorem reaches_of_between (present : 0 < x.significand) {p : Nat × Nat} (proper : 0 < p.2)
    (inside : between (x.significand % 2 == 0) x.lowEnd p x.highEnd) :
    Reaches x.significand x.scale (quotient p) := by
  have nonzero : (x.significand : ℚ) ≠ 0 := by exact_mod_cast Nat.pos_iff_ne_zero.mp present
  have lowest : steps x.scale (quotient x.lowEnd) =
      x.significand - margin x.significand x.scale := by
    rw [quotient_lowEnd present, steps_mul, steps_value]
    field_simp
  have highest : steps x.scale (quotient x.highEnd) = x.significand + 1 / 2 := by
    rw [quotient_highEnd present, steps_mul, steps_value]
    field_simp
  rw [between_iff (lowEnd_positive present) proper (highEnd_positive present)] at inside
  by_cases even : x.significand % 2 = 0
  · rw [if_pos (by simpa using even)] at inside
    exact ⟨lowest ▸ steps_le inside.1, highest ▸ steps_le inside.2, .inl even⟩
  · rw [if_neg (by simpa using even)] at inside
    have lower := lowest ▸ steps_lt (s := x.scale) inside.1
    have upper := highest ▸ steps_lt (s := x.scale) inside.2
    exact ⟨le_of_lt lower, le_of_lt upper, .inr ⟨lower, upper⟩⟩

/-- What is found for any length reads back. -/
theorem reaches_ofLength (present : 0 < x.significand) {length : Nat} {d : Digits}
    (found : x.ofLength length = some d) :
    d.digits.IsDigits ∧ Reaches x.significand x.scale d.value := by
  obtain ⟨c, positive, inside, rfl⟩ := nearestOfLength_some found
  refine ⟨dropZeros_isDigits positive, ?_⟩
  have reaches := reaches_of_between present (gridPoint_positive _ _) inside
  rw [quotient_gridPoint, ← Digits.value_dropZeros] at reaches
  convert reaches using 3
  ring

/-- The doubles are wider apart than decimals of seventeen digits. -/
theorem margin_wide {m s : Nat} (shape : IsSignificand m s) : (m : ℚ) < 2 * 10 ^ 16 * margin m s := by
  unfold margin
  split
  · rename_i power
    rw [power.1]
    norm_num
  · have small : (m : ℚ) < 2 ^ 53 := by exact_mod_cast shape.small
    linarith

theorem magnitude_visible (present : 0 < x.significand) : 0 < x.magnitude.1 := by
  unfold magnitude
  split
  · exact Nat.mul_pos present (Nat.pow_pos (by decide))
  · exact present

/-- Of the two decimals of seventeen digits around a double, the nearer one is inside. -/
theorem inside_of_near (shape : IsSignificand x.significand x.scale) {e : Int} {u : ℚ} {k : Nat}
    (scaled : x.value = u * 10 ^ e) (large : 10 ^ 16 ≤ u) (low : (k : ℚ) ≤ u) (high : u < k + 1) :
    between (x.significand % 2 == 0) x.lowEnd (gridPoint k e) x.highEnd ∨
      between (x.significand % 2 == 0) x.lowEnd (gridPoint (k + 1) e) x.highEnd := by
  have present := shape.positive
  have proper : (0 : ℚ) < x.significand := by exact_mod_cast present
  have unit : (0 : ℚ) < 10 ^ e := by positivity
  have small : (x.significand : ℚ) < 10 ^ 16 := by
    have := margin_wide shape
    have := margin_le x.significand x.scale
    linarith
  have below : u * (1 - margin x.significand x.scale / x.significand) < u - 1 / 2 := by
    have : 1 / 2 < u * (margin x.significand x.scale / x.significand) := by
      have wide := margin_wide shape
      rw [← mul_div_assoc, lt_div_iff₀ proper]
      nlinarith
    linarith
  have above : u + 1 / 2 < u * (1 + 1 / 2 / x.significand) := by
    have : 1 / 2 < u * (1 / 2 / x.significand) := by
      rw [← mul_div_assoc, lt_div_iff₀ proper]
      linarith
    linarith
  have inside : ∀ c : Nat, u - 1 / 2 ≤ c → (c : ℚ) ≤ u + 1 / 2 →
      between (x.significand % 2 == 0) x.lowEnd (gridPoint c e) x.highEnd := by
    intro c near close
    apply between_of_lt (lowEnd_positive present) (gridPoint_positive c e) (highEnd_positive present)
    · rw [quotient_lowEnd present, quotient_gridPoint, scaled, mul_right_comm]
      exact mul_lt_mul_of_pos_right (by linarith) unit
    · rw [quotient_highEnd present, quotient_gridPoint, scaled, mul_right_comm]
      exact mul_lt_mul_of_pos_right (by linarith) unit
  by_cases nearer : u - k ≤ 1 / 2
  · exact .inl (inside k (by linarith) (by linarith))
  · right
    apply inside
    · push_cast
      linarith
    · push_cast
      linarith

theorem ofLength_seventeen (shape : IsSignificand x.significand x.scale) :
    (x.ofLength 17).isSome := by
  have ⟨reached, _⟩ :=
    decimalPoint_bounds (magnitude_visible shape.positive) x.magnitude_positive
  rw [magnitude_eq] at reached
  unfold ofLength
  generalize decimalPoint x.magnitude.1 x.magnitude.2 = point at *
  have unit : (0 : ℚ) < 10 ^ (point - (17 : ℕ)) := by positivity
  -- The double in units of the last of seventeen digits.
  obtain ⟨u, scaled⟩ : ∃ u, x.value = u * 10 ^ (point - (17 : ℕ)) :=
    ⟨x.value / 10 ^ (point - (17 : ℕ)), by field_simp⟩
  have large : 10 ^ 16 ≤ u := by
    have split : (10 : ℚ) ^ (point - 1) = 10 ^ 16 * 10 ^ (point - (17 : ℕ)) := by
      rw [← zpow_natCast, ← zpow_add₀ (by norm_num)]
      congr 1
      push_cast
      ring
    rw [split, scaled] at reached
    exact le_of_mul_le_mul_right reached unit
  have units : quotient (inUnits x.magnitude (point - (17 : ℕ))) = u := by
    rw [quotient_inUnits, quotient, magnitude_eq, scaled]
    field_simp
  have bottom := inUnits_positive x.magnitude_positive (point - (17 : ℕ))
  generalize inside : inUnits x.magnitude (point - (17 : ℕ)) = q at units bottom
  have divisor : (0 : ℚ) < q.2 := by exact_mod_cast bottom
  have low : ((q.1 / q.2 : ℕ) : ℚ) ≤ u := by
    rw [← units]
    exact Nat.cast_div_le
  have high : u < (q.1 / q.2 : ℕ) + 1 := by
    rw [← units, quotient, div_lt_iff₀ divisor]
    exact_mod_cast Nat.lt_mul_of_div_lt (Nat.lt_succ_self _) bottom
  refine nearestOfLength_isSome (congrArg (fun p => p.1 / p.2) inside) ?_
    (inside_of_near shape scaled large low high)
  have : (0 : ℚ) < (q.1 / q.2 : ℕ) := by linarith
  exact_mod_cast this

/-- The digits that a double is written with are within its reach. -/
theorem reaches_shortest (finite : x.IsFinite) (nonzero : x.isZero = false) :
    x.shortest.digits.IsDigits ∧ Reaches x.significand x.scale x.shortest.value := by
  have shape := isSignificand_of_isFinite finite nonzero
  rw [shortest_eq nonzero]
  cases search : (List.range 17).findSome? fun n => x.ofLength (n + 1) with
  | none =>
      have missing := List.findSome?_eq_none_iff.mp search 16 (by decide)
      have found := ofLength_seventeen shape
      rw [missing] at found
      exact absurd found Bool.false_ne_true
  | some d =>
      obtain ⟨n, _, found⟩ := List.exists_of_findSome?_eq_some search
      exact reaches_ofLength shape.positive found

end Interval

end Double

end BorrowChecker
