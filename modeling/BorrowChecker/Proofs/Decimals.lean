import BorrowChecker.Proofs.Shortest
import BorrowChecker.Mir.Operand

/-!
A finite double is written as a decimal number with a point or an exponent, and reading that number
gives the double back, the sign of a zero included.
-/

namespace BorrowChecker

namespace Double

open Source Text

def Decimal.value (d : Decimal) : ℚ := d.coefficient * 10 ^ d.exponent

section Reading

variable {sign whole fraction exponent : Text}

def decimalOf (whole fraction exponent : Text) : Decimal :=
  ⟨digitsValue (whole ++ fraction.drop 1),
    (toInt? (exponent.drop 1)).getD 0 - (fraction.drop 1).length⟩

theorem isDigitByte_ne {b c : UInt8} (digit : isDigitByte b) (other : isDigitByte c = false) :
    (b != c) = true := by
  rw [bne_iff_ne]
  rintro rfl
  rw [digit] at other
  exact Bool.false_ne_true other.symm

theorem toInt?_exponent (shape : IsExponent exponent) :
    (if exponent.isEmpty then some 0 else toInt? (exponent.drop 1)) =
      some ((toInt? (exponent.drop 1)).getD 0) := by
  cases shape with
  | none => rfl
  | @digits sign size signed digits =>
      have read : toInt? (sign :: size) = some (if sign = 45 then -(digitsValue size : Int)
          else digitsValue size) := by
        rcases signed with rfl | rfl
        · simp [toInt?, cutSign, toNat?_of_isDigits digits]
        · simp [toInt?, cutSign, toNat?_of_isDigits digits]
      simp [read]

theorem fraction_digits (shape : IsFraction fraction) : ∀ b ∈ fraction.drop 1, isDigitByte b := by
  cases shape with
  | none => simp
  | digits digits => exact digits.digits

theorem takeWhile_mantissa (digits : whole.IsDigits) (decimals : IsFraction fraction)
    (size : IsExponent exponent) :
    (whole ++ (fraction ++ exponent)).takeWhile (fun b => b != 101 && b != 69) =
      whole ++ fraction := by
  have plain : ∀ b, isDigitByte b → (b != 101 && b != 69) = true := by
    intro b digit
    rw [isDigitByte_ne digit (by decide), isDigitByte_ne digit (by decide)]
    rfl
  rw [List.takeWhile_append_of_pos fun b member => plain b (digits.digits b member),
    List.takeWhile_append_of_pos]
  · cases size with
    | none => simp
    | digits => simp
  · cases decimals with
    | none => simp
    | digits part =>
        intro b member
        rcases List.mem_cons.mp member with rfl | later
        · decide
        · exact plain b (part.digits b later)

theorem takeWhile_whole (digits : whole.IsDigits) (decimals : IsFraction fraction) :
    (whole ++ fraction).takeWhile (· != 46) = whole := by
  rw [List.takeWhile_append_of_pos fun b member =>
    isDigitByte_ne (digits.digits b member) (by decide)]
  cases decimals with
  | none => simp
  | digits => simp

theorem cutSign_numeral (number : IsNumeral sign whole fraction exponent) :
    cutSign (sign ++ (whole ++ (fraction ++ exponent))) =
      (!sign.isEmpty, whole ++ (fraction ++ exponent)) := by
  rcases number.sign with rfl | rfl
  · obtain ⟨b, rest, rfl, digit⟩ := IsNumeral.first_digit number.whole
    have minus : b ≠ 45 := by simpa using isDigitByte_ne (c := 45) digit (by decide)
    have plus : b ≠ 43 := by simpa using isDigitByte_ne (c := 43) digit (by decide)
    simp [cutSign, minus, plus]
  · rfl

theorem decimal?_numeral (number : IsNumeral sign whole fraction exponent) :
    decimal? (sign ++ (whole ++ (fraction ++ exponent))) =
      some (!sign.isEmpty, decimalOf whole fraction exponent) := by
  have digits : IsDigits (whole ++ fraction.drop 1) :=
    number.whole.append (fraction_digits number.fraction)
  have mantissa := takeWhile_mantissa number.whole number.fraction number.exponent
  have tail : (whole ++ (fraction ++ exponent)).drop (whole ++ fraction).length = exponent := by
    rw [← List.append_assoc]
    exact List.drop_left
  have part : (whole ++ fraction).drop whole.length = fraction := List.drop_left
  simp only [decimal?, cutSign_numeral number, mantissa, tail,
    takeWhile_whole number.whole number.fraction, part, toInt?_exponent number.exponent,
    toNat?_of_isDigits digits]
  rfl

end Reading

section Rounded

variable {m s : Nat} {d : Decimal}

theorem power_bound {k : Nat} (small : k ≤ 1200) : (2 : ℚ) ^ k ≤ 10 ^ 400 := by
  calc (2 : ℚ) ^ k ≤ 2 ^ (3 * 400) := pow_le_pow_right₀ (by norm_num) small
    _ = (2 ^ 3) ^ 400 := pow_mul 2 3 400
    _ ≤ 10 ^ 400 := pow_le_pow_left₀ (by norm_num) (by norm_num) 400

theorem Reaches.value_lt {v : ℚ} (shape : IsSignificand m s) (reaches : Reaches m s v) :
    v < 10 ^ 400 := by
  have small : (m : ℚ) + 1 ≤ 2 ^ 53 := by exact_mod_cast shape.small
  have upper := reaches.upper
  rw [steps, div_le_iff₀ (by positivity)] at upper
  have power : (2 : ℚ) ^ s ≤ 2 ^ 2045 := pow_le_pow_right₀ (by norm_num) shape.finite
  have scaled : v * 2 ^ bias < 2 ^ 1024 * 2 ^ bias := by
    calc v * 2 ^ bias ≤ (m + 1 / 2) * 2 ^ s := upper
      _ < 2 ^ 53 * 2 ^ s := mul_lt_mul_of_pos_right (by linarith) (by positivity)
      _ ≤ 2 ^ 53 * 2 ^ 2045 := mul_le_mul_of_nonneg_left power (by positivity)
      _ = 2 ^ 1024 * 2 ^ bias := by
        rw [← pow_add, ← pow_add]
        congr 1
  exact lt_of_lt_of_le (lt_of_mul_lt_mul_right scaled (by positivity)) (power_bound (by decide))

theorem Reaches.lt_value {v : ℚ} (shape : IsSignificand m s) (reaches : Reaches m s v) :
    1 / 10 ^ 400 < v := by
  have present : (1 : ℚ) ≤ m := by exact_mod_cast shape.positive
  have lower := le_trans (sub_le_sub_left (margin_le m s) _) reaches.lower
  rw [steps, le_div_iff₀ (by positivity)] at lower
  have power : (1 : ℚ) ≤ 2 ^ s := one_le_pow₀ (by norm_num)
  have scaled : 1 / 2 ≤ v * 2 ^ bias := by nlinarith
  have tiny : (2 : ℚ) ^ (bias + 2) ≤ 10 ^ 400 := power_bound (by decide)
  rw [div_lt_iff₀ (by positivity)]
  have positive : 0 < v := by
    have : (0 : ℚ) < 2 ^ bias := by positivity
    exact pos_of_mul_pos_left (lt_of_lt_of_le (by norm_num) scaled) (le_of_lt this)
  calc (1 : ℚ) < 1 / 2 * 4 := by norm_num
    _ ≤ v * 2 ^ bias * 4 := by linarith
    _ = v * 2 ^ (bias + 2) := by rw [pow_add]; ring
    _ ≤ v * 10 ^ 400 := mul_le_mul_of_nonneg_left tiny (le_of_lt positive)

theorem ofQuotient?_eq (negative : Bool) {num den : Nat} (shape : IsSignificand m s)
    (proper : 0 < den) (reaches : Reaches m s (num / den)) :
    ofQuotient? negative num den = some (withSign negative (m + s * 2 ^ 52)) := by
  rw [ofQuotient?, nearestBits_eq shape proper reaches]
  refine if_pos ?_
  have small := shape.small
  have finite := shape.finite
  unfold infinityBits
  omega

/-- The digits of a decimal tell the powers of ten that it lies between. -/
theorem Decimal.value_bounds {l : Nat} (least : 10 ^ l ≤ d.coefficient)
    (most : d.coefficient < 10 ^ (l + 1)) :
    10 ^ ((l : ℤ) + d.exponent) ≤ d.value ∧ d.value ≤ 10 ^ (((l + 1 : ℕ) : ℤ) + d.exponent) := by
  have unit : (0 : ℚ) ≤ 10 ^ d.exponent := by positivity
  rw [zpow_add₀ (by norm_num), zpow_add₀ (by norm_num), zpow_natCast, zpow_natCast]
  exact ⟨mul_le_mul_of_nonneg_right (by exact_mod_cast least) unit,
    mul_le_mul_of_nonneg_right (by exact_mod_cast le_of_lt most) unit⟩

/-- A decimal within reach of a double is read as it. -/
theorem ofDecimal?_eq (negative : Bool) (shape : IsSignificand m s)
    (reaches : Reaches m s d.value) :
    ofDecimal? negative d = some (withSign negative (m + s * 2 ^ 52)) := by
  have below := reaches.value_lt shape
  have above := reaches.lt_value shape
  have nonzero : d.coefficient ≠ 0 := by
    intro zero
    rw [Decimal.value, zero, Nat.cast_zero, zero_mul] at above
    exact absurd above (not_lt.mpr (by positivity))
  obtain ⟨l, size, least, most⟩ := toDigits_length (Nat.pos_of_ne_zero nonzero)
  obtain ⟨lower, upper⟩ := Decimal.value_bounds least most
  have notLarge : ¬ 400 < d.exponent + ((l + 1 : ℕ) : ℤ) := by
    intro large
    have far : (10 : ℚ) ^ 400 ≤ d.value := by
      calc (10 : ℚ) ^ 400 = 10 ^ (400 : ℤ) := (zpow_natCast 10 400).symm
        _ ≤ 10 ^ ((l : ℤ) + d.exponent) := zpow_le_zpow_right₀ (by norm_num) (by omega)
        _ ≤ d.value := lower
    exact absurd below (not_lt.mpr far)
  have notSmall : ¬ d.exponent + ((l + 1 : ℕ) : ℤ) < -400 := by
    intro small
    have near : d.value ≤ 1 / 10 ^ 400 := by
      calc d.value ≤ 10 ^ (((l + 1 : ℕ) : ℤ) + d.exponent) := upper
        _ ≤ 10 ^ (-400 : ℤ) := zpow_le_zpow_right₀ (by norm_num) (by omega)
        _ = 1 / 10 ^ 400 := by rw [zpow_neg, one_div]; norm_cast
    exact absurd above (not_lt.mpr near)
  have held : ∀ num den : Nat, 0 < den → (num / den : ℚ) = d.value →
      ofQuotient? negative num den = some (withSign negative (m + s * 2 ^ 52)) :=
    fun num den proper same => ofQuotient?_eq negative shape proper (same ▸ reaches)
  simp only [ofDecimal?, size]
  rw [if_neg nonzero, if_neg notLarge, if_neg notSmall]
  split
  · rename_i positive
    apply held _ 1 Nat.one_pos
    have power := power_toNat positive
    simp only [Nat.pow_eq, Decimal.value]
    push_cast at power ⊢
    rw [power, div_one]
  · rename_i negative
    apply held _ _ (Nat.pow_pos (by decide))
    have power := power_toNat (show 0 ≤ -d.exponent by omega)
    simp only [Decimal.value]
    push_cast at power ⊢
    rw [power, zpow_neg, div_inv_eq_mul]

theorem isFinite_withSign (negative : Bool) {bits : Nat} (small : bits < infinityBits) :
    (withSign negative bits).IsFinite := by
  unfold infinityBits at small
  have size : (bits + if negative then 0x8000000000000000 else 0) < 2 ^ 64 := by
    split <;> omega
  have held : (withSign negative bits).bits.toNat =
      bits + if negative then 0x8000000000000000 else 0 := Nat.mod_eq_of_lt size
  unfold IsFinite exponentField
  rw [held]
  split <;> omega

/-- Every number that is read is finite. -/
theorem isFinite_of_read {text : Text} {x : Double} (read : Double.read text = .ok x) :
    x.IsFinite := by
  have quotient : ∀ {negative num den}, ofQuotient? negative num den = some x → x.IsFinite := by
    intro negative num den held
    simp only [ofQuotient?] at held
    split at held
    · rename_i small
      obtain rfl := Option.some.inj held
      exact isFinite_withSign negative small
    · exact absurd held (by simp)
  have zero : ∀ {negative}, some (withSign negative 0) = some x → x.IsFinite := by
    intro negative held
    obtain rfl := Option.some.inj held
    exact isFinite_withSign negative (by decide)
  unfold Double.read at read
  split at read
  · exact absurd read (by simp)
  · rename_i negative d decimal
    split at read
    · exact absurd read (by simp)
    · rename_i y held
      obtain rfl := Except.ok.inj read
      simp only [ofDecimal?] at held
      split_ifs at held
      · exact zero held
      · exact zero held
      · exact quotient held
      · exact quotient held

end Rounded

section Writing

variable {d : Digits}

theorem isDigits_zeros {b : UInt8} {n : Int} (member : b ∈ zeros n) : isDigitByte b := by
  rw [List.eq_of_mem_replicate member]
  decide

theorem length_zeros (n : Int) : (zeros n).length = n.toNat := List.length_replicate

theorem digitsValue_zeros_append (n : Int) (digits : Text) :
    digitsValue (zeros n ++ digits) = digitsValue digits := by
  rw [digitsValue_append, zeros, digitsValue_zeros, Nat.zero_mul, Nat.zero_add]

theorem decimalOf_value (whole fraction : Text) :
    (decimalOf whole fraction []).value =
      digitsValue (whole ++ fraction.drop 1) * 10 ^ (-((fraction.drop 1).length : Int)) := by
  have zero : (toInt? (([] : Text).drop 1)).getD 0 = 0 := rfl
  rw [decimalOf, Decimal.value, zero, Int.zero_sub]

/-- Digits written with a point stand for their number. -/
theorem positional_parts (digits : d.digits.IsDigits) :
    ∃ whole fraction, positional d = whole ++ fraction ∧ whole.IsDigits ∧ IsFraction fraction ∧
      (decimalOf whole fraction []).value = d.value := by
  by_cases small : d.point ≤ 0
  · have part : (if d.point < 0 then zeros (-d.point) ++ d.digits
        else d.digits.drop d.point.toNat) = zeros (-d.point) ++ d.digits := by
      split
      · rfl
      · have : d.point = 0 := by omega
        rw [this]
        rfl
    refine ⟨[48], 46 :: (zeros (-d.point) ++ d.digits), ?_, isDigits_zero, .digits ?_, ?_⟩
    · simp only [positional, part]
      rw [if_neg (by simp [digits.present]), if_pos small]
    · refine ⟨by simp [digits.present], fun b member => ?_⟩
      exact (List.mem_append.mp member).elim isDigits_zeros (digits.digits b)
    · have number : digitsValue ([48] ++ (zeros (-d.point) ++ d.digits)) =
          digitsValue d.digits := by
        rw [digitsValue_append, digitsValue_zeros_append]
        simp [digitsValue]
      rw [decimalOf_value, List.drop_one, List.tail_cons, number, Digits.value, List.length_append,
        length_zeros]
      congr 2
      omega
  · have part : (if d.point < 0 then zeros (-d.point) ++ d.digits
        else d.digits.drop d.point.toNat) = d.digits.drop d.point.toNat := if_neg (by omega)
    by_cases long : d.digits.length ≤ d.point.toNat
    · refine ⟨d.digits ++ zeros (d.point - d.digits.length), [], ?_,
        digits.append fun _ => isDigits_zeros, .none, ?_⟩
      · simp only [positional, part, if_neg small]
        rw [List.drop_eq_nil_of_le long, List.take_of_length_le long, List.append_nil]
        rfl
      · rw [decimalOf_value, List.drop_nil, List.append_nil, digitsValue_append, zeros,
          digitsValue_zeros, List.length_replicate, Digits.value]
        push_cast
        rw [← zpow_natCast, Int.toNat_of_nonneg (by omega)]
        simp
    · refine ⟨d.digits.take d.point.toNat, 46 :: d.digits.drop d.point.toNat, ?_, ⟨?_, ?_⟩,
        .digits ⟨?_, ?_⟩, ?_⟩
      · have none : zeros (d.point - d.digits.length) = [] := by
          rw [zeros, Int.toNat_of_nonpos (by omega)]
          rfl
        simp only [positional, part, if_neg small, none, List.append_nil]
        rw [if_neg (by simpa using long)]
      · simp [digits.present]
        omega
      · exact fun b member => digits.digits b (List.mem_of_mem_take member)
      · simpa using long
      · exact fun b member => digits.digits b (List.mem_of_mem_drop member)
      · rw [decimalOf_value, List.drop_one, List.tail_cons, List.take_append_drop, Digits.value,
          List.length_drop]
        congr 2
        omega

/-- Digits written with a power of ten stand for their number. -/
theorem scientific_parts (width : Nat) (digits : d.digits.IsDigits) :
    ∃ whole fraction exponent, scientific width d = whole ++ (fraction ++ exponent) ∧
      whole.IsDigits ∧ IsFraction fraction ∧ IsExponent exponent ∧
      (decimalOf whole fraction exponent).value = d.value := by
  obtain ⟨b, rest, split, digit⟩ := IsNumeral.first_digit digits
  have size := (isDigits_ofNat (d.point - 1).natAbs).padLeft width
  have number : digitsValue (padLeft width 48 (Text.ofNat (d.point - 1).natAbs)) =
      (d.point - 1).natAbs := by
    rw [digitsValue_padLeft, digitsValue_ofNat]
  have exponent : toInt? ((if d.point - 1 < 0 then 45 else 43) ::
      padLeft width 48 (Text.ofNat (d.point - 1).natAbs)) = some (d.point - 1) := by
    by_cases negative : d.point - 1 < 0
    · rw [if_pos negative, toInt?, cutSign, if_pos rfl, toNat?_of_isDigits size, number]
      exact congrArg some (by omega : -((d.point - 1).natAbs : Int) = d.point - 1)
    · rw [if_neg negative, toInt?, cutSign, if_neg (by decide), if_pos rfl,
        toNat?_of_isDigits size, number]
      exact congrArg some (by omega : ((d.point - 1).natAbs : Int) = d.point - 1)
  refine ⟨[b], if rest.isEmpty then [] else 46 :: rest,
    101 :: (if d.point - 1 < 0 then 45 else 43) ::
      padLeft width 48 (Text.ofNat (d.point - 1).natAbs), ?_, ⟨by simp, by simpa using digit⟩, ?_,
    .digits (by split <;> simp) size, ?_⟩
  · rw [scientific, split]
    simp
  · split
    · exact .none
    · rename_i more
      refine .digits ⟨by simpa using more, fun c member => digits.digits c ?_⟩
      rw [split]
      exact List.mem_cons_of_mem _ member
  · have part : (if rest.isEmpty then [] else (46 : UInt8) :: rest).drop 1 = rest := by
      cases rest <;> rfl
    rw [decimalOf, part, List.drop_one, List.tail_cons, exponent, Decimal.value, Digits.value, split]
    simp
    omega

end Writing

section RoundTrip

variable {x : Double} {sign whole fraction exponent : Text}

/-- The digits of every finite double are digits. -/
theorem shortest_digits (finite : x.IsFinite) : x.shortest.digits.IsDigits := by
  by_cases zero : x.isZero
  · rw [shortest, if_pos zero]
    exact isDigits_zero
  · exact (reaches_shortest finite (by simpa using zero)).1

theorem signText_cases (x : Double) : x.signText = [] ∨ x.signText = [45] := by
  unfold signText
  split
  · exact .inr rfl
  · exact .inl rfl

theorem signText_isEmpty (x : Double) : (!x.signText.isEmpty) = x.isNegative := by
  unfold signText
  split <;> simp_all

theorem any_mark (number : IsNumeral sign whole fraction exponent) :
    ((sign ++ (whole ++ (fraction ++ exponent))).any
      fun b => b == 46 || b == 101 || b == 73 || b == 78) =
        decide (fraction.length + exponent.length ≠ 0) := by
  cases number.fraction with
  | digits => simp
  | none =>
      cases number.exponent with
      | digits => simp
      | none =>
          rw [List.append_nil, List.append_nil, List.any_append]
          have noSign : (sign.any fun b => b == 46 || b == 101 || b == 73 || b == 78) = false := by
            rcases number.sign with rfl | rfl <;> rfl
          have noDigit : (whole.any fun b => b == 46 || b == 101 || b == 73 || b == 78) = false := by
            refine List.any_eq_false.mpr fun b member => ?_
            have digit := number.whole.digits b member
            have other : ∀ c : UInt8, isDigitByte c = false → (b == c) = false := by
              intro c refused
              simpa [bne] using isDigitByte_ne digit refused
            simp only [other 46 (by decide), other 101 (by decide), other 73 (by decide),
              other 78 (by decide)]
            decide
          rw [noSign, noDigit]
          rfl

/-- What a finite double is written as before a point is made sure of. -/
theorem general_parts (finite : x.IsFinite) :
    ∃ whole fraction exponent, x.general = x.signText ++ (whole ++ (fraction ++ exponent)) ∧
      IsNumeral x.signText whole fraction exponent ∧
      (decimalOf whole fraction exponent).value = x.shortest.value := by
  have digits := shortest_digits finite
  have number : x.isNaN = false ∧ x.isInfinite = false := by
    unfold isNaN isInfinite
    simp [beq_eq_false_iff_ne.mpr finite]
  simp only [general, number.1, number.2, Bool.false_eq_true, if_false]
  split
  · obtain ⟨whole, fraction, exponent, text, first, second, third, same⟩ :=
      scientific_parts 2 digits
    exact ⟨whole, fraction, exponent, by rw [text], ⟨x.signText_cases, first, second, third⟩, same⟩
  · obtain ⟨whole, fraction, text, first, second, same⟩ := positional_parts digits
    exact ⟨whole, fraction, [], by rw [text, List.append_nil],
      ⟨x.signText_cases, first, second, .none⟩, same⟩

/-- A zero behind the point does not change the number. -/
theorem decimalOf_pointZero (whole : Text) :
    (decimalOf whole [46, 48] []).value = (decimalOf whole [] []).value := by
  have shifted : digitsValue (whole ++ [48]) = digitsValue whole * 10 := by
    rw [digitsValue_append]
    rfl
  rw [decimalOf_value, decimalOf_value, List.drop_one, List.tail_cons, shifted, List.drop_nil,
    List.append_nil]
  push_cast
  rw [List.length_singleton, List.length_nil]
  norm_num
  ring

/-- What a finite double is written as: a number, with a point or an exponent. -/
theorem printFloat_parts (finite : x.IsFinite) :
    ∃ whole fraction exponent, Mir.Const.printFloat x =
        x.signText ++ (whole ++ (fraction ++ exponent)) ∧
      IsNumeral x.signText whole fraction exponent ∧
      fraction.length + exponent.length ≠ 0 ∧
      (decimalOf whole fraction exponent).value = x.shortest.value := by
  obtain ⟨whole, fraction, exponent, text, number, same⟩ := general_parts finite
  have marked : (x.general.any fun b => b == 46 || b == 101 || b == 73 || b == 78) =
      decide (fraction.length + exponent.length ≠ 0) := by
    rw [text]
    exact any_mark number
  simp only [Mir.Const.printFloat, marked]
  by_cases plain : fraction.length + exponent.length = 0
  · have none : fraction = [] ∧ exponent = [] := by
      simpa [Nat.add_eq_zero_iff] using plain
    obtain ⟨rfl, rfl⟩ := none
    refine ⟨whole, [46, 48], [], ?_, ?_, by decide, (decimalOf_pointZero whole).trans same⟩
    · rw [if_neg (by simp), text]
      simp
      rfl
    · exact ⟨number.sign, number.whole, .digits isDigits_zero, .none⟩
  · exact ⟨whole, fraction, exponent, by rw [if_pos (decide_eq_true plain), text], number, plain,
      same⟩

/-- A written double is one token. -/
theorem lexes_printFloat (finite : x.IsFinite) :
    Lexes [] true (Mir.Const.printFloat x) [(.float, Mir.Const.printFloat x)] := by
  obtain ⟨whole, fraction, exponent, text, number, marked, _⟩ := printFloat_parts finite
  have lexed := number.lexes
  rw [IsNumeral.kind, if_neg marked, ← text] at lexed
  exact lexed

/-- A written double reads back, the sign of a zero included. -/
theorem read_printFloat (finite : x.IsFinite) : Double.read (Mir.Const.printFloat x) = .ok x := by
  obtain ⟨whole, fraction, exponent, text, number, _, same⟩ := printFloat_parts finite
  have decimal := decimal?_numeral number
  rw [← text, signText_isEmpty] at decimal
  have rounded : ofDecimal? x.isNegative (decimalOf whole fraction exponent) = some x := by
    by_cases zero : x.isZero
    · have none : (decimalOf whole fraction exponent).coefficient = 0 := by
        rw [shortest, if_pos zero] at same
        have value : Digits.value ⟨[48], 1⟩ = 0 := by simp [Digits.value, digitsValue]
        rw [value, Decimal.value, mul_eq_zero] at same
        have power : (10 : ℚ) ^ (decimalOf whole fraction exponent).exponent ≠ 0 := by positivity
        exact_mod_cast same.resolve_right power
      simp only [isZero, Bool.and_eq_true, beq_iff_eq] at zero
      have bits : x.significand + x.scale * 2 ^ 52 = 0 := by
        unfold significand scale
        rw [if_pos zero.1, zero.1, zero.2, Nat.zero_sub, Nat.zero_mul]
      rw [ofDecimal?, if_pos none, ← bits, withSign_bits]
    · have nonzero : x.isZero = false := by simpa using zero
      have reaches := (reaches_shortest finite nonzero).2
      rw [← same] at reaches
      rw [ofDecimal?_eq _ (isSignificand_of_isFinite finite nonzero) reaches, withSign_bits]
  simp only [Double.read, decimal, rounded]

end RoundTrip

end Double

end BorrowChecker
