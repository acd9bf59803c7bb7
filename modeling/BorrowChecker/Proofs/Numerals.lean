import BorrowChecker.Proofs.Spelling

/-!
Decimal numbers: what is written for a number reads back as it, and stands as one token.
-/

namespace BorrowChecker

namespace Text

theorem toNat_digit {n : Nat} (small : n < 10) : (digit n).toNat = 48 + n := by
  interval_cases n <;> rfl

theorem isDigitByte_iff {b : UInt8} : isDigitByte b ↔ 48 ≤ b.toNat ∧ b.toNat ≤ 57 := by
  simp [isDigitByte, UInt8.le_iff_toNat_le]

theorem isDigitByte_digit {n : Nat} (small : n < 10) : isDigitByte (digit n) := by
  rw [isDigitByte_iff, toNat_digit small]
  omega

structure IsDigits (text : Text) : Prop where
  present : text ≠ []
  digits : ∀ b ∈ text, isDigitByte b

theorem isDigits_zero : IsDigits [48] := ⟨by simp, List.forall_mem_singleton.mpr (by decide)⟩

theorem IsDigits.append {first second : Text} (left : first.IsDigits)
    (right : ∀ b ∈ second, isDigitByte b) : IsDigits (first ++ second) := by
  refine ⟨by simp [left.present], ?_⟩
  intro b member
  exact (List.mem_append.mp member).elim (left.digits b) (right b)

theorem IsDigits.ascii {text : Text} (digits : text.IsDigits) : ∀ b ∈ text, b.toNat < 0x80 := by
  intro b member
  have := isDigitByte_iff.mp (digits.digits b member)
  omega

theorem isDigits_ofNat (n : Nat) : (ofNat n).IsDigits := by
  induction n using Nat.strongRecOn with
  | ind n ih =>
      rw [ofNat]
      split
      · rename_i small
        refine ⟨by simp, ?_⟩
        intro b member
        rw [List.mem_singleton.mp member]
        exact isDigitByte_digit small
      · refine (ih (n / 10) (by omega)).append ?_
        intro b member
        rw [List.mem_singleton.mp member]
        exact isDigitByte_digit (Nat.mod_lt n (by decide))

theorem digitsValue_append (first second : Text) :
    digitsValue (first ++ second) =
      digitsValue first * 10 ^ second.length + digitsValue second := by
  have shifted : ∀ (text : Text) (n : Nat),
      text.foldl (fun n b => 10 * n + (b.toNat - 48)) n = n * 10 ^ text.length + digitsValue text := by
    intro text
    induction text with
    | nil => simp [digitsValue]
    | cons b rest ih =>
        intro n
        rw [digitsValue, List.foldl_cons, ih, List.foldl_cons, ih, List.length_cons, pow_succ]
        ring
  rw [digitsValue, List.foldl_append, shifted]
  rfl

theorem digitsValue_digit {n : Nat} (small : n < 10) : digitsValue [digit n] = n := by
  simp [digitsValue, toNat_digit small]

theorem digitsValue_ofNat (n : Nat) : digitsValue (ofNat n) = n := by
  induction n using Nat.strongRecOn with
  | ind n ih =>
      rw [ofNat]
      split
      · rename_i small
        exact digitsValue_digit small
      · rw [digitsValue_append, ih (n / 10) (by omega),
          digitsValue_digit (Nat.mod_lt n (by decide)), List.length_singleton]
        omega

theorem head?_ofNat {n : Nat} (positive : n ≠ 0) : (ofNat n).head? ≠ some 48 := by
  induction n using Nat.strongRecOn with
  | ind n ih =>
      rw [ofNat]
      split
      · rename_i small
        intro zero
        have first : digit n = 48 := by simpa using zero
        have number := toNat_digit small
        rw [first] at number
        simp at number
        omega
      · rw [List.head?_append_of_ne_nil _ (isDigits_ofNat _).present]
        exact ih (n / 10) (by omega) (by omega)

theorem digitsValue_zeros (n : Nat) : digitsValue (List.replicate n 48) = 0 := by
  induction n with
  | zero => rfl
  | succ n ih =>
      rw [List.replicate_succ', digitsValue_append, ih]
      rfl

theorem IsDigits.padLeft {digits : Text} (shape : digits.IsDigits) (width : Nat) :
    (padLeft width 48 digits).IsDigits := by
  refine ⟨by simp [Text.padLeft, shape.present], fun b member => ?_⟩
  rcases List.mem_append.mp member with zero | later
  · rw [List.eq_of_mem_replicate zero]
    decide
  · exact shape.digits b later

theorem digitsValue_padLeft (width : Nat) (digits : Text) :
    digitsValue (padLeft width 48 digits) = digitsValue digits := by
  rw [padLeft, digitsValue_append, digitsValue_zeros, Nat.zero_mul, Nat.zero_add]

theorem toNat?_of_isDigits {text : Text} (digits : text.IsDigits) :
    toNat? text = some (digitsValue text) := by
  rw [toNat?, if_neg (by simpa using digits.present), if_pos (List.all_eq_true.mpr digits.digits)]

theorem toNat?_ofNat (n : Nat) : toNat? (ofNat n) = some n := by
  rw [toNat?_of_isDigits (isDigits_ofNat n), digitsValue_ofNat]

theorem cutSign_of_isDigits {text : Text} (digits : text.IsDigits) :
    cutSign text = (false, text) := by
  cases text with
  | nil => exact absurd rfl digits.present
  | cons b rest =>
      have range := isDigitByte_iff.mp (digits.digits b (List.mem_cons_self ..))
      have minus : b ≠ 45 := by
        rintro rfl
        simp at range
      have plus : b ≠ 43 := by
        rintro rfl
        simp at range
      rw [cutSign, if_neg minus, if_neg plus]

theorem toInt?_ofInt (v : Int) : toInt? (ofInt v) = some v := by
  cases v with
  | ofNat n =>
      rw [ofInt, toInt?, cutSign_of_isDigits (isDigits_ofNat n), toNat?_ofNat]
      rfl
  | negSucc n =>
      rw [ofInt, toInt?, cutSign, if_pos rfl, toNat?_ofNat]
      rfl

theorem readSigned_ofInt (v : Int64) : readSigned 64 (ofInt v.toInt) = .ok v.toInt := by
  have lower := v.le_toInt
  have upper := v.toInt_lt
  rw [readSigned, toInt?_ofInt]
  simp only [Nat.reduceSub]
  rw [if_pos]
  constructor
  · exact lower
  · exact upper

theorem readUnsigned_ofNat {n bits : Nat} (fits : n < Nat.pow 2 bits) :
    readUnsigned bits (ofNat n) = .ok n := by
  rw [readUnsigned, toNat?_ofNat]
  exact if_pos fits

end Text

namespace Source

open Text CodePoint

theorem isDigitPoint_of_isDigitByte {b : UInt8} (digit : isDigitByte b) :
    isDigitPoint ⟨b.toNat, [b]⟩ := by
  simpa [isDigitPoint, isAsciiDigit] using isDigitByte_iff.mp digit

theorem isNamePoint_of_isDigitPoint {c : CodePoint} (digit : isDigitPoint c) : isNamePoint c := by
  simp only [isDigitPoint, isAsciiDigit, Bool.and_eq_true, decide_eq_true_eq] at digit
  rw [isNamePoint_ascii (by omega)]
  omega

def points (text : Text) : List CodePoint := text.map fun b => ⟨b.toNat, [b]⟩

theorem all_points {text : Text} (digits : text.IsDigits) : (points text).all isDigitPoint := by
  refine List.all_eq_true.mpr fun c member => ?_
  obtain ⟨b, inside, rfl⟩ := List.mem_map.mp member
  exact isDigitPoint_of_isDigitByte (digits.digits b inside)

theorem digitRun_append {text : Text} (digits : text.IsDigits) {rest : List CodePoint}
    (ends : ∀ c ∈ rest.head?, isDigitPoint c = false) :
    digitRun (points text ++ rest) = text.length := by
  rw [digitRun, List.takeWhile_append_of_pos (List.all_eq_true.mp (all_points digits))]
  cases rest with
  | nil => simp [points]
  | cons c more => simp [points, ends c rfl]

theorem Apart.no_digit {rest : List CodePoint} (apart : Apart rest) :
    ∀ c ∈ rest.head?, isDigitPoint c = false := by
  intro c isHead
  by_contra digit
  have name := isNamePoint_of_isDigitPoint (by simpa using digit)
  rw [(apart c isHead).1] at name
  exact Bool.false_ne_true name

inductive IsFraction : Text → Prop
  | none : IsFraction []
  | digits {part : Text} : part.IsDigits → IsFraction (46 :: part)

inductive IsExponent : Text → Prop
  | none : IsExponent []
  | digits {sign : UInt8} {size : Text} : sign = 43 ∨ sign = 45 → size.IsDigits →
      IsExponent (101 :: sign :: size)

theorem fractionLength_eq {fraction : Text} (shape : IsFraction fraction) {rest : List CodePoint}
    (ends : ∀ c ∈ rest.head?, isDigitPoint c = false ∧ c.value ≠ 46) :
    fractionLength (points fraction ++ rest) = fraction.length := by
  cases shape with
  | none =>
      cases rest with
      | nil => rfl
      | cons c more => simp [points, fractionLength, (ends c rfl).2]
  | @digits part digits =>
      have run := digitRun_append digits fun c isHead => (ends c isHead).1
      have present : part.length ≠ 0 := by simpa using digits.present
      change (if (46 : UInt8).toNat = 46 ∧ digitRun (points part ++ rest) ≠ 0 then
        1 + digitRun (points part ++ rest) else 0) = _
      rw [run, if_pos ⟨rfl, present⟩, List.length_cons, Nat.add_comm]

theorem exponentLength_eq {exponent : Text} (shape : IsExponent exponent) {rest : List CodePoint}
    (apart : Apart rest) : exponentLength (points exponent ++ rest) = exponent.length := by
  cases shape with
  | none =>
      cases rest with
      | nil => rfl
      | cons c more =>
          have letter : ¬ (c.value = 101 ∨ c.value = 69) := by
            intro mark
            have name : isNamePoint c := (isNamePoint_ascii (by omega)).mpr (by omega)
            rw [(apart c rfl).1] at name
            exact Bool.false_ne_true name
          exact if_neg letter
  | @digits sign size signed digits =>
      have run := digitRun_append digits apart.no_digit
      have present : size.length ≠ 0 := by simpa using digits.present
      have mark : (if sign.toNat = 43 ∨ sign.toNat = 45 then 1 else 0) = 1 := by
        rcases signed with rfl | rfl <;> rfl
      change (let width := if sign.toNat = 43 ∨ sign.toNat = 45 then 1 else 0
        let digits := digitRun ((⟨sign.toNat, [sign]⟩ :: (points size ++ rest)).drop width)
        if digits = 0 then 0 else 1 + width + digits) = _
      simp only [mark, List.drop_one, List.tail_cons, run, if_neg present, List.length_cons]
      omega

structure IsNumeral (sign whole fraction exponent : Text) : Prop where
  sign : sign = [] ∨ sign = [45]
  whole : whole.IsDigits
  fraction : IsFraction fraction
  exponent : IsExponent exponent

namespace IsNumeral

variable {sign whole fraction exponent : Text}

def kind (fraction exponent : Text) : TokenKind :=
  if fraction.length + exponent.length = 0 then .int else .float

theorem exponent_starts (shape : IsExponent exponent) {rest : List CodePoint} (apart : Apart rest) :
    ∀ c ∈ (points exponent ++ rest).head?, isDigitPoint c = false ∧ c.value ≠ 46 := by
  cases shape with
  | none => exact fun c isHead => ⟨apart.no_digit c isHead, (apart c isHead).2⟩
  | digits =>
      intro c isHead
      obtain rfl : (⟨101, [101]⟩ : CodePoint) = c := Option.mem_some_iff.mp isHead
      exact ⟨by decide, by decide⟩

theorem fraction_starts (number : IsNumeral sign whole fraction exponent) {rest : List CodePoint}
    (apart : Apart rest) :
    ∀ c ∈ (points fraction ++ (points exponent ++ rest)).head?, isDigitPoint c = false := by
  cases number.fraction with
  | none => exact fun c isHead => (exponent_starts number.exponent apart c isHead).1
  | digits =>
      intro c isHead
      obtain rfl : (⟨46, [46]⟩ : CodePoint) = c := Option.mem_some_iff.mp isHead
      decide

def scanFrom (width : Nat) (line : List CodePoint) : Option (TokenKind × Nat) :=
  let digits := digitRun (line.drop width)
  if digits = 0 then none
  else
    let whole := width + digits
    let fraction := fractionLength (line.drop whole)
    let exponent := exponentLength (line.drop (whole + fraction))
    some (if fraction + exponent = 0 then .int else .float, whole + fraction + exponent)

theorem scanNumber_cons (c : CodePoint) (rest : List CodePoint) :
    scanNumber (c :: rest) = scanFrom (if c.value = 45 then 1 else 0) (c :: rest) := rfl

theorem scanFrom_eq (number : IsNumeral sign whole fraction exponent) {rest : List CodePoint}
    (apart : Apart rest) :
    scanFrom sign.length
        (points sign ++ (points whole ++ (points fraction ++ (points exponent ++ rest)))) =
      some (kind fraction exponent,
        sign.length + whole.length + fraction.length + exponent.length) := by
  have present : whole.length ≠ 0 := by simpa using number.whole.present
  have count : ∀ text : Text, (points text).length = text.length := fun text => List.length_map _
  have afterSign : (points sign ++
      (points whole ++ (points fraction ++ (points exponent ++ rest)))).drop sign.length =
        points whole ++ (points fraction ++ (points exponent ++ rest)) :=
    List.drop_left' (count sign)
  have afterWhole : (points sign ++
      (points whole ++ (points fraction ++ (points exponent ++ rest)))).drop
        (sign.length + whole.length) = points fraction ++ (points exponent ++ rest) := by
    rw [← List.append_assoc]
    exact List.drop_left' (by rw [List.length_append, count, count])
  have afterFraction : (points sign ++
      (points whole ++ (points fraction ++ (points exponent ++ rest)))).drop
        (sign.length + whole.length + fraction.length) = points exponent ++ rest := by
    rw [← List.append_assoc, ← List.append_assoc]
    exact List.drop_left' (by rw [List.length_append, List.length_append, count, count, count])
  have run := digitRun_append number.whole (number.fraction_starts apart)
  have fractions := fractionLength_eq number.fraction (exponent_starts number.exponent apart)
  simp only [scanFrom, afterSign, run, if_neg present, afterWhole, fractions, afterFraction,
    exponentLength_eq number.exponent apart, kind]

theorem first_digit {whole : Text} (digits : whole.IsDigits) : ∃ b rest, whole = b :: rest ∧
    isDigitByte b := by
  cases whole with
  | nil => exact absurd rfl digits.present
  | cons b rest => exact ⟨b, rest, rfl, digits.digits b (List.mem_cons_self ..)⟩

theorem scanNumber_eq (number : IsNumeral sign whole fraction exponent) {rest : List CodePoint}
    (apart : Apart rest) :
    scanNumber (points sign ++ (points whole ++ (points fraction ++ (points exponent ++ rest)))) =
      some (kind fraction exponent,
        sign.length + whole.length + fraction.length + exponent.length) := by
  rw [← number.scanFrom_eq apart]
  obtain ⟨b, more, split, digit⟩ := first_digit number.whole
  rcases number.sign with rfl | rfl
  · have plain : ¬ b.toNat = 45 := by
      have := isDigitByte_iff.mp digit
      omega
    rw [split]
    change scanFrom (if b.toNat = 45 then 1 else 0) _ = _
    rw [if_neg plain]
    rfl
  · rfl

theorem ascii (number : IsNumeral sign whole fraction exponent) :
    ∀ b ∈ sign ++ (whole ++ (fraction ++ exponent)), b.toNat < 0x80 := by
  intro b member
  simp only [List.mem_append] at member
  rcases member with inSign | inWhole | inFraction | inExponent
  · rcases number.sign with rfl | rfl
    · simp at inSign
    · rw [List.mem_singleton.mp inSign]
      decide
  · exact number.whole.ascii b inWhole
  · cases number.fraction with
    | none => simp at inFraction
    | digits digits =>
        rcases List.mem_cons.mp inFraction with rfl | later
        · decide
        · exact digits.ascii b later
  · cases number.exponent with
    | none => simp at inExponent
    | digits signed digits =>
        rcases List.mem_cons.mp inExponent with rfl | later
        · decide
        rcases List.mem_cons.mp later with rfl | last
        · rcases signed with rfl | rfl <;> decide
        · exact digits.ascii b last

inductive Starts : Text → Prop
  | digit {b : UInt8} {rest : Text} : isDigitByte b → Starts (b :: rest)
  | minus {b : UInt8} {rest : Text} : isDigitByte b → Starts (45 :: b :: rest)

theorem starts (number : IsNumeral sign whole fraction exponent) :
    Starts (sign ++ (whole ++ (fraction ++ exponent))) := by
  obtain ⟨b, more, rfl, digit⟩ := first_digit number.whole
  rcases number.sign with rfl | rfl
  · exact .digit digit
  · exact .minus digit

theorem ofCodePoints_points (text : Text) : ofCodePoints (points text) = text := by
  induction text with
  | nil => rfl
  | cons b rest ih =>
      change b :: ofCodePoints (points rest) = _
      rw [ih]

theorem scan_number (pos : Nat) {b : UInt8} {tail : Text} {rest : List CodePoint}
    {kind : TokenKind} (starts : Starts (b :: tail))
    (scanned : scanNumber (points (b :: tail) ++ rest) = some (kind, tail.length + 1)) :
    scan pos ⟨b.toNat, [b]⟩ (points tail ++ rest) = .ok (kind, b :: tail, tail.length) := by
  have taken : (points (b :: tail) ++ rest).take (tail.length + 1) = points (b :: tail) :=
    List.take_left' (by simp [points])
  have ascii : b.toNat < 0x80 := by
    cases starts with
    | digit digit => have := isDigitByte_iff.mp digit; omega
    | minus => decide
  have value : b.toNat = 45 ∨ 48 ≤ b.toNat ∧ b.toNat ≤ 57 := by
    cases starts with
    | digit digit => exact .inr (isDigitByte_iff.mp digit)
    | minus => exact .inl rfl
  have noName : ¬ (b.toNat = 95 ∨ isLetter b.toNat) := by
    simp only [isLetter, if_pos ascii, isAsciiLetter, Bool.or_eq_true, Bool.and_eq_true,
      decide_eq_true_eq]
    omega
  have noArrow : ¬ (b.toNat = 45 ∧ nextIs 62 (points tail ++ rest)) := by
    rintro ⟨minus, arrow⟩
    cases starts with
    | digit digit => have := isDigitByte_iff.mp digit; omega
    | @minus d more digit =>
        have value : d.toNat = 62 := by simpa [points, nextIs] using arrow
        have := isDigitByte_iff.mp digit
        omega
  have number : b.toNat = 45 ∨ isDecimal b.toNat := by
    simp only [isDecimal, if_pos ascii, isAsciiDigit, Bool.and_eq_true, decide_eq_true_eq]
    exact value
  have whole : scanNumber (⟨b.toNat, [b]⟩ :: (points tail ++ rest)) =
    some (kind, tail.length + 1) := scanned
  have front : (⟨b.toNat, [b]⟩ :: (points tail ++ rest) : List CodePoint).take (tail.length + 1) =
    points (b :: tail) := taken
  rw [scan, if_neg noName, if_neg (by simp only; omega), if_neg (by simp only; omega),
    if_neg noArrow, if_neg (by simp only; omega), if_pos number, whole]
  simp only [front, ofCodePoints_points, Nat.add_sub_cancel]

/-- A number is one token, of a kind that its shape decides. -/
theorem lexes (number : IsNumeral sign whole fraction exponent) :
    Lexes [] true (sign ++ (whole ++ (fraction ++ exponent)))
      [(kind fraction exponent, sign ++ (whole ++ (fraction ++ exponent)))] := by
  have sealed_ := sealed_of_ascii number.ascii
  have all : Text.codePoints (sign ++ (whole ++ (fraction ++ exponent))) =
      points (sign ++ (whole ++ (fraction ++ exponent))) := codePoints_ascii number.ascii
  have scans : ∀ rest, Apart rest →
      scanNumber (points (sign ++ (whole ++ (fraction ++ exponent))) ++ rest) =
        some (kind fraction exponent, (sign ++ (whole ++ (fraction ++ exponent))).length) := by
    intro rest apart
    have scanned := number.scanNumber_eq apart
    simp only [points, List.map_append, List.append_assoc, List.length_append] at scanned ⊢
    rw [scanned]
    congr 2
    omega
  generalize text : sign ++ (whole ++ (fraction ++ exponent)) = line at *
  have begins : Starts line := text ▸ number.starts
  obtain ⟨b, tail, rfl⟩ : ∃ b tail, line = b :: tail := by
    cases begins with
    | digit => exact ⟨_, _, rfl⟩
    | minus => exact ⟨_, _, rfl⟩
  refine lexes_token sealed_ all ?_ fun pos rest apart => ?_
  · cases begins with
    | digit digit =>
        exact solid_of_isNamePoint (isNamePoint_of_isDigitPoint (isDigitPoint_of_isDigitByte digit))
    | minus => decide
  · have scanned := scan_number pos begins (scans rest (apart rfl))
    rw [List.length_map]
    exact scanned

end IsNumeral

theorem lexes_ofInt (v : Int) : Lexes [] true (ofInt v) [(.int, ofInt v)] := by
  cases v with
  | ofNat n =>
      have number : IsNumeral [] (ofNat n) [] [] :=
        ⟨.inl rfl, isDigits_ofNat n, .none, .none⟩
      rw [ofInt]
      simpa [IsNumeral.kind] using number.lexes
  | negSucc n =>
      have number : IsNumeral [45] (ofNat (n + 1)) [] [] :=
        ⟨.inr rfl, isDigits_ofNat (n + 1), .none, .none⟩
      rw [ofInt]
      simpa [IsNumeral.kind] using number.lexes

theorem lexes_ofNat (n : Nat) : Lexes [] true (ofNat n) [(.int, ofNat n)] := lexes_ofInt n

end Source

end BorrowChecker
