import BorrowChecker.Proofs.Numerals
import BorrowChecker.Proofs.Strays

/-!
The shapes of tokens, as runs of code points: names, lifetimes, quoted texts, numbers and symbols.
What is scanned at the front of a line has one of these shapes, no longer run at the front has one,
and a run that has one is scanned as a whole when white space or nothing comes after it.
-/

namespace BorrowChecker

/-! ## Quoted texts -/

namespace Quoted

theorem digits?_cut {base count acc n : Nat} {value? : Nat → Option Nat} {points : List CodePoint}
    (found : digits? base value? count acc points = some n) :
    ∃ inside rest, points = inside ++ rest ∧ inside.length = count ∧
      ∀ tail, digits? base value? count acc (inside ++ tail) = some n := by
  induction count generalizing acc points with
  | zero => exact ⟨[], points, rfl, rfl, fun tail => found⟩
  | succ count ih =>
      cases points with
      | nil => simp [digits?] at found
      | cons c more =>
          simp only [digits?, Option.bind_eq_bind, Option.bind_eq_some_iff] at found
          obtain ⟨d, isDigit, found⟩ := found
          obtain ⟨inside, rest, rfl, length, again⟩ := ih found
          refine ⟨c :: inside, rest, rfl, by rw [List.length_cons, length], fun tail => ?_⟩
          rw [List.cons_append]
          simp only [digits?, isDigit, Option.bind_eq_bind, Option.bind_some, again]

theorem escape?_cut {points : List CodePoint} {bytes : Text} {used : Nat}
    (found : escape? points = some (bytes, used)) :
    ∃ inside rest, points = inside ++ rest ∧ inside.length = used ∧
      ∀ tail, escape? (inside ++ tail) = some (bytes, used) := by
  cases points with
  | nil => simp [escape?] at found
  | cons c more =>
      obtain ⟨value, written⟩ := c
      unfold escape? at found
      simp only [Option.bind_eq_bind] at found
      split at found
      case h_10 | h_11 | h_12 =>
        obtain ⟨v, read, made⟩ := Option.bind_eq_some_iff.mp found
        obtain ⟨inside, rest, rfl, length, again⟩ := digits?_cut read
        refine ⟨_ :: inside, rest, rfl, ?_, fun tail => ?_⟩
        · simp only [Option.ite_none_right_eq_some, Option.some.injEq, Prod.mk.injEq] at made
          rw [List.length_cons, length]
          omega
        · exact Option.bind_eq_some_iff.mpr ⟨v, again tail, made⟩
      case h_13 =>
        obtain ⟨v, read, made⟩ := Option.bind_eq_some_iff.mp found
        obtain ⟨inside, rest, split, length, again⟩ := digits?_cut read
        obtain ⟨d, others, rfl⟩ := List.exists_cons_of_length_eq_add_one length
        rw [List.cons_append, List.cons.injEq] at split
        obtain ⟨rfl, rfl⟩ := split
        refine ⟨_ :: others, rest, rfl, ?_, fun tail => ?_⟩
        · simp only [Option.ite_none_right_eq_some, Option.some.injEq, Prod.mk.injEq] at made
          omega
        · have octal := again tail
          rw [List.cons_append] at octal ⊢
          unfold escape?
          simp [*]
      all_goals
        simp only [Option.some.injEq, Prod.mk.injEq] at found
        obtain ⟨rfl, rfl⟩ := found
        exact ⟨[_], more, rfl, rfl, fun tail => rfl⟩

/-- What is read up to the closing quote is read the same whatever comes after it. -/
theorem decode?_cut {points : List CodePoint} {text : Text} {used : Nat}
    (found : decode? points = some (text, used)) :
    ∃ inside rest, points = inside ++ rest ∧ inside.length = used ∧
      ∀ tail, decode? (inside ++ tail) = some (text, used) := by
  fun_induction decode? points generalizing text used with
  | case1 => simp at found
  | case2 c rest quote =>
      simp only [Option.some.injEq, Prod.mk.injEq] at found
      obtain ⟨rfl, rfl⟩ := found
      refine ⟨[c], rest, rfl, rfl, fun tail => ?_⟩
      rw [List.singleton_append, decode?, if_pos quote]
  | case3 => simp at found
  | case4 => simp at found
  | case5 => simp at found
  | case6 c rest _ _ slash bytes width escaped later more decoded ih =>
      obtain ⟨rfl, rfl⟩ := Prod.mk.inj (Option.some.inj found)
      obtain ⟨mark, others, rfl, rfl, again⟩ := escape?_cut escaped
      rw [List.drop_left] at decoded ih
      obtain ⟨inside, left, rfl, rfl, behind⟩ := ih decoded
      refine ⟨c :: (mark ++ inside), left, by simp, by simp; omega, fun tail => ?_⟩
      rw [List.cons_append, List.append_assoc, decode?_escape slash (again _), behind]
      simp
      omega
  | case7 => simp at found
  | case8 c rest quote line slash later more decoded ih =>
      obtain ⟨rfl, rfl⟩ := Prod.mk.inj (Option.some.inj found)
      obtain ⟨inside, left, rfl, rfl, behind⟩ := ih decoded
      refine ⟨c :: inside, left, rfl, by rw [List.length_cons, Nat.add_comm], fun tail => ?_⟩
      rw [List.cons_append, decode?_plain _ quote line slash, behind]
      rfl

theorem decode?_append {inside : List CodePoint} {text : Text}
    (found : decode? inside = some (text, inside.length)) (tail : List CodePoint) :
    decode? (inside ++ tail) = some (text, inside.length) := by
  obtain ⟨all, left, split, length, again⟩ := decode?_cut found
  have nothing : left = [] := by
    have count := congrArg List.length split
    rw [List.length_append] at count
    exact List.length_eq_zero_iff.mp (by omega)
  rw [nothing, List.append_nil] at split
  rw [split] at again ⊢
  exact again tail

end Quoted

namespace Source

open Text CodePoint

/-! ## Numbers -/

structure AreDigits (points : List CodePoint) : Prop where
  present : points ≠ []
  all : ∀ c ∈ points, isDigitPoint c

inductive FractionPart : List CodePoint → Prop
  | absent : FractionPart []
  | digits {c : CodePoint} {digits : List CodePoint} : c.value = 46 → AreDigits digits →
      FractionPart (c :: digits)

inductive ExponentPart : List CodePoint → Prop
  | absent : ExponentPart []
  | plain {c : CodePoint} {digits : List CodePoint} : c.value = 101 ∨ c.value = 69 →
      AreDigits digits → ExponentPart (c :: digits)
  | signed {c sign : CodePoint} {digits : List CodePoint} : c.value = 101 ∨ c.value = 69 →
      sign.value = 43 ∨ sign.value = 45 → AreDigits digits → ExponentPart (c :: sign :: digits)

inductive MinusPart : List CodePoint → Prop
  | absent : MinusPart []
  | minus {c : CodePoint} : c.value = 45 → MinusPart [c]

def numberKind (fraction exponent : Nat) : TokenKind :=
  if fraction + exponent = 0 then .int else .float

inductive IsNumber : List CodePoint → TokenKind → Prop
  | mk {minus whole fraction exponent : List CodePoint} : MinusPart minus → AreDigits whole →
      FractionPart fraction → ExponentPart exponent →
      IsNumber (minus ++ (whole ++ (fraction ++ exponent)))
        (numberKind fraction.length exponent.length)

section Numbers

variable {whole fraction exponent rest : List CodePoint}

theorem digitRun_digits {digits : List CodePoint} (all : ∀ c ∈ digits, isDigitPoint c)
    (rest : List CodePoint) : digitRun (digits ++ rest) = digits.length + digitRun rest := by
  rw [digitRun, List.takeWhile_append_of_pos all, List.length_append, digitRun]

theorem digitRun_eq_zero (ends : ∀ c ∈ rest.head?, isDigitPoint c = false) :
    digitRun rest = 0 := by
  cases rest with
  | nil => rfl
  | cons c more => simp [digitRun, ends c rfl]

theorem digitRun_cut (points : List CodePoint) :
    ∃ digits rest, points = digits ++ rest ∧ digits.length = digitRun points ∧
      ∀ c ∈ digits, isDigitPoint c :=
  ⟨points.takeWhile isDigitPoint, points.dropWhile isDigitPoint,
    List.takeWhile_append_dropWhile.symm, rfl, List.all_eq_true.mp List.all_takeWhile⟩

theorem isDigitPoint_iff {c : CodePoint} : isDigitPoint c ↔ 48 ≤ c.value ∧ c.value ≤ 57 := by
  simp [isDigitPoint, isAsciiDigit]

theorem not_digit_of_value {c : CodePoint} (outside : c.value < 48 ∨ 57 < c.value) :
    isDigitPoint c = false := by
  rw [← Bool.not_eq_true, isDigitPoint_iff]
  omega

theorem digitRun_mark {c : CodePoint} (outside : c.value < 48 ∨ 57 < c.value)
    (rest : List CodePoint) : digitRun (c :: rest) = 0 := by
  refine digitRun_eq_zero fun d isHead => ?_
  obtain rfl := Option.mem_some_iff.mp isHead
  exact not_digit_of_value outside

theorem fractionLength_digits {c : CodePoint} {digits : List CodePoint} (mark : c.value = 46)
    (areDigits : AreDigits digits) (rest : List CodePoint) :
    fractionLength (c :: (digits ++ rest)) = 1 + digits.length + digitRun rest := by
  have present : digits.length ≠ 0 := by simpa using areDigits.present
  rw [fractionLength, digitRun_digits areDigits.all, if_pos ⟨mark, by omega⟩, Nat.add_assoc]

theorem fractionLength_eq_zero (ends : ∀ c ∈ rest.head?, c.value ≠ 46) :
    fractionLength rest = 0 := by
  cases rest with
  | nil => rfl
  | cons c more => rw [fractionLength, if_neg fun mark => ends c rfl mark.1]

theorem fractionLength_cut (points : List CodePoint) :
    ∃ fraction rest, points = fraction ++ rest ∧ fraction.length = fractionLength points ∧
      FractionPart fraction := by
  cases points with
  | nil => exact ⟨[], [], rfl, rfl, .absent⟩
  | cons c more =>
      rw [fractionLength]
      split
      · rename_i marked
        obtain ⟨digits, rest, rfl, length, all⟩ := digitRun_cut more
        refine ⟨c :: digits, rest, rfl, ?_, .digits marked.1 ⟨?_, all⟩⟩
        · rw [List.length_cons, length, Nat.add_comm]
        · rintro rfl
          exact marked.2 length.symm
      · exact ⟨[], c :: more, rfl, rfl, .absent⟩

theorem exponentLength_plain {c : CodePoint} {digits : List CodePoint}
    (mark : c.value = 101 ∨ c.value = 69) (areDigits : AreDigits digits) (rest : List CodePoint) :
    exponentLength (c :: (digits ++ rest)) = 1 + digits.length + digitRun rest := by
  obtain ⟨present, all⟩ := areDigits
  cases digits with
  | nil => exact absurd rfl present
  | cons d more =>
      have noSign : ¬ (d.value = 43 ∨ d.value = 45) := by
        have digit := isDigitPoint_iff.mp (all d (List.mem_cons_self ..))
        omega
      have run := digitRun_digits all rest
      rw [List.length_cons] at run
      simp only [exponentLength, if_pos mark, List.cons_append, if_neg noSign, List.drop_zero]
      rw [← List.cons_append, run, if_neg (by omega), List.length_cons]
      omega

theorem exponentLength_signed {c sign : CodePoint} {digits : List CodePoint}
    (mark : c.value = 101 ∨ c.value = 69) (isSign : sign.value = 43 ∨ sign.value = 45)
    (areDigits : AreDigits digits) (rest : List CodePoint) :
    exponentLength (c :: sign :: (digits ++ rest)) = 2 + digits.length + digitRun rest := by
  have present : digits.length ≠ 0 := by simpa using areDigits.present
  simp only [exponentLength, if_pos mark, if_pos isSign, List.drop_succ_cons, List.drop_zero,
    digitRun_digits areDigits.all]
  rw [if_neg (by omega)]
  omega

theorem ExponentPart.length_eq (part : ExponentPart exponent) (present : exponent ≠ [])
    (rest : List CodePoint) :
    exponentLength (exponent ++ rest) = exponent.length + digitRun rest := by
  cases part with
  | absent => exact absurd rfl present
  | plain mark digits =>
      rw [List.cons_append, exponentLength_plain mark digits, List.length_cons]
      omega
  | signed mark sign digits =>
      rw [List.cons_append, List.cons_append, exponentLength_signed mark sign digits,
        List.length_cons, List.length_cons]
      omega

theorem ExponentPart.head (part : ExponentPart exponent) (present : exponent ≠ [])
    (rest : List CodePoint) :
    ∀ c ∈ (exponent ++ rest).head?, isDigitPoint c = false ∧ c.value ≠ 46 := by
  cases part with
  | absent => exact absurd rfl present
  | plain mark =>
      intro c isHead
      obtain rfl := Option.mem_some_iff.mp isHead
      exact ⟨not_digit_of_value (by omega), by omega⟩
  | signed mark =>
      intro c isHead
      obtain rfl := Option.mem_some_iff.mp isHead
      exact ⟨not_digit_of_value (by omega), by omega⟩

theorem exponentLength_eq_zero (apart : Apart rest) : exponentLength rest = 0 := by
  have none := exponentLength_eq .none apart
  rwa [points, List.map_nil, List.nil_append] at none

theorem exponentLength_cut (points : List CodePoint) :
    ∃ exponent rest, points = exponent ++ rest ∧ exponent.length = exponentLength points ∧
      ExponentPart exponent := by
  have nothing : ∃ exponent rest, points = exponent ++ rest ∧ exponent.length = 0 ∧
      ExponentPart exponent := ⟨[], points, rfl, rfl, .absent⟩
  cases points with
  | nil => exact nothing
  | cons c more =>
      by_cases mark : c.value = 101 ∨ c.value = 69
      case neg => simpa only [exponentLength, if_neg mark] using nothing
      obtain ⟨digits, rest, split, length, all⟩ := digitRun_cut more
      cases more with
      | nil => simpa [exponentLength, digitRun] using nothing
      | cons d others =>
          by_cases sign : d.value = 43 ∨ d.value = 45
          · obtain ⟨digits, rest, rfl, length, all⟩ := digitRun_cut others
            simp only [exponentLength, if_pos mark, if_pos sign, List.drop_succ_cons,
              List.drop_zero, ← length]
            split
            · exact nothing
            · rename_i some
              refine ⟨c :: d :: digits, rest, rfl, ?_, .signed mark sign ⟨?_, all⟩⟩
              · simp only [List.length_cons]
                omega
              · simpa using some
          · simp only [exponentLength, if_pos mark, if_neg sign, List.drop_zero, ← length]
            split
            · exact nothing
            · rename_i some
              refine ⟨c :: digits, rest, by rw [split, List.cons_append], ?_, .plain mark ⟨?_, all⟩⟩
              · rw [List.length_cons]
                omega
              · simpa using some

open IsNumeral (scanFrom scanNumber_cons)

theorem scanFrom_append (minus points : List CodePoint) :
    scanFrom minus.length (minus ++ points) =
      (scanFrom 0 points).map fun found => (found.1, minus.length + found.2) := by
  have past : ∀ n, (minus ++ points).drop (minus.length + n) = points.drop n := fun n => by
    rw [← List.drop_drop, List.drop_left]
  simp only [scanFrom, List.drop_left, List.drop_zero, Nat.add_assoc, Nat.zero_add, past]
  split <;> rfl

/-- The sign of a number is a minus, and what comes after it is scanned without a sign. -/
theorem scanNumber_cut (points : List CodePoint) :
    ∃ minus rest, points = minus ++ rest ∧ MinusPart minus ∧
      scanNumber points = (scanFrom 0 rest).map fun found => (found.1, minus.length + found.2) := by
  cases points with
  | nil => exact ⟨[], [], rfl, .absent, rfl⟩
  | cons c rest =>
      rw [scanNumber_cons]
      by_cases minus : c.value = 45
      · refine ⟨[c], rest, rfl, .minus minus, ?_⟩
        rw [if_pos minus, ← scanFrom_append]
        rfl
      · refine ⟨[], c :: rest, rfl, .absent, ?_⟩
        rw [if_neg minus, ← scanFrom_append]
        rfl

theorem scanNumber_minus {minus : List CodePoint} (part : MinusPart minus)
    (digits : AreDigits whole) (rest : List CodePoint) :
    scanNumber (minus ++ (whole ++ rest)) =
      (scanFrom 0 (whole ++ rest)).map fun found => (found.1, minus.length + found.2) := by
  rw [← scanFrom_append]
  cases part with
  | minus isMinus =>
      rw [List.singleton_append, scanNumber_cons, if_pos isMinus]
      rfl
  | absent =>
      obtain ⟨present, all⟩ := digits
      cases whole with
      | nil => exact absurd rfl present
      | cons d more =>
          have digit := isDigitPoint_iff.mp (all d (List.mem_cons_self ..))
          rw [List.nil_append, List.cons_append, scanNumber_cons, if_neg (by omega)]
          rfl

theorem scanFrom_digits (digits : AreDigits whole) (ends : digitRun rest = 0) :
    scanFrom 0 (whole ++ rest) =
      some (numberKind (fractionLength rest) (exponentLength (rest.drop (fractionLength rest))),
        whole.length + fractionLength rest +
          exponentLength (rest.drop (fractionLength rest))) := by
  have present : whole.length ≠ 0 := by simpa using digits.present
  simp only [scanFrom, List.drop_zero, digitRun_digits digits.all, ends, Nat.add_zero,
    Nat.zero_add, if_neg present, List.drop_left, ← List.drop_drop, numberKind]

theorem isNumber_of_scanNumber {points : List CodePoint} {kind : TokenKind} {length : Nat}
    (found : scanNumber points = some (kind, length)) :
    ∃ number rest, points = number ++ rest ∧ number.length = length ∧ IsNumber number kind := by
  obtain ⟨minus, unsigned, rfl, isMinus, scanned⟩ := scanNumber_cut points
  obtain ⟨whole, rest, rfl, wholeLength, all⟩ := digitRun_cut unsigned
  have ends : digitRun rest = 0 := by
    have run := digitRun_digits all rest
    omega
  rw [scanned] at found
  have present : whole ≠ [] := by
    rintro rfl
    simp [scanFrom, ends] at found
  rw [scanFrom_digits ⟨present, all⟩ ends] at found
  obtain ⟨fraction, others, rfl, fractionLength, isFraction⟩ := fractionLength_cut rest
  rw [← fractionLength, List.drop_left] at found
  obtain ⟨exponent, left, rfl, exponentLength, isExponent⟩ := exponentLength_cut others
  rw [← exponentLength, Option.map_some, Option.some.injEq, Prod.mk.injEq] at found
  obtain ⟨rfl, rfl⟩ := found
  refine ⟨minus ++ (whole ++ (fraction ++ exponent)), left, ?_, ?_,
    .mk isMinus ⟨present, all⟩ isFraction isExponent⟩
  · simp only [List.append_assoc]
  · simp only [List.length_append]
    omega

theorem FractionPart.scanFrom_eq (digits : AreDigits whole) (part : FractionPart fraction)
    (ends : ∀ c ∈ rest.head?, isDigitPoint c = false ∧ c.value ≠ 46) :
    scanFrom 0 (whole ++ (fraction ++ rest)) =
      some (numberKind fraction.length (exponentLength rest),
        whole.length + fraction.length + exponentLength rest) := by
  have run : digitRun rest = 0 := digitRun_eq_zero fun c isHead => (ends c isHead).1
  cases part with
  | absent =>
      have none : fractionLength rest = 0 := fractionLength_eq_zero fun c isHead => (ends c isHead).2
      rw [List.nil_append, scanFrom_digits digits run, none]
      rfl
  | @digits c part mark areDigits =>
      have stop : digitRun (c :: part ++ rest) = 0 := digitRun_mark (by omega) _
      have length : fractionLength (c :: part ++ rest) = (c :: part).length := by
        rw [List.cons_append, fractionLength_digits mark areDigits, run, List.length_cons]
        omega
      rw [scanFrom_digits digits stop, length, List.drop_left]

/-- A number is scanned as a whole when nothing after it could continue it. -/
theorem scanNumber_of_isNumber {number : List CodePoint} {kind : TokenKind}
    (isNumber : IsNumber number kind) (apart : Apart rest) :
    scanNumber (number ++ rest) = some (kind, number.length) := by
  obtain @⟨minus, whole, fraction, exponent, isMinus, digits, isFraction, isExponent⟩ := isNumber
  have ends : ∀ c ∈ (exponent ++ rest).head?, isDigitPoint c = false ∧ c.value ≠ 46 := by
    by_cases bare : exponent = []
    · rw [bare, List.nil_append]
      exact fun c isHead => ⟨apart.no_digit c isHead, (apart c isHead).2⟩
    · exact isExponent.head bare rest
  have length : exponentLength (exponent ++ rest) = exponent.length := by
    by_cases bare : exponent = []
    · rw [bare, List.nil_append]
      exact exponentLength_eq_zero apart
    · rw [isExponent.length_eq bare, digitRun_eq_zero apart.no_digit, Nat.add_zero]
  simp only [List.append_assoc]
  rw [scanNumber_minus isMinus digits, isFraction.scanFrom_eq digits ends, length, Option.map_some]
  simp only [List.length_append, Nat.add_assoc]

theorem scanFrom_longest (digits : AreDigits whole) (isFraction : FractionPart fraction)
    (isExponent : ExponentPart exponent) {kind : TokenKind} {length : Nat}
    (found : scanFrom 0 (whole ++ (fraction ++ (exponent ++ rest))) = some (kind, length)) :
    whole.length + fraction.length + exponent.length ≤ length := by
  by_cases bare : exponent = []
  · subst bare
    rw [List.nil_append] at found
    cases isFraction with
    | absent =>
        -- the digits that follow belong to the whole part
        rw [List.nil_append] at found
        obtain ⟨more, left, rfl, _, all⟩ := digitRun_cut rest
        have run := digitRun_digits all left
        have longer : AreDigits (whole ++ more) :=
          ⟨by simp [digits.present], List.forall_mem_append.mpr ⟨digits.all, all⟩⟩
        rw [← List.append_assoc, scanFrom_digits longer (by omega), Option.some.injEq,
          Prod.mk.injEq, List.length_append] at found
        simp only [List.length_nil]
        omega
    | @digits c part mark areDigits =>
        have stop : digitRun (c :: part ++ rest) = 0 := digitRun_mark (by omega) _
        have decimals := fractionLength_digits mark areDigits rest
        rw [scanFrom_digits digits stop, Option.some.injEq, Prod.mk.injEq, List.cons_append,
          decimals] at found
        simp only [List.length_cons, List.length_nil]
        omega
  · rw [isFraction.scanFrom_eq digits (isExponent.head bare rest), isExponent.length_eq bare,
      Option.some.injEq, Prod.mk.injEq] at found
    omega

theorem length_le_of_isNumber {number : List CodePoint} {kind found : TokenKind} {length : Nat}
    (isNumber : IsNumber number kind)
    (scanned : scanNumber (number ++ rest) = some (found, length)) : number.length ≤ length := by
  obtain ⟨isMinus, digits, isFraction, isExponent⟩ := isNumber
  simp only [List.append_assoc] at scanned
  rw [scanNumber_minus isMinus digits, Option.map_eq_some_iff] at scanned
  obtain ⟨⟨kind, unsigned⟩, scanned, same⟩ := scanned
  have longest := scanFrom_longest digits isFraction isExponent scanned
  simp only [Prod.mk.injEq] at same
  simp only [List.length_append]
  omega

end Numbers

/-! ## Tokens -/

inductive Lexeme : List CodePoint → TokenKind → Text → Prop
  | name {c : CodePoint} {inside : List CodePoint} : c.value = 95 ∨ isLetter c.value →
      inside.all isNamePoint → Lexeme (c :: inside) .ident (ofCodePoints (c :: inside))
  | lifetime {c : CodePoint} {inside : List CodePoint} : c.value = 39 → inside ≠ [] →
      inside.all isNamePoint → Lexeme (c :: inside) .lifetime (ofCodePoints inside)
  | string {c : CodePoint} {inside : List CodePoint} {text : Text} : c.value = 34 →
      Quoted.decode? inside = some (text, inside.length) → Lexeme (c :: inside) .string text
  | arrow {c d : CodePoint} : c.value = 45 → d.value = 62 → Lexeme [c, d] .punct "->"
  | path {c d : CodePoint} : c.value = 58 → d.value = 58 → Lexeme [c, d] .punct "::"
  | number {points : List CodePoint} {kind : TokenKind} : IsNumber points kind →
      Lexeme points kind (ofCodePoints points)
  | symbol {c : CodePoint} : isSymbol c.value → Lexeme [c] .punct c.bytes

def Parted (rest : List CodePoint) : Prop := ∀ c ∈ rest.head?, isBlank c.value

theorem Parted.apart {rest : List CodePoint} (parted : Parted rest) : Apart rest := by
  intro c isHead
  have blank := parted c isHead
  constructor
  · by_contra name
    rw [solid_of_isNamePoint (by simpa using name)] at blank
    exact Bool.false_ne_true blank
  · intro same
    rw [same] at blank
    exact absurd blank (by decide)

theorem Parted.nextIs_eq_false {rest : List CodePoint} (parted : Parted rest) {value : Nat}
    (solid : isBlank value = false) : nextIs value rest = false := by
  cases rest with
  | nil => rfl
  | cons c more =>
      have blank := parted c rfl
      rw [nextIs, beq_eq_false_iff_ne]
      intro same
      rw [same, solid] at blank
      exact Bool.false_ne_true blank

section Scanning

variable {pos : Nat} {c : CodePoint} {inside rest : List CodePoint} {kind : TokenKind} {text : Text}

theorem scan_lifetime (quote : c.value = 39) (rest : List CodePoint) :
    scan pos c rest =
      if (rest.takeWhile isNamePoint).isEmpty then .error (.emptyLifetime pos)
      else .ok (.lifetime, ofCodePoints (rest.takeWhile isNamePoint),
        (rest.takeWhile isNamePoint).length) := by
  have letters : ¬ (c.value = 95 ∨ isLetter c.value) := by rw [quote]; decide
  rw [scan, if_neg letters, if_pos quote]

theorem scan_arrow (minus : c.value = 45) (next : nextIs 62 rest) :
    scan pos c rest = .ok (.punct, "->", 1) := by
  have letters : ¬ (c.value = 95 ∨ isLetter c.value) := by rw [minus]; decide
  rw [scan, if_neg letters, if_neg (by omega), if_neg (by omega), if_pos ⟨minus, next⟩]

theorem scan_path (colon : c.value = 58) (next : nextIs 58 rest) :
    scan pos c rest = .ok (.punct, "::", 1) := by
  have letters : ¬ (c.value = 95 ∨ isLetter c.value) := by rw [colon]; decide
  rw [scan, if_neg letters, if_neg (by omega), if_neg (by omega), if_neg (by omega),
    if_pos ⟨colon, next⟩]

theorem scan_string (quote : c.value = 34) {used : Nat}
    (reads : Quoted.decode? rest = some (text, used)) :
    scan pos c rest = .ok (.string, text, used) := by
  have letters : ¬ (c.value = 95 ∨ isLetter c.value) := by rw [quote]; decide
  rw [scan, if_neg letters, if_neg (by omega), if_pos quote, reads]

inductive StartsNumber : List CodePoint → Prop
  | digit {c : CodePoint} {rest : List CodePoint} : isDigitPoint c → StartsNumber (c :: rest)
  | minus {c d : CodePoint} {rest : List CodePoint} : c.value = 45 → isDigitPoint d →
      StartsNumber (c :: d :: rest)

theorem IsNumber.starts {points : List CodePoint} (isNumber : IsNumber points kind)
    (rest : List CodePoint) : StartsNumber (points ++ rest) := by
  obtain @⟨minus, whole, _, _, isMinus, digits, _, _⟩ := isNumber
  cases whole with
  | nil => exact absurd rfl digits.present
  | cons d more =>
      have digit := digits.all d (List.mem_cons_self ..)
      cases isMinus with
      | absent => exact .digit digit
      | minus isMinus => exact .minus isMinus digit

theorem IsNumber.ne_nil {points : List CodePoint} (isNumber : IsNumber points kind) :
    points ≠ [] := by
  intro empty
  have starts := isNumber.starts []
  rw [empty] at starts
  cases starts

theorem IsNumber.kind_eq {points : List CodePoint} (isNumber : IsNumber points kind) :
    kind = .int ∨ kind = .float := by
  cases isNumber with
  | mk => exact ite_eq_or_eq ..

theorem scan_startsNumber (starts : StartsNumber (c :: rest)) :
    scan pos c rest =
      (scanNumber (c :: rest)).elim (.error (.unexpectedCharacter pos c.value)) fun found =>
        .ok (found.1, ofCodePoints ((c :: rest).take found.2), found.2 - 1) := by
  have value : c.value = 45 ∨ 48 ≤ c.value ∧ c.value ≤ 57 := by
    cases starts with
    | digit digit => exact .inr (isDigitPoint_iff.mp digit)
    | minus minus => exact .inl minus
  have ascii : c.value < 0x80 := by omega
  have noName : ¬ (c.value = 95 ∨ isLetter c.value) := by
    simp only [isLetter, if_pos ascii, isAsciiLetter, Bool.or_eq_true, Bool.and_eq_true,
      decide_eq_true_eq]
    omega
  have noArrow : ¬ (c.value = 45 ∧ nextIs 62 rest) := by
    rintro ⟨minus, arrow⟩
    cases starts with
    | digit digit =>
        rw [isDigitPoint_iff] at digit
        omega
    | @minus _ d more _ digit =>
        rw [isDigitPoint_iff] at digit
        rw [nextIs, beq_iff_eq] at arrow
        omega
  have isNumber : c.value = 45 ∨ isDecimal c.value := by
    simp only [isDecimal, if_pos ascii, isAsciiDigit, Bool.and_eq_true, decide_eq_true_eq]
    exact value
  rw [scan, if_neg noName, if_neg (by omega), if_neg (by omega), if_neg noArrow,
    if_neg (by omega), if_pos isNumber]
  cases scanNumber (c :: rest) <;> rfl

theorem isSymbol_iff {v : Nat} : isSymbol v ↔
    v ∈ [38, 42, 33, 40, 41, 91, 93, 44, 58, 61] := by
  have all : Text.ofString "&*!()[],:=" = [38, 42, 33, 40, 41, 91, 93, 44, 58, 61] := by decide
  simp only [isSymbol, all, List.any_cons, List.any_nil, Bool.or_false, Bool.or_eq_true,
    beq_iff_eq, UInt8.reduceToNat, List.mem_cons, List.not_mem_nil, or_false]
  omega

/-- A symbol starts neither a name nor a number, nor is it white space. -/
theorem plain_of_isSymbol {v : Nat} (one : isSymbol v) :
    ¬ (v = 95 ∨ isLetter v) ∧ ¬ (v = 45 ∨ isDecimal v) ∧ isBlank v = false ∧ v ≠ 39 ∧ v ≠ 34 := by
  have all : ∀ v ∈ [38, 42, 33, 40, 41, 91, 93, 44, 58, 61], ¬ (v = 95 ∨ isLetter v) ∧
      ¬ (v = 45 ∨ isDecimal v) ∧ isBlank v = false ∧ v ≠ 39 ∧ v ≠ 34 := by decide
  exact all v (isSymbol_iff.mp one)

/-- A token is scanned as a whole when white space or nothing comes after it. -/
theorem Lexeme.scan_eq (lexeme : Lexeme (c :: inside) kind text) (parted : Parted rest) :
    scan pos c (inside ++ rest) = .ok (kind, text, inside.length) := by
  cases lexeme with
  | name starts all => exact scan_name pos starts all parted.apart
  | lifetime quote present all =>
      rw [scan_lifetime quote, takeWhile_append_apart all parted.apart, if_neg (by simpa using present)]
  | string quote reads => exact scan_string quote (Quoted.decode?_append reads rest)
  | arrow minus angle => exact scan_arrow minus (by simpa [nextIs] using angle)
  | path first second => exact scan_path first (by simpa [nextIs] using second)
  | number isNumber =>
      have found := scanNumber_of_isNumber isNumber parted.apart
      have starts := isNumber.starts rest
      rw [List.cons_append] at found starts
      rw [scan_startsNumber starts, found, Option.elim_some, ← List.cons_append, List.take_left]
      rfl
  | symbol one =>
      have noPath : nextIs 58 rest = false := parted.nextIs_eq_false (by decide)
      obtain ⟨noName, noNumber, _, noLifetime, noString⟩ := plain_of_isSymbol one
      rw [scan, if_neg noName, if_neg noLifetime, if_neg noString,
        if_neg fun arrow => noNumber (.inl arrow.1), List.nil_append, if_neg (by simp [noPath]),
        if_neg noNumber, if_pos one]
      rfl

/-- What is scanned at the front of a line is a token. -/
theorem lexeme_of_scan {extra : Nat} (scanned : scan pos c rest = .ok (kind, text, extra)) :
    ∃ inside left, rest = inside ++ left ∧ inside.length = extra ∧
      Lexeme (c :: inside) kind text := by
  have names : rest = rest.takeWhile isNamePoint ++ rest.dropWhile isNamePoint :=
    List.takeWhile_append_dropWhile.symm
  unfold scan at scanned
  split at scanned
  case isTrue starts =>
    simp only [Except.ok.injEq, Prod.mk.injEq] at scanned
    obtain ⟨rfl, rfl, rfl⟩ := scanned
    exact ⟨_, _, names, rfl, .name starts List.all_takeWhile⟩
  split at scanned
  case isTrue quote =>
    dsimp only at scanned
    split at scanned
    case isTrue => simp at scanned
    case isFalse present =>
      simp only [Except.ok.injEq, Prod.mk.injEq] at scanned
      obtain ⟨rfl, rfl, rfl⟩ := scanned
      exact ⟨_, _, names, rfl, .lifetime quote (by simpa using present) List.all_takeWhile⟩
  split at scanned
  case isTrue quote =>
    split at scanned
    case h_2 => simp at scanned
    case h_1 found =>
      simp only [Except.ok.injEq, Prod.mk.injEq] at scanned
      obtain ⟨rfl, rfl, rfl⟩ := scanned
      obtain ⟨inside, left, split, length, again⟩ := Quoted.decode?_cut found
      have alone := again []
      rw [List.append_nil, ← length] at alone
      exact ⟨inside, left, split, length, .string quote alone⟩
  split at scanned
  case isTrue arrow =>
    simp only [Except.ok.injEq, Prod.mk.injEq] at scanned
    obtain ⟨rfl, rfl, rfl⟩ := scanned
    cases rest with
    | nil => simp [nextIs] at arrow
    | cons d left =>
        exact ⟨[d], left, rfl, rfl, .arrow arrow.1 (by simpa [nextIs] using arrow.2)⟩
  split at scanned
  case isTrue path =>
    simp only [Except.ok.injEq, Prod.mk.injEq] at scanned
    obtain ⟨rfl, rfl, rfl⟩ := scanned
    cases rest with
    | nil => simp [nextIs] at path
    | cons d left =>
        exact ⟨[d], left, rfl, rfl, .path path.1 (by simpa [nextIs] using path.2)⟩
  split at scanned
  case isTrue =>
    split at scanned
    case h_2 => simp at scanned
    case h_1 found =>
      simp only [Except.ok.injEq, Prod.mk.injEq] at scanned
      obtain ⟨rfl, rfl, rfl⟩ := scanned
      obtain ⟨number, left, split, rfl, isNumber⟩ := isNumber_of_scanNumber found
      cases number with
      | nil => exact absurd rfl isNumber.ne_nil
      | cons d inside =>
          rw [split, List.take_left]
          rw [List.cons_append, List.cons.injEq] at split
          obtain ⟨rfl, rfl⟩ := split
          exact ⟨inside, left, rfl, rfl, .number isNumber⟩
  split at scanned
  case isTrue one =>
    simp only [Except.ok.injEq, Prod.mk.injEq] at scanned
    obtain ⟨rfl, rfl, rfl⟩ := scanned
    exact ⟨[], rest, rfl, rfl, .symbol one⟩
  case isFalse => simp at scanned

/-- No longer run at the front of a line is a token than the one that is scanned. -/
theorem Lexeme.length_le (lexeme : Lexeme (c :: inside) kind text) {found : TokenKind × Text × Nat}
    (scanned : scan pos c (inside ++ rest) = .ok found) : inside.length ≤ found.2.2 := by
  cases lexeme with
  | name starts all =>
      rw [scan, if_pos starts, Except.ok.injEq] at scanned
      rw [← scanned, List.takeWhile_append_of_pos (List.all_eq_true.mp all), List.length_append]
      exact Nat.le_add_right ..
  | lifetime quote present all =>
      rw [scan_lifetime quote, List.takeWhile_append_of_pos (List.all_eq_true.mp all),
        if_neg (by simp [present]), Except.ok.injEq] at scanned
      rw [← scanned, List.length_append]
      exact Nat.le_add_right ..
  | string quote reads =>
      rw [scan_string quote (Quoted.decode?_append reads rest), Except.ok.injEq] at scanned
      rw [← scanned]
  | arrow minus angle =>
      rw [scan_arrow minus (by simpa [nextIs] using angle), Except.ok.injEq] at scanned
      rw [← scanned, List.length_singleton]
  | path first second =>
      rw [scan_path first (by simpa [nextIs] using second), Except.ok.injEq] at scanned
      rw [← scanned, List.length_singleton]
  | number isNumber =>
      have starts := isNumber.starts rest
      rw [List.cons_append] at starts
      rw [scan_startsNumber starts] at scanned
      cases number : scanNumber (c :: (inside ++ rest)) with
      | none => simp [number] at scanned
      | some taken =>
          have longest := length_le_of_isNumber isNumber number
          rw [number, Option.elim_some, Except.ok.injEq] at scanned
          rw [List.length_cons] at longest
          rw [← scanned]
          change inside.length ≤ taken.2 - 1
          omega
  | symbol one => exact Nat.zero_le _

theorem Lexeme.ne_nil {points : List CodePoint} (lexeme : Lexeme points kind text) :
    points ≠ [] := by
  rintro rfl
  cases lexeme with
  | number isNumber => exact absurd rfl isNumber.ne_nil

/-- No token starts with white space. -/
theorem Lexeme.solid (lexeme : Lexeme (c :: inside) kind text) : isBlank c.value = false := by
  cases lexeme with
  | name starts => exact solid_of_isNamePoint (isNamePoint_of_starts starts)
  | lifetime quote => rw [quote]; decide
  | string quote => rw [quote]; decide
  | arrow minus => rw [minus]; decide
  | path colon => rw [colon]; decide
  | number isNumber =>
      have starts := isNumber.starts []
      rw [List.append_nil] at starts
      cases starts with
      | digit digit => exact solid_of_isNamePoint (isNamePoint_of_isDigitPoint digit)
      | minus minus => rw [minus]; decide
  | symbol one => exact (plain_of_isSymbol one).2.2.1

/-- The tokens in front of the mark at the end of a line are runs of its code points. -/
theorem lexFrom_lexemes {points : List CodePoint} {tokens : List Token}
    (lexed : lexFrom pos points = .ok tokens) :
    ∃ line stop, tokens = line ++ [stop] ∧ stop.kind = .eof ∧ stop.text = [] ∧
      ∀ t ∈ line, ∃ run, run ⊆ points ∧ Lexeme run t.kind t.text := by
  fun_induction lexFrom pos points generalizing tokens with
  | case1 pos =>
      obtain rfl := Except.ok.inj lexed
      exact ⟨[], _, rfl, rfl, rfl, List.forall_mem_nil _⟩
  | case2 pos c rest _ ih =>
      obtain ⟨line, stop, cut, ends, empty, each⟩ := ih lexed
      refine ⟨line, stop, cut, ends, empty, fun t member => ?_⟩
      obtain ⟨run, within, lexeme⟩ := each t member
      exact ⟨run, List.subset_cons_of_subset c within, lexeme⟩
  | case3 => simp at lexed
  | case4 => simp at lexed
  | case5 pos c rest _ kind text extra scanned _ tokens more =>
      rename_i ih
      obtain rfl := Except.ok.inj lexed
      obtain ⟨line, stop, rfl, ends, empty, each⟩ := ih more
      obtain ⟨inside, left, rfl, rfl, lexeme⟩ := lexeme_of_scan scanned
      refine ⟨_ :: line, stop, rfl, ends, empty, List.forall_mem_cons.mpr ⟨?_, fun t member => ?_⟩⟩
      · exact ⟨c :: inside, List.cons_subset_cons c (List.subset_append_left ..), lexeme⟩
      · obtain ⟨run, within, other⟩ := each t member
        have behind : run ⊆ inside ++ left := List.Subset.trans within (List.drop_subset ..)
        exact ⟨run, List.subset_cons_of_subset c behind, other⟩

end Scanning

end Source

end BorrowChecker
