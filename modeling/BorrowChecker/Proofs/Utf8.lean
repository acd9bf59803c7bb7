import Mathlib.Tactic
import BorrowChecker.Text.Quoted

/-!
Encoding and reading code points. Every code point that is read carries the bytes it is encoded as,
or is a single byte that starts no sequence; a text of whole code points is read the same whatever
follows it.
-/

namespace BorrowChecker

namespace CodePoint

theorem isContinuation_iff {b : UInt8} : isContinuation b ↔ 0x80 ≤ b.toNat ∧ b.toNat ≤ 0xBF := by
  simp [isContinuation, UInt8.le_iff_toNat_le]

theorem isPair_iff {a b : UInt8} :
    isPair a b ↔ 0xC2 ≤ a.toNat ∧ a.toNat ≤ 0xDF ∧ 0x80 ≤ b.toNat ∧ b.toNat ≤ 0xBF := by
  simp only [isPair, Bool.and_eq_true, isContinuation_iff, decide_eq_true_eq,
    UInt8.le_iff_toNat_le]
  exact and_assoc

theorem isTriple_iff {a b c : UInt8} :
    isTriple a b c ↔ 0xE0 ≤ a.toNat ∧ a.toNat ≤ 0xEF ∧ 0x80 ≤ b.toNat ∧ b.toNat ≤ 0xBF ∧
      0x80 ≤ c.toNat ∧ c.toNat ≤ 0xBF ∧ (a.toNat = 0xE0 → 0xA0 ≤ b.toNat) ∧
      (a.toNat = 0xED → b.toNat ≤ 0x9F) := by
  simp only [isTriple, Bool.and_eq_true, Bool.or_eq_true, isContinuation_iff, decide_eq_true_eq,
    UInt8.le_iff_toNat_le, beq_iff_eq, ← UInt8.toNat_inj, UInt8.reduceToNat]
  omega

theorem isQuadruple_iff {a b c d : UInt8} :
    isQuadruple a b c d ↔ 0xF0 ≤ a.toNat ∧ a.toNat ≤ 0xF4 ∧ 0x80 ≤ b.toNat ∧ b.toNat ≤ 0xBF ∧
      0x80 ≤ c.toNat ∧ c.toNat ≤ 0xBF ∧ 0x80 ≤ d.toNat ∧ d.toNat ≤ 0xBF ∧
      (a.toNat = 0xF0 → 0x90 ≤ b.toNat) ∧ (a.toNat = 0xF4 → b.toNat ≤ 0x8F) := by
  simp only [isQuadruple, Bool.and_eq_true, Bool.or_eq_true, isContinuation_iff, decide_eq_true_eq,
    UInt8.le_iff_toNat_le, beq_iff_eq, ← UInt8.toNat_inj, UInt8.reduceToNat]
  omega

structure IsWhole (c : CodePoint) : Prop where
  scalar : Quoted.isScalar c.value
  bytes : c.bytes = encode c.value

theorem isScalar_iff {v : Nat} :
    Quoted.isScalar v ↔ v < 0xD800 ∨ 0xDFFF < v ∧ v ≤ 0x10FFFF := by
  simp [Quoted.isScalar]

theorem eq_toUInt8 {a : UInt8} {n : Nat} (same : a.toNat = n) : a = n.toUInt8 := by
  subst same
  simp

theorem toNat_toUInt8 {n : Nat} (small : n < 256) : n.toUInt8.toNat = n := by
  simp
  omega

theorem encode_of_ascii {v : Nat} (ascii : v < 0x80) : encode v = [v.toUInt8] := if_pos ascii

theorem encode_of_pair {v : Nat} (low : 0x80 ≤ v) (high : v < 0x800) :
    encode v = [(0xC0 + v / 64).toUInt8, (0x80 + v % 64).toUInt8] := by
  rw [encode, if_neg (by omega), if_pos high]

theorem encode_of_triple {v : Nat} (low : 0x800 ≤ v) (high : v < 0x10000)
    (scalar : Quoted.isScalar v) :
    encode v =
      [(0xE0 + v / 4096).toUInt8, (0x80 + v / 64 % 64).toUInt8, (0x80 + v % 64).toUInt8] := by
  rw [isScalar_iff] at scalar
  rw [encode, if_neg (by omega), if_neg (by omega), if_neg (by simp; omega), if_pos high]

theorem encode_of_quadruple {v : Nat} (low : 0x10000 ≤ v) (scalar : Quoted.isScalar v) :
    encode v = [(0xF0 + v / 262144).toUInt8, (0x80 + v / 4096 % 64).toUInt8,
      (0x80 + v / 64 % 64).toUInt8, (0x80 + v % 64).toUInt8] := by
  rw [isScalar_iff] at scalar
  rw [encode, if_neg (by omega), if_neg (by omega), if_neg (by simp; omega), if_neg (by omega)]

theorem isWhole_ofByte {a : UInt8} (ascii : a.toNat < 0x80) : IsWhole (ofByte a) := by
  have below : a < 0x80 := by simpa [UInt8.lt_iff_toNat_lt] using ascii
  rw [ofByte, if_pos below]
  refine ⟨isScalar_iff.mpr (by simp only; omega), ?_⟩
  rw [encode_of_ascii ascii, ← eq_toUInt8 rfl]

theorem isWhole_pair {a b : UInt8} (pairs : isPair a b) : IsWhole (pair a b) := by
  have bounds := isPair_iff.mp pairs
  have value : (pair a b).value = a.toNat % 32 * 64 + b.toNat % 64 := rfl
  refine ⟨isScalar_iff.mpr (by omega), ?_⟩
  rw [encode_of_pair (by omega) (by omega), pair, ← eq_toUInt8, ← eq_toUInt8]
  · simp only [low]; omega
  · simp only [low]; omega

theorem isWhole_triple {a b c : UInt8} (triples : isTriple a b c) : IsWhole (triple a b c) := by
  have bounds := isTriple_iff.mp triples
  have value : (triple a b c).value = (a.toNat % 16 * 64 + b.toNat % 64) * 64 + c.toNat % 64 := rfl
  have scalar : Quoted.isScalar (triple a b c).value := isScalar_iff.mpr (by omega)
  refine ⟨scalar, ?_⟩
  rw [encode_of_triple (by omega) (by omega) scalar, triple, ← eq_toUInt8, ← eq_toUInt8,
    ← eq_toUInt8]
  · simp only [low]; omega
  · simp only [low]; omega
  · simp only [low]; omega

theorem isWhole_quadruple {a b c d : UInt8} (quadruples : isQuadruple a b c d) :
    IsWhole (quadruple a b c d) := by
  have bounds := isQuadruple_iff.mp quadruples
  have value : (quadruple a b c d).value =
    ((a.toNat % 8 * 64 + b.toNat % 64) * 64 + c.toNat % 64) * 64 + d.toNat % 64 := rfl
  have scalar : Quoted.isScalar (quadruple a b c d).value := isScalar_iff.mpr (by omega)
  refine ⟨scalar, ?_⟩
  rw [encode_of_quadruple (by omega) scalar, quadruple, ← eq_toUInt8, ← eq_toUInt8, ← eq_toUInt8,
    ← eq_toUInt8]
  · simp only [low]; omega
  · simp only [low]; omega
  · simp only [low]; omega
  · simp only [low]; omega

theorem isBroken_ofByte {a : UInt8} (high : 0x80 ≤ a.toNat) : (ofByte a).isBroken := by
  have above : ¬ a < 0x80 := by simpa [UInt8.lt_iff_toNat_lt] using high
  rw [ofByte, if_neg above]
  rfl

def IsStray (c : CodePoint) : Prop := ∃ a : UInt8, 0x80 ≤ a.toNat ∧ c = ofByte a

theorem isWhole_or_isStray (a : UInt8) : IsWhole (ofByte a) ∨ IsStray (ofByte a) := by
  by_cases ascii : a.toNat < 0x80
  · exact .inl (isWhole_ofByte ascii)
  · exact .inr ⟨a, by omega, rfl⟩

theorem IsStray.isBroken {c : CodePoint} (stray : IsStray c) : c.isBroken := by
  obtain ⟨a, high, rfl⟩ := stray
  exact isBroken_ofByte high

end CodePoint

namespace Text

open CodePoint

theorem whole_or_stray_of_mem {text : Text} {c : CodePoint} (member : c ∈ text.codePoints) :
    c.IsWhole ∨ c.IsStray := by
  fun_induction codePoints text with
  | case1 => simp at member
  | case2 a =>
      rw [List.mem_singleton] at member
      exact member ▸ isWhole_or_isStray a
  | case3 a b rest pairs ih =>
      rcases List.mem_cons.mp member with rfl | later
      · exact .inl (isWhole_pair pairs)
      · exact ih later
  | case5 a b _ c rest triples ih =>
      rcases List.mem_cons.mp member with rfl | later
      · exact .inl (isWhole_triple triples)
      · exact ih later
  | case7 a b _ c _ d rest quadruples ih =>
      rcases List.mem_cons.mp member with rfl | later
      · exact .inl (isWhole_quadruple quadruples)
      · exact ih later
  | case4 a | case6 a | case8 a =>
      rename_i ih
      rcases List.mem_cons.mp member with rfl | later
      · exact isWhole_or_isStray a
      · exact ih later

theorem mem_codePoints {text : Text} {c : CodePoint} (member : c ∈ text.codePoints) :
    c.IsWhole ∨ c.isBroken :=
  (whole_or_stray_of_mem member).imp_right IsStray.isBroken

theorem bytes_ofByte (a : UInt8) : (CodePoint.ofByte a).bytes = [a] := by
  unfold CodePoint.ofByte
  split <;> rfl

/-- The bytes of the code points of a text are the text. -/
theorem ofCodePoints_codePoints (text : Text) : ofCodePoints text.codePoints = text := by
  unfold ofCodePoints
  fun_induction codePoints text with
  | case1 => rfl
  | case2 a => simp [bytes_ofByte]
  | case3 a b rest pairs ih | case5 a b _ c rest triples ih | case7 a b _ c _ d rest quads ih =>
      rw [List.flatMap_cons, ih]
      rfl
  | case4 | case6 | case8 =>
      rename_i ih
      rw [List.flatMap_cons, ih, bytes_ofByte]
      rfl

theorem codePoints_ascii_cons {a : UInt8} (ascii : a.toNat < 0x80) (rest : Text) :
    codePoints (a :: rest) = ⟨a.toNat, [a]⟩ :: codePoints rest := by
  have single : CodePoint.ofByte a = ⟨a.toNat, [a]⟩ := by
    have below : a < 0x80 := by simpa [UInt8.lt_iff_toNat_lt] using ascii
    rw [CodePoint.ofByte, if_pos below]
  have noPair : ∀ b, ¬ isPair a b := fun b pairs => by have := isPair_iff.mp pairs; omega
  have noTriple : ∀ b c, ¬ isTriple a b c := fun b c triples => by
    have := isTriple_iff.mp triples
    omega
  have noQuadruple : ∀ b c d, ¬ isQuadruple a b c d := fun b c d quadruples => by
    have := isQuadruple_iff.mp quadruples
    omega
  rcases rest with _ | ⟨b, _ | ⟨c, _ | ⟨d, rest⟩⟩⟩
  · simp [codePoints, single]
  · simp [codePoints, single, noPair]
  · simp [codePoints, single, noPair, noTriple]
  · simp [codePoints, single, noPair, noTriple, noQuadruple]

/-- An encoded code point is read back, whatever follows it. -/
theorem codePoints_encode {v : Nat} (scalar : Quoted.isScalar v) (rest : Text) :
    codePoints (encode v ++ rest) = ⟨v, encode v⟩ :: codePoints rest := by
  have range := isScalar_iff.mp scalar
  by_cases ascii : v < 0x80
  · rw [encode_of_ascii ascii, List.singleton_append, codePoints_ascii_cons,
      toNat_toUInt8 (by omega)]
    rw [toNat_toUInt8 (by omega)]
    exact ascii
  by_cases two : v < 0x800
  · rw [encode_of_pair (by omega) two]
    have first := toNat_toUInt8 (n := 0xC0 + v / 64) (by omega)
    have second := toNat_toUInt8 (n := 0x80 + v % 64) (by omega)
    generalize (0xC0 + v / 64).toUInt8 = a at *
    generalize (0x80 + v % 64).toUInt8 = b at *
    have pairs : isPair a b := isPair_iff.mpr (by omega)
    have value : a.toNat % 32 * 64 + b.toNat % 64 = v := by omega
    rw [List.cons_append, List.singleton_append, codePoints.eq_def]
    simp only [pairs, if_true, pair, low, value]
  by_cases three : v < 0x10000
  · rw [encode_of_triple (by omega) three scalar]
    have first := toNat_toUInt8 (n := 0xE0 + v / 4096) (by omega)
    have second := toNat_toUInt8 (n := 0x80 + v / 64 % 64) (by omega)
    have third := toNat_toUInt8 (n := 0x80 + v % 64) (by omega)
    generalize (0xE0 + v / 4096).toUInt8 = a at *
    generalize (0x80 + v / 64 % 64).toUInt8 = b at *
    generalize (0x80 + v % 64).toUInt8 = c at *
    have noPair : ¬ isPair a b := fun pairs => by have := isPair_iff.mp pairs; omega
    have triples : isTriple a b c := isTriple_iff.mpr (by omega)
    have value : (a.toNat % 16 * 64 + b.toNat % 64) * 64 + c.toNat % 64 = v := by omega
    rw [List.cons_append, List.cons_append, List.singleton_append, codePoints.eq_def]
    simp only [noPair, triples, if_true, triple, low, value]
    rfl
  · rw [encode_of_quadruple (by omega) scalar]
    have first := toNat_toUInt8 (n := 0xF0 + v / 262144) (by omega)
    have second := toNat_toUInt8 (n := 0x80 + v / 4096 % 64) (by omega)
    have third := toNat_toUInt8 (n := 0x80 + v / 64 % 64) (by omega)
    have fourth := toNat_toUInt8 (n := 0x80 + v % 64) (by omega)
    generalize (0xF0 + v / 262144).toUInt8 = a at *
    generalize (0x80 + v / 4096 % 64).toUInt8 = b at *
    generalize (0x80 + v / 64 % 64).toUInt8 = c at *
    generalize (0x80 + v % 64).toUInt8 = d at *
    have noPair : ¬ isPair a b := fun pairs => by have := isPair_iff.mp pairs; omega
    have noTriple : ¬ isTriple a b c := fun triples => by have := isTriple_iff.mp triples; omega
    have quadruples : isQuadruple a b c d := isQuadruple_iff.mpr (by omega)
    have value :
        ((a.toNat % 8 * 64 + b.toNat % 64) * 64 + c.toNat % 64) * 64 + d.toNat % 64 = v := by omega
    rw [List.cons_append, List.cons_append, List.cons_append, List.singleton_append,
      codePoints.eq_def]
    simp only [noPair, noTriple, quadruples, if_true, quadruple, low, value]
    rfl

theorem codePoints_whole_append {points : List CodePoint} (whole : ∀ c ∈ points, c.IsWhole)
    (rest : Text) : codePoints (ofCodePoints points ++ rest) = points ++ codePoints rest := by
  induction points with
  | nil => rfl
  | cons c more ih =>
      have first := whole c (List.mem_cons_self ..)
      have same : (⟨c.value, encode c.value⟩ : CodePoint) = c := by rw [← first.bytes]
      rw [ofCodePoints, List.flatMap_cons, List.append_assoc, first.bytes,
        codePoints_encode first.scalar, same, List.cons_append]
      exact congrArg _ (ih fun d member => whole d (List.mem_cons_of_mem c member))

def Sealed (text : Text) : Prop := ∀ c ∈ text.codePoints, c.IsWhole

theorem Sealed.append_codePoints {text : Text} (sealed_ : text.Sealed) (rest : Text) :
    codePoints (text ++ rest) = codePoints text ++ codePoints rest := by
  conv => lhs; rw [← ofCodePoints_codePoints text]
  exact codePoints_whole_append sealed_ rest

theorem Sealed.append {text rest : Text} (first : text.Sealed) (second : rest.Sealed) :
    (text ++ rest).Sealed := by
  intro c member
  rw [first.append_codePoints, List.mem_append] at member
  exact member.elim (first c) (second c)

theorem codePoints_ofCodePoints {points : List CodePoint} (whole : ∀ c ∈ points, c.IsWhole) :
    (ofCodePoints points).codePoints = points := by
  simpa [codePoints] using codePoints_whole_append whole []

/-- A text that is written out is checked byte by byte. -/
theorem ascii_of_all {text : Text} (all : text.all fun b => b.toNat < 0x80) :
    ∀ b ∈ text, b.toNat < 0x80 := fun b member => by
  simpa using List.all_eq_true.mp all b member

theorem codePoints_ascii {text : Text} (ascii : ∀ b ∈ text, b.toNat < 0x80) :
    text.codePoints = text.map fun b => ⟨b.toNat, [b]⟩ := by
  induction text with
  | nil => rfl
  | cons b rest ih =>
      rw [codePoints_ascii_cons (ascii b (List.mem_cons_self ..)),
        ih fun a member => ascii a (List.mem_cons_of_mem b member), List.map_cons]

theorem sealed_of_ascii {text : Text} (ascii : ∀ b ∈ text, b.toNat < 0x80) : text.Sealed := by
  intro c member
  rw [codePoints_ascii ascii, List.mem_map] at member
  obtain ⟨b, inside, rfl⟩ := member
  have small := ascii b inside
  refine ⟨isScalar_iff.mpr (by simp only; omega), ?_⟩
  rw [encode_of_ascii small, ← eq_toUInt8 rfl]

end Text

end BorrowChecker
