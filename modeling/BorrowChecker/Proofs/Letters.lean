import Mathlib.Tactic
import BorrowChecker.Source.Lexer

/-!
What the tables of letters and digits leave out: white space, the replacement character and a few
signs. So a code point of a name is never skipped, and never a byte that is no UTF-8.
-/

namespace BorrowChecker

namespace CodePoint

theorem within_eq_false {table : List (Nat × Nat)} {c : Nat}
    (avoids : table.all fun r => c < r.1 || r.2 < c) : within table c = false := by
  rw [within, List.any_eq_false]
  intro r member
  have outside := List.all_eq_true.mp avoids r member
  simp only [Bool.or_eq_true, decide_eq_true_eq] at outside
  simp only [Bool.and_eq_true, decide_eq_true_eq]
  omega

/-- The white space beyond ASCII, the replacement character, and the five signs that decompose into
ASCII ones which are not part of names. -/
def outsiders : List Nat :=
  [0x85, 0xA0, 0x1680, 0x2000, 0x2001, 0x2002, 0x2003, 0x2004, 0x2005, 0x2006, 0x2007, 0x2008,
    0x2009, 0x200A, 0x2028, 0x2029, 0x202F, 0x205F, 0x3000, replacement,
    0x37E, 0x1FEF, 0x2260, 0x226E, 0x226F]

-- The tables are texts, so they are spelled out as characters before they are evaluated.
set_option maxRecDepth 100000 in
theorem tables_avoid_outsiders : (letterTable ++ digitTable).all
    (fun r => outsiders.all fun c => c < r.1 || r.2 < c) = true := by
  unfold letterTable digitTable ranges
  rw [String.toList_ofList, String.toList_ofList]
  decide +kernel

theorem outsider_not_within {c : Nat} (outside : c ∈ outsiders) :
    within letterTable c = false ∧ within digitTable c = false := by
  have each := List.all_eq_true.mp tables_avoid_outsiders
  refine ⟨within_eq_false ?_, within_eq_false ?_⟩
  · refine List.all_eq_true.mpr fun r member => ?_
    exact List.all_eq_true.mp (each r (List.mem_append_left _ member)) c outside
  · refine List.all_eq_true.mpr fun r member => ?_
    exact List.all_eq_true.mp (each r (List.mem_append_right _ member)) c outside

theorem mem_outsiders_of_isBlank {c : Nat} (blank : isBlank c) (high : 0x80 ≤ c) :
    c ∈ outsiders := by
  rw [isBlank, if_neg (by omega)] at blank
  simp only [Bool.or_eq_true, Bool.and_eq_true, beq_iff_eq, decide_eq_true_eq] at blank
  simp only [outsiders, List.mem_cons, replacement]
  omega

end CodePoint

namespace Source

open CodePoint

theorem isNamePoint_ascii {c : CodePoint} (ascii : c.value < 0x80) : isNamePoint c ↔
    c.value = 95 ∨ 65 ≤ c.value ∧ c.value ≤ 90 ∨ 97 ≤ c.value ∧ c.value ≤ 122 ∨
      48 ≤ c.value ∧ c.value ≤ 57 := by
  simp only [isNamePoint, isLetter, isDecimal, if_pos ascii, isAsciiLetter, isAsciiDigit,
    Bool.or_eq_true, Bool.and_eq_true, beq_iff_eq, decide_eq_true_eq]
  omega

theorem not_outsider_of_isNamePoint {c : CodePoint} (name : isNamePoint c) :
    c.value ∉ outsiders := by
  intro outside
  have high : 0x80 ≤ c.value := by
    have all : ∀ v ∈ outsiders, 0x80 ≤ v := by decide
    exact all _ outside
  obtain ⟨noLetter, noDigit⟩ := outsider_not_within outside
  simp only [isNamePoint, isLetter, isDecimal, if_neg (Nat.not_lt.mpr high), noLetter, noDigit,
    Bool.or_false, beq_iff_eq] at name
  omega

theorem solid_of_isNamePoint {c : CodePoint} (name : isNamePoint c) : isBlank c.value = false := by
  by_contra blank
  rw [Bool.not_eq_false] at blank
  by_cases ascii : c.value < 0x80
  · have range := (isNamePoint_ascii ascii).mp name
    rw [isBlank, if_pos ascii] at blank
    simp only [Bool.or_eq_true, Bool.and_eq_true, beq_iff_eq, decide_eq_true_eq] at blank
    omega
  · exact not_outsider_of_isNamePoint name (mem_outsiders_of_isBlank blank (by omega))

theorem isNamePoint_of_starts {c : CodePoint} (starts : c.value = 95 ∨ isLetter c.value) :
    isNamePoint c := by
  simp only [isNamePoint, Bool.or_eq_true, beq_iff_eq]
  exact .inl starts

end Source

end BorrowChecker
