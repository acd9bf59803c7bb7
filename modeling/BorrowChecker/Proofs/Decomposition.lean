import BorrowChecker.Proofs.Composed

/-!
The tables of canonical decompositions, and what follows from them for the full decomposition of a
code point. One pass over the tables shows that every row is regular. From that, a code point that
decomposes is its first part's decomposition with at most one code point more; every composed pair
decomposes to itself again; and a code point counts for as many marks as its decomposition does.
-/

namespace BorrowChecker

namespace CodePoint

/-- A set of numbers as the bits of one number. -/
def bitsOf (values : List Nat) : Nat := values.foldr (fun v bits => bits ||| 1 <<< v) 0

theorem testBit_bitsOf {values : List Nat} {v : Nat} : (bitsOf values).testBit v ↔ v ∈ values := by
  induction values with
  | nil => simp [bitsOf]
  | cons w rest ih =>
      rw [bitsOf, List.foldr_cons, Nat.testBit_or, Bool.or_eq_true, List.mem_cons, Nat.one_shiftLeft,
        Nat.testBit_two_pow, decide_eq_true_eq, eq_comm (a := w), or_comm]
      exact or_congr_right ih

def bitsWithin (table : List (Nat × Nat)) : Nat :=
  table.foldr (fun r bits => bits ||| (2 ^ (r.2 + 1 - r.1) - 1) <<< r.1) 0

theorem testBit_bitsWithin (table : List (Nat × Nat)) (v : Nat) :
    (bitsWithin table).testBit v = within table v := by
  induction table with
  | nil => simp [bitsWithin, within]
  | cons r rest ih =>
      rw [bitsWithin, List.foldr_cons, Nat.testBit_or, Nat.testBit_shiftLeft,
        Nat.testBit_two_pow_sub_one, within, List.any_cons, Bool.or_comm]
      congr 1
      rw [Bool.eq_iff_iff]
      simp only [Bool.and_eq_true, decide_eq_true_eq]
      omega

/-- How many marks in a wider sense a code point ends with, given those that end with one and those
that end with two; zero where the canonical form tells. -/
def wideTrailBy (ones twos v : Nat) : Nat :=
  if v < 0x80 then 0 else if ones.testBit v then 1 else if twos.testBit v then 2 else 0

/-- Marks that something decomposes to end with, though they are the second of no composed pair. -/
def loneMarks : List Nat :=
  [0x5B4, 0x5B7, 0x5B8, 0x5B9, 0x5BC, 0x5BF, 0x5C1, 0x5C2, 0x9BC, 0xA3C, 0xB3C, 0xF72, 0xF74,
    0xF80, 0x1D165, 0x1D16E, 0x1D16F, 0x1D170, 0x1D171, 0x1D172]

/-- Letters that one code point stacks on another, with those they are stacked on, and the code
points that stand for a break. -/
def bareStarters : List Nat :=
  [0x34F, 0xF40, 0xF42, 0xF4C, 0xF51, 0xF56, 0xF5B, 0xF90, 0xF92, 0xF9C, 0xFA1, 0xFA6, 0xFAB,
    0xFB5, 0xFB7, replacement]

theorem classTable_marks :
    classTable.all (fun row => row.1 != 0) &&
      loneMarks.all (fun v => 0x300 ≤ v && (bitsWithin (classTable.flatMap Prod.snd)).testBit v) &&
      bareStarters.all (fun v => !(bitsWithin (classTable.flatMap Prod.snd)).testBit v) := by
  unfold classTable ranges
  repeat rw [String.toList_ofList]
  decide +kernel

structure Register where
  keys : Nat
  seconds : Nat
  leads : Nat
  ones : Nat
  twos : Nat

def register (composed others : List (Nat × Nat × Nat)) (leads ones twos : List (Nat × Nat)) :
    Register where
  keys := bitsOf ((composed ++ others).map Prod.fst)
  seconds := bitsOf (composed.map fun row => row.2.2)
  leads := bitsWithin leads
  ones := bitsWithin ones
  twos := bitsWithin twos

def Register.isBare (r : Register) (v : Nat) : Bool :=
  bareStarters.contains v && !r.keys.testBit v && !r.seconds.testBit v && !r.leads.testBit v &&
    wideTrailBy r.ones r.twos v == 0

def Register.isLast (r : Register) (v : Nat) : Bool :=
  0x300 ≤ v && (r.seconds.testBit v || loneMarks.contains v)

def Register.isRegular (r : Register) (row : Nat × Nat × Nat) : Bool :=
  0xC0 ≤ row.1 && Quoted.isScalar row.1 && Quoted.isScalar row.2.1 && Quoted.isScalar row.2.2 &&
    !isSyllable row.1 && !isSyllable row.2.1 && !isSyllable row.2.2 &&
    !(0x1100 ≤ row.1 && row.1 < 0x1200) && (0x300 ≤ row.1 || row.2.1 < 0x300) &&
    !r.leads.testBit row.1 && !r.leads.testBit row.2.1 && !r.leads.testBit row.2.2 &&
    wideTrailBy r.ones r.twos row.1 ==
      (if wideTrailBy r.ones r.twos row.2.1 = 0 then 0
        else wideTrailBy r.ones r.twos row.2.1 + if row.2.2 = 0 then 0 else 1) &&
    (row.2.2 == 0 || !r.keys.testBit row.2.2 &&
      (r.isLast row.2.2 || r.isBare row.2.1 && r.isBare row.2.2))

/-- The keys of the rows whose first part decomposes in so many steps more. -/
def deepKeys (rows : List (Nat × Nat × Nat)) : Nat → Nat
  | 0 => bitsOf (rows.map Prod.fst)
  | n + 1 => bitsOf ((rows.filter fun row => (deepKeys rows n).testBit row.2.1).map Prod.fst)

def ascends : List (Nat × Nat × Nat) → Bool
  | row :: next :: rest => row.1 < next.1 && ascends (next :: rest)
  | _ => true

def areRegular (composed others : List (Nat × Nat × Nat)) (leads ones twos : List (Nat × Nat)) :
    Bool :=
  let r := register composed others leads ones twos
  (composed ++ others).all r.isRegular && bareStarters.all r.isBare &&
    composed.all (fun row => row.2.1 != replacement && row.2.2 != 0) && ascends composed &&
    deepKeys (composed ++ others) 3 == 0

set_option maxRecDepth 100000 in
theorem tables_regular :
    areRegular compositions exclusions wideLeads wideTrails widePairs := by
  unfold wideLeads wideTrails widePairs ranges
  rw [String.toList_ofList, String.toList_ofList, String.toList_ofList]
  unfold compositions exclusions numbers
  rw [String.toList_ofList, String.toList_ofList]
  decide +kernel

def tables : Register := register compositions exclusions wideLeads wideTrails widePairs

def wideTrail (v : Nat) : Nat := wideTrailBy tables.ones tables.twos v

theorem testBit_keys {v : Nat} :
    tables.keys.testBit v ↔ ∃ row ∈ compositions ++ exclusions, row.1 = v := by
  rw [tables, register, testBit_bitsOf, List.mem_map]

theorem testBit_seconds {v : Nat} :
    tables.seconds.testBit v ↔ ∃ row ∈ compositions, row.2.2 = v := by
  rw [tables, register, testBit_bitsOf, List.mem_map]

theorem testBit_leads (v : Nat) : tables.leads.testBit v = within wideLeads v := by
  rw [tables, register, testBit_bitsWithin]

/-- A row of the tables: a code point, its first part, and its second part or zero. -/
structure Regular (v a b : Nat) : Prop where
  high : 0xC0 ≤ v
  scalar : Quoted.isScalar v
  scalarFirst : Quoted.isScalar a
  scalarSecond : Quoted.isScalar b
  single : isSyllable v = false
  singleFirst : isSyllable a = false
  singleSecond : isSyllable b = false
  noLetter : v < 0x1100 ∨ 0x1200 ≤ v
  low : v < 0x300 → a < 0x300
  narrow : within wideLeads v = false
  narrowFirst : within wideLeads a = false
  narrowSecond : within wideLeads b = false
  trail : wideTrail v =
    if wideTrail a = 0 then 0 else wideTrail a + if b = 0 then 0 else 1
  ends : b = 0 ∨
    tables.keys.testBit b = false ∧ (tables.isLast b ∨ tables.isBare a ∧ tables.isBare b)

theorem regular_of_mem {v a b : Nat} (member : (v, a, b) ∈ compositions ++ exclusions) :
    Regular v a b := by
  have regular := tables_regular
  simp only [areRegular, Bool.and_eq_true] at regular
  have row : tables.isRegular (v, a, b) := List.all_eq_true.mp regular.1.1.1.1 _ member
  simp only [Register.isRegular, Bool.and_eq_true, Bool.or_eq_true, Bool.not_eq_true',
    Bool.and_eq_false_iff, decide_eq_true_eq, decide_eq_false_iff_not, beq_iff_eq,
    testBit_leads] at row
  obtain ⟨⟨⟨⟨⟨⟨⟨⟨⟨⟨⟨⟨⟨high, scalar⟩, scalarFirst⟩, scalarSecond⟩, single⟩, singleFirst⟩,
    singleSecond⟩, noLetter⟩, low⟩, narrow⟩, narrowFirst⟩, narrowSecond⟩, trail⟩, ends⟩ := row
  exact ⟨high, scalar, scalarFirst, scalarSecond, single, singleFirst, singleSecond, by omega,
    by omega, narrow, narrowFirst, narrowSecond, trail, ends⟩

theorem composed_of_mem {v a b : Nat} (member : (v, a, b) ∈ compositions) :
    a ≠ replacement ∧ b ≠ 0 := by
  have regular := tables_regular
  simp only [areRegular, Bool.and_eq_true] at regular
  simpa using List.all_eq_true.mp regular.1.1.2 _ member

theorem compositions_ascends : ascends compositions := by
  have regular := tables_regular
  simp only [areRegular, Bool.and_eq_true] at regular
  exact regular.1.2

theorem deepKeys_zero : deepKeys (compositions ++ exclusions) 0 = tables.keys := by
  rw [deepKeys, tables, register]

theorem deepKeys_three : deepKeys (compositions ++ exclusions) 3 = 0 := by
  have regular := tables_regular
  simp only [areRegular, Bool.and_eq_true, beq_iff_eq] at regular
  exact regular.2

theorem combiningClass_eq_zero {v : Nat} (outside : within (classTable.flatMap Prod.snd) v = false) :
    combiningClass v = 0 := by
  have missing : classTable.find? (fun row => within row.2 v) = none := by
    rw [List.find?_eq_none]
    intro row member inside
    obtain ⟨r, range, holds⟩ := List.any_eq_true.mp inside
    have found : within (classTable.flatMap Prod.snd) v :=
      List.any_eq_true.mpr ⟨r, List.mem_flatMap.mpr ⟨row, member, range⟩, holds⟩
    simp [outside] at found
  simp [combiningClass, missing]

theorem combiningClass_ne_zero {v : Nat} (high : 0x300 ≤ v)
    (inside : within (classTable.flatMap Prod.snd) v) : combiningClass v ≠ 0 := by
  have marks := classTable_marks
  simp only [Bool.and_eq_true] at marks
  obtain ⟨r, range, holds⟩ := List.any_eq_true.mp inside
  obtain ⟨row, member, part⟩ := List.mem_flatMap.mp range
  have present : (classTable.find? fun row => within row.2 v).isSome :=
    List.find?_isSome.mpr ⟨row, member, List.any_eq_true.mpr ⟨r, part, holds⟩⟩
  obtain ⟨first, found⟩ := Option.isSome_iff_exists.mp present
  have positive := List.all_eq_true.mp marks.1.1 first (List.mem_of_find?_eq_some found)
  rw [combiningClass, if_neg (by omega), found]
  simpa using positive

theorem attaches_of_backward {v : Nat} (high : 0x300 ≤ v) (backward : composesBackward v) :
    attaches v := by
  rw [attaches, if_neg (by omega), backward, Bool.or_true]

theorem backward_of_mem {v a b : Nat} (member : (v, a, b) ∈ compositions) :
    composesBackward b := by
  simp only [composesBackward, Bool.or_eq_true, List.any_eq_true, beq_iff_eq]
  exact .inr ⟨_, member, rfl⟩

theorem attaches_of_isLast {v : Nat} (last : tables.isLast v) : attaches v := by
  simp only [Register.isLast, Bool.and_eq_true, Bool.or_eq_true, decide_eq_true_eq] at last
  obtain ⟨high, second | lone⟩ := last
  · obtain ⟨row, member, rfl⟩ := testBit_seconds.mp second
    exact attaches_of_backward high (backward_of_mem member)
  · have marks := classTable_marks
    simp only [Bool.and_eq_true] at marks
    have inside := List.all_eq_true.mp marks.1.2 v (List.contains_iff_mem.mp lone)
    rw [testBit_bitsWithin, Bool.and_eq_true] at inside
    simp [attaches, Nat.not_lt.mpr high, combiningClass_ne_zero high inside.2]

theorem decomposition_eq_nil {v : Nat} (single : isSyllable v = false)
    (free : tables.keys.testBit v = false) : decomposition v = [] := by
  have missing : (compositions ++ exclusions).find? (fun row => row.1 == v) = none := by
    rw [List.find?_eq_none]
    intro row member same
    have key := testBit_keys.mpr ⟨row, member, by simpa using same⟩
    rw [free] at key
    cases key
  rw [decomposition, single, missing]
  simp

structure IsBare (v : Nat) : Prop where
  settled : decomposition v = []
  starter : combiningClass v = 0
  apart : attaches v = false
  narrow : within wideLeads v = false
  trail : wideTrail v = 0

theorem bare_of_isBare {v : Nat} (bare : tables.isBare v) : IsBare v := by
  simp only [Register.isBare, Bool.and_eq_true, Bool.not_eq_true', beq_iff_eq] at bare
  obtain ⟨⟨⟨⟨listed, free⟩, notSecond⟩, narrow⟩, trail⟩ := bare
  have member := List.contains_iff_mem.mp listed
  have marks := classTable_marks
  simp only [Bool.and_eq_true] at marks
  have starter : combiningClass v = 0 := by
    have outside := List.all_eq_true.mp marks.2 v member
    rw [testBit_bitsWithin, Bool.not_eq_true'] at outside
    exact combiningClass_eq_zero outside
  have shape : bareStarters.all fun w => !isSyllable w && !(0x1161 ≤ w && w < 0x1176) &&
      !(0x11A8 ≤ w && w < 0x11C3) := by decide
  have plain := List.all_eq_true.mp shape v member
  simp only [Bool.and_eq_true, Bool.not_eq_true'] at plain
  have forward : composesBackward v = false := by
    rw [composesBackward, plain.1.2, plain.2, Bool.false_or, Bool.false_or, List.any_eq_false]
    intro row inside same
    have second := testBit_seconds.mpr ⟨row, inside, by simpa using same⟩
    rw [notSecond] at second
    cases second
  refine ⟨decomposition_eq_nil plain.1.1 free, starter, ?_, ?_, trail⟩
  · simp [attaches, starter, forward]
  · rwa [testBit_leads] at narrow

theorem isBare_of_mem {v : Nat} (member : v ∈ bareStarters) : IsBare v := by
  have regular := tables_regular
  simp only [areRegular, Bool.and_eq_true] at regular
  exact bare_of_isBare (List.all_eq_true.mp regular.1.1.1.2 v member)

theorem isSyllable_iff {v : Nat} : isSyllable v ↔ 0xAC00 ≤ v ∧ v ≤ 0xD7A3 := by
  simp [isSyllable]

theorem isSyllable_eq_false {v : Nat} : isSyllable v = false ↔ v < 0xAC00 ∨ 0xD7A3 < v := by
  rw [← Bool.not_eq_true, isSyllable_iff]
  omega

/-- The letters that syllables are made of. -/
theorem decomposition_letter {v : Nat} (letter : 0x1100 ≤ v ∧ v < 0x1200) :
    decomposition v = [] := by
  refine decomposition_eq_nil (isSyllable_eq_false.mpr (by omega)) ?_
  by_contra key
  obtain ⟨row, member, rfl⟩ := testBit_keys.mp (Bool.not_eq_false _ ▸ key)
  have apart := (regular_of_mem member).noLetter
  omega

/-- A syllable of two letters decomposes to them. -/
theorem decomposition_open {v : Nat} (syllable : isSyllable v) (open_ : (v - 0xAC00) % 28 = 0) :
    ∃ a b, decomposition v = [a, b] ∧ (0x1100 ≤ a ∧ a < 0x1113) ∧ 0x1161 ≤ b ∧ b < 0x1176 := by
  have range := isSyllable_iff.mp syllable
  have above : ¬ v < 0xC0 := by omega
  refine ⟨0x1100 + (v - 0xAC00) / 588, 0x1161 + (v - 0xAC00) % 588 / 28, ?_, by omega, by omega⟩
  simp [decomposition, above, syllable, open_]

/-- A syllable of three letters decomposes to one of two and the third. -/
theorem decomposition_closed {v : Nat} (syllable : isSyllable v)
    (closed : (v - 0xAC00) % 28 ≠ 0) :
    ∃ a b, decomposition v = [a, b] ∧ (isSyllable a ∧ (a - 0xAC00) % 28 = 0) ∧
      0x11A8 ≤ b ∧ b < 0x11C3 := by
  have range := isSyllable_iff.mp syllable
  have above : ¬ v < 0xC0 := by omega
  refine ⟨v - (v - 0xAC00) % 28, 0x11A7 + (v - 0xAC00) % 28, ?_,
    ⟨isSyllable_iff.mpr (by omega), by omega⟩, by omega⟩
  simp [decomposition, above, syllable, closed]

theorem attaches_letter {v : Nat}
    (letter : 0x1161 ≤ v ∧ v < 0x1176 ∨ 0x11A8 ≤ v ∧ v < 0x11C3) : attaches v := by
  have backward : composesBackward v := by
    simp only [composesBackward, Bool.or_eq_true, Bool.and_eq_true, decide_eq_true_eq]
    exact .inl letter
  exact attaches_of_backward (by omega) backward

theorem exists_row {v a : Nat} {rest : List Nat} (single : isSyllable v = false)
    (split : decomposition v = a :: rest) :
    ∃ b, (v, a, b) ∈ compositions ++ exclusions ∧ rest = if b = 0 then [] else [b] := by
  have high : ¬ v < 0xC0 := by
    have := high_of_decomposition (split ▸ List.cons_ne_nil a rest)
    omega
  rw [decomposition, if_neg high, single] at split
  cases found : (compositions ++ exclusions).find? fun row => row.1 == v with
  | none => simp [found] at split
  | some row =>
      obtain ⟨x, a', b⟩ := row
      have same : x = v := by simpa using List.find?_some found
      subst same
      have member := List.mem_of_find?_eq_some found
      rw [found] at split
      by_cases alone : b = 0
      · simp [alone] at split
        exact ⟨b, split.1 ▸ member, by simp [alone, split.2]⟩
      · simp [alone] at split
        exact ⟨b, split.1 ▸ member, by simp [alone, split.2]⟩

structure Splits (v a : Nat) (rest : List Nat) : Prop where
  scalar : ∀ p ∈ a :: rest, Quoted.isScalar p
  short : rest.length ≤ 1
  settled : ∀ p ∈ rest, decomposition p = []
  low : v < 0x300 → a < 0x300
  narrow : ∀ p ∈ v :: a :: rest, within wideLeads p = false
  trail : wideTrail v = if wideTrail a = 0 then 0 else wideTrail a + rest.length
  ends : (∀ p ∈ rest, attaches p) ∨ IsBare a ∧ ∃ b, rest = [b] ∧ IsBare b

theorem splits_row {v a b : Nat} (member : (v, a, b) ∈ compositions ++ exclusions) :
    Splits v a (if b = 0 then [] else [b]) := by
  have row := regular_of_mem member
  have trail := row.trail
  by_cases alone : b = 0
  · subst alone
    refine ⟨by simpa using row.scalarFirst, by simp, by simp, row.low, ?_, ?_, .inl (by simp)⟩
    · simp [row.narrow, row.narrowFirst]
    · simpa using trail
  · rw [if_neg alone] at trail ⊢
    obtain ⟨free, ends⟩ := row.ends.resolve_left alone
    have settled := decomposition_eq_nil row.singleSecond free
    refine ⟨?_, by simp, by simpa using settled, row.low, ?_, trail, ?_⟩
    · simp [row.scalarFirst, row.scalarSecond]
    · simp [row.narrow, row.narrowFirst, row.narrowSecond]
    · rcases ends with attached | ⟨bare, stacked⟩
      · exact .inl (by simpa using attaches_of_isLast attached)
      · exact .inr ⟨bare_of_isBare bare, b, rfl, bare_of_isBare stacked⟩

def isApart (r : Nat × Nat) : Bool :=
  (r.2 < 0x1100 || 0x1200 ≤ r.1) && (r.2 < 0xAC00 || 0xD7A3 < r.1)

theorem wide_isApart : (wideLeads ++ wideTrails ++ widePairs).all isApart := by
  unfold wideLeads wideTrails widePairs ranges
  rw [String.toList_ofList, String.toList_ofList, String.toList_ofList]
  decide +kernel

theorem within_apart {table : List (Nat × Nat)} {v : Nat} (apart : table.all isApart)
    (syllabic : 0x1100 ≤ v ∧ v < 0x1200 ∨ 0xAC00 ≤ v ∧ v ≤ 0xD7A3) : within table v = false := by
  rw [within, List.any_eq_false]
  intro r member inside
  have outside := List.all_eq_true.mp apart r member
  simp only [isApart, Bool.and_eq_true, Bool.or_eq_true, decide_eq_true_eq] at outside inside
  omega

theorem narrow_syllabic {v : Nat}
    (syllabic : 0x1100 ≤ v ∧ v < 0x1200 ∨ 0xAC00 ≤ v ∧ v ≤ 0xD7A3) :
    within wideLeads v = false ∧ wideTrail v = 0 := by
  have apart := wide_isApart
  simp only [List.all_append, Bool.and_eq_true] at apart
  refine ⟨within_apart apart.1.1 syllabic, ?_⟩
  have one := within_apart apart.1.2 syllabic
  have two := within_apart apart.2 syllabic
  rw [wideTrail, wideTrailBy, tables, register, testBit_bitsWithin, testBit_bitsWithin, one, two]
  simp

theorem splits_of_decomposition {v a : Nat} {rest : List Nat}
    (split : decomposition v = a :: rest) : Splits v a rest := by
  cases syllable : isSyllable v with
  | false =>
      obtain ⟨b, member, rfl⟩ := exists_row syllable split
      exact splits_row member
  | true =>
      have range := isSyllable_iff.mp syllable
      -- either way the parts are syllabic, the first is high and the second attaches
      suffices ∃ b, rest = [b] ∧ (0x1100 ≤ a ∧ a < 0x1200 ∨ 0xAC00 ≤ a ∧ a ≤ 0xD7A3) ∧
          (0x1161 ≤ b ∧ b < 0x1176 ∨ 0x11A8 ≤ b ∧ b < 0x11C3) by
        obtain ⟨b, rfl, first, letter⟩ := this
        have whole := narrow_syllabic (.inr range)
        have start := narrow_syllabic first
        have last := narrow_syllabic (v := b) (by omega)
        refine ⟨?_, by simp, ?_, by omega, ?_, ?_, .inl ?_⟩
        · simp only [List.mem_cons, List.not_mem_nil, or_false, forall_eq_or_imp, forall_eq,
            isScalar_iff]
          omega
        · simpa using decomposition_letter (by omega)
        · simp [whole, start, last]
        · simp [whole, start]
        · simpa using attaches_letter letter
      by_cases open_ : (v - 0xAC00) % 28 = 0
      · obtain ⟨c, b, same, first, second⟩ := decomposition_open syllable open_
        obtain ⟨rfl, rfl⟩ := List.cons.inj (same.symm.trans split)
        exact ⟨b, rfl, by omega, by omega⟩
      · obtain ⟨c, b, same, first, second⟩ := decomposition_closed syllable open_
        obtain ⟨rfl, rfl⟩ := List.cons.inj (same.symm.trans split)
        have inner := isSyllable_iff.mp first.1
        exact ⟨b, rfl, by omega, by omega⟩

theorem lt_of_ascends {first : Nat × Nat × Nat} {rest : List (Nat × Nat × Nat)}
    (ordered : ascends (first :: rest)) : ∀ other ∈ rest, first.1 < other.1 := by
  induction rest generalizing first with
  | nil => simp
  | cons next rest ih =>
      intro other inside
      simp only [ascends, Bool.and_eq_true, decide_eq_true_eq] at ordered
      rcases List.mem_cons.mp inside with rfl | deeper
      · exact ordered.1
      · exact ordered.1.trans (ih ordered.2 other deeper)

theorem find_of_ascends {rows : List (Nat × Nat × Nat)} (ordered : ascends rows)
    {row : Nat × Nat × Nat} (member : row ∈ rows) :
    rows.find? (fun other => other.1 == row.1) = some row := by
  induction rows with
  | nil => simp at member
  | cons first rest ih =>
      rcases List.mem_cons.mp member with rfl | inside
      · simp
      · have below := lt_of_ascends ordered row inside
        rw [List.find?_cons_of_neg (by simpa using below.ne)]
        refine ih ?_ inside
        cases rest with
        | nil => rfl
        | cons next rest =>
            simp only [ascends, Bool.and_eq_true] at ordered
            exact ordered.2

/-- What two code points compose to decomposes to them again. -/
theorem decomposition_of_composite {a b v : Nat} (composed : composite? a b = some v) :
    decomposition v = [a, b] := by
  unfold composite? at composed
  split at composed
  case isTrue leading =>
    simp only [Bool.and_eq_true, decide_eq_true_eq] at leading
    obtain rfl := Option.some.inj composed
    have syllable : isSyllable (0xAC00 + (a - 0x1100) * 588 + (b - 0x1161) * 28) :=
      isSyllable_iff.mpr (by omega)
    generalize same : 0xAC00 + (a - 0x1100) * 588 + (b - 0x1161) * 28 = v at syllable ⊢
    have first : 0x1100 + (v - 0xAC00) / 588 = a := by omega
    have second : 0x1161 + (v - 0xAC00) % 588 / 28 = b := by omega
    have whole : (v - 0xAC00) % 28 = 0 := by omega
    have high : ¬ v < 0xC0 := by omega
    simp [decomposition, high, syllable, whole, first, second]
  split at composed
  case isTrue trailing =>
    simp only [isSyllable_iff, Bool.and_eq_true, decide_eq_true_eq, beq_iff_eq] at trailing
    obtain rfl := Option.some.inj composed
    have syllable : isSyllable (a + (b - 0x11A7)) := isSyllable_iff.mpr (by omega)
    generalize same : a + (b - 0x11A7) = v at syllable ⊢
    have first : v - (v - 0xAC00) % 28 = a := by omega
    have second : 0x11A7 + (v - 0xAC00) % 28 = b := by omega
    have closed : (v - 0xAC00) % 28 ≠ 0 := by omega
    have high : ¬ v < 0xC0 := by omega
    simp [decomposition, high, syllable, closed, first, second]
  obtain ⟨⟨x, c, d⟩, found, rfl⟩ := Option.map_eq_some_iff.mp composed
  have parts := List.find?_some found
  simp only [Bool.and_eq_true, beq_iff_eq] at parts
  obtain ⟨rfl, rfl⟩ := parts
  have member := List.mem_of_find?_eq_some found
  have row := regular_of_mem (List.mem_append_left _ member)
  have high := row.high
  have self : (compositions ++ exclusions).find? (fun row => row.1 == x) = some (x, c, d) := by
    rw [List.find?_append, find_of_ascends compositions_ascends member, Option.some_or]
  rw [decomposition, if_neg (by omega), row.single, self]
  simp [(composed_of_mem member).2]

/-- What composes is a code point of its own, and no broken byte takes part. -/
theorem composite_scalar {a b v : Nat} (composed : composite? a b = some v) :
    Quoted.isScalar v ∧ a ≠ replacement ∧ b ≠ replacement := by
  unfold composite? at composed
  split at composed
  case isTrue leading =>
    simp only [Bool.and_eq_true, decide_eq_true_eq] at leading
    obtain rfl := Option.some.inj composed
    rw [isScalar_iff, replacement]
    omega
  split at composed
  case isTrue trailing =>
    simp only [isSyllable_iff, Bool.and_eq_true, decide_eq_true_eq, beq_iff_eq] at trailing
    obtain rfl := Option.some.inj composed
    rw [isScalar_iff, replacement]
    omega
  obtain ⟨⟨x, c, d⟩, found, rfl⟩ := Option.map_eq_some_iff.mp composed
  have parts := List.find?_some found
  simp only [Bool.and_eq_true, beq_iff_eq] at parts
  obtain ⟨rfl, rfl⟩ := parts
  have member := List.mem_of_find?_eq_some found
  refine ⟨(regular_of_mem (List.mem_append_left _ member)).scalar, (composed_of_mem member).1, ?_⟩
  rintro rfl
  have apart := (isBare_of_mem (v := replacement) (by decide)).apart
  rw [attaches_of_backward (by decide) (backward_of_mem member)] at apart
  cases apart

inductive Settles : Nat → Nat → Prop
  | leaf {steps v : Nat} (settled : decomposition v = []) : Settles steps v
  | node {steps v a : Nat} {rest : List Nat} (split : decomposition v = a :: rest)
      (first : Settles steps a) : Settles (steps + 1) v

theorem settles_of_shallow {steps v : Nat} (single : isSyllable v = false)
    (shallow : (deepKeys (compositions ++ exclusions) steps).testBit v = false) :
    Settles steps v := by
  induction steps generalizing v with
  | zero => exact .leaf (decomposition_eq_nil single (deepKeys_zero ▸ shallow))
  | succ steps ih =>
      cases split : decomposition v with
      | nil => exact .leaf split
      | cons a rest =>
          obtain ⟨b, member, -⟩ := exists_row single split
          refine .node split (ih (regular_of_mem member).singleFirst ?_)
          by_contra deep
          refine Bool.eq_false_iff.mp shallow (testBit_bitsOf.mpr (List.mem_map.mpr ?_))
          exact ⟨(v, a, b), List.mem_filter.mpr ⟨member, by simpa using deep⟩, rfl⟩

theorem settles_open {v : Nat} (syllable : isSyllable v) (open_ : (v - 0xAC00) % 28 = 0)
    (steps : Nat) : Settles (steps + 1) v := by
  obtain ⟨a, b, split, letter, -⟩ := decomposition_open syllable open_
  exact .node split (.leaf (decomposition_letter (by omega)))

theorem settles (v : Nat) : Settles 3 v := by
  cases syllable : isSyllable v with
  | false => exact settles_of_shallow syllable (by rw [deepKeys_three, Nat.zero_testBit])
  | true =>
      by_cases open_ : (v - 0xAC00) % 28 = 0
      · exact settles_open syllable open_ 2
      · obtain ⟨a, b, split, inner, -⟩ := decomposition_closed syllable open_
        exact .node split (settles_open inner.1 inner.2 1)

def pieces (v : Nat) : List Nat := decompose maxDepth v

theorem decompose_of_settled {v : Nat} (settled : decomposition v = []) (depth : Nat) :
    decompose depth v = [v] := by
  cases depth with
  | zero => rfl
  | succ depth => simp [decompose, settled]

theorem decompose_of_split {v a : Nat} {rest : List Nat} (split : decomposition v = a :: rest)
    (depth : Nat) : decompose (depth + 1) v = decompose depth a ++ rest := by
  have later : rest.flatMap (decompose depth) = rest := by
    have same : ∀ p ∈ rest, decompose depth p = [p] := fun p member =>
      decompose_of_settled ((splits_of_decomposition split).settled p member) depth
    rw [List.flatMap_congr same, List.flatMap_singleton']
  simp only [decompose, split]
  rw [List.flatMap_cons, later]

theorem Settles.decompose_succ {steps v : Nat} (settles : Settles steps v) {depth : Nat}
    (deep : steps ≤ depth) : decompose (depth + 1) v = decompose depth v := by
  induction settles generalizing depth with
  | leaf settled => rw [decompose_of_settled settled, decompose_of_settled settled]
  | node split first ih =>
      cases depth with
      | zero => omega
      | succ depth => rw [decompose_of_split split, decompose_of_split split, ih (by omega)]

theorem pieces_of_settled {v : Nat} (settled : decomposition v = []) : pieces v = [v] :=
  decompose_of_settled settled maxDepth

theorem pieces_of_split {v a : Nat} {rest : List Nat} (split : decomposition v = a :: rest) :
    pieces v = pieces a ++ rest := by
  have stable : decompose 6 a = decompose 5 a := (settles a).decompose_succ (by decide)
  rw [pieces, pieces, maxDepth, decompose_of_split split, stable]

theorem split_induction {motive : Nat → Prop}
    (leaf : ∀ v, decomposition v = [] → motive v)
    (node : ∀ v a rest, decomposition v = a :: rest → motive a → motive v) (v : Nat) :
    motive v := by
  generalize 3 = steps, settles v = ended
  induction ended with
  | leaf settled => exact leaf _ settled
  | node split first ih => exact node _ _ _ split ih

theorem settled_of_mem_pieces {v p : Nat} (member : p ∈ pieces v) : decomposition p = [] := by
  induction v using split_induction with
  | leaf v settled =>
      rw [pieces_of_settled settled, List.mem_singleton] at member
      exact member ▸ settled
  | node v a rest split ih =>
      rw [pieces_of_split split, List.mem_append] at member
      exact member.elim ih ((splits_of_decomposition split).settled p)

theorem scalar_of_mem_pieces {v p : Nat} (scalar : Quoted.isScalar v) (member : p ∈ pieces v) :
    Quoted.isScalar p := by
  induction v using split_induction with
  | leaf v settled =>
      rw [pieces_of_settled settled, List.mem_singleton] at member
      exact member ▸ scalar
  | node v a rest split ih =>
      have parts := (splits_of_decomposition split).scalar
      rw [pieces_of_split split, List.mem_append] at member
      exact member.elim (ih (parts a (List.mem_cons_self ..)))
        fun later => parts p (List.mem_cons_of_mem a later)

theorem length_pieces_le (v : Nat) : (pieces v).length ≤ 4 := by
  have bound : ∀ steps w, Settles steps w → (pieces w).length ≤ steps + 1 := by
    intro steps w settles
    induction settles with
    | leaf settled => simp [pieces_of_settled settled]
    | node split first ih =>
        have short := (splits_of_decomposition split).short
        rw [pieces_of_split split, List.length_append]
        omega
  exact bound 3 v (settles v)

/-- A code point that decomposes, like each of its pieces, starts with a mark only if its canonical
form does. -/
theorem narrow_of_mem_pieces {v p : Nat} (splits : decomposition v ≠ []) (member : p ∈ pieces v) :
    within wideLeads p = false := by
  induction v using split_induction with
  | leaf v settled => exact absurd settled splits
  | node v a rest split ih =>
      have parts := (splits_of_decomposition split).narrow
      rw [pieces_of_split split, List.mem_append] at member
      rcases member with first | later
      · by_cases settled : decomposition a = []
        · rw [pieces_of_settled settled, List.mem_singleton] at first
          exact first ▸ parts a (by simp)
        · exact ih settled first
      · exact parts p (by simp [later])

theorem low_of_head_pieces {v : Nat} (low : v < 0x300) : ∃ p ∈ (pieces v).head?, p < 0x300 := by
  induction v using split_induction with
  | leaf v settled => exact ⟨v, by simp [pieces_of_settled settled], low⟩
  | node v a rest split ih =>
      obtain ⟨p, first, below⟩ := ih ((splits_of_decomposition split).low low)
      refine ⟨p, ?_, below⟩
      rw [pieces_of_split split, List.head?_append_of_ne_nil]
      · exact first
      · exact decompose_ne_nil maxDepth a

theorem attaches_low {v : Nat} (low : v < 0x300) : attaches v = false := if_pos low

/-- The pieces of a code point: bare letters that are stacked, then one piece with all marks that
attach to it. -/
theorem pieces_shape (v : Nat) : ∃ front q rest, pieces v = front ++ q :: rest ∧
    (∀ p ∈ front, IsBare p) ∧ (front ≠ [] → attaches q = false) ∧ (∀ p ∈ rest, attaches p) ∧
    wideTrail v = if wideTrail q = 0 then 0 else wideTrail q + rest.length := by
  induction v using split_induction with
  | leaf v settled =>
      refine ⟨[], v, [], pieces_of_settled settled, by simp, by simp, by simp, ?_⟩
      by_cases none_ : wideTrail v = 0 <;> simp [none_]
  | node v a rest split ih =>
      have parts := splits_of_decomposition split
      rcases parts.ends with marks | ⟨bare, b, rfl, stacked⟩
      · obtain ⟨front, q, more, shape, bare, apart, attached, trail⟩ := ih
        refine ⟨front, q, more ++ rest, ?_, bare, apart, ?_, ?_⟩
        · rw [pieces_of_split split, shape, List.append_assoc, List.cons_append]
        · intro p member
          exact (List.mem_append.mp member).elim (attached p) (marks p)
        · rw [parts.trail, trail, List.length_append]
          split_ifs <;> omega
      · refine ⟨[a], b, [], ?_, by simpa using bare, fun _ => stacked.apart, by simp, ?_⟩
        · rw [pieces_of_split split, pieces_of_settled bare.settled]
        · rw [parts.trail, bare.trail, stacked.trail]
          simp

theorem leadingMarks_of_narrow {v : Nat} (narrow : within wideLeads v = false) :
    leadingMarks v = ((pieces v).takeWhile attaches).length := by
  by_cases low : v < 0x300
  · obtain ⟨p, first, below⟩ := low_of_head_pieces low
    obtain ⟨rest, same⟩ := List.head?_eq_some_iff.mp first
    simp [leadingMarks, low, same, attaches_low below]
  · simp [leadingMarks, low, narrow, pieces]

theorem leadingMarks_of_attaches {v : Nat} (settled : decomposition v = [])
    (narrow : within wideLeads v = false) (attached : attaches v) : leadingMarks v = 1 := by
  simp [leadingMarks_of_narrow narrow, pieces_of_settled settled, attached]

theorem leadingMarks_of_apart {v : Nat} (settled : decomposition v = [])
    (narrow : within wideLeads v = false) (apart : attaches v = false) : leadingMarks v = 0 := by
  simp [leadingMarks_of_narrow narrow, pieces_of_settled settled, apart]

theorem trailingMarks_eq (v : Nat) : trailingMarks v =
    if wideTrail v = 0 then ((pieces v).reverse.takeWhile attaches).length else wideTrail v := by
  rw [wideTrail, wideTrailBy, tables, register, testBit_bitsWithin, testBit_bitsWithin]
  by_cases low : v < 0x80
  · have settled : decomposition v = [] := if_pos (by omega)
    simp [trailingMarks, low, pieces_of_settled settled, attaches_low (v := v) (by omega)]
  · by_cases one : within wideTrails v
    · simp [trailingMarks, low, one]
    · by_cases two : within widePairs v
      · simp [trailingMarks, low, one, two]
      · simp [trailingMarks, low, one, two, pieces]

theorem wideTrail_le (v : Nat) : wideTrail v ≤ 2 := by
  rw [wideTrail, wideTrailBy]
  split_ifs <;> omega

theorem trailingMarks_le (v : Nat) : trailingMarks v ≤ 4 := by
  have wide := wideTrail_le v
  have all : ((pieces v).reverse.takeWhile attaches).length ≤ (pieces v).reverse.length :=
    (List.takeWhile_sublist _).length_le
  have few := length_pieces_le v
  rw [List.length_reverse] at all
  rw [trailingMarks_eq]
  split_ifs <;> omega

theorem leadingMarks_le (v : Nat) : leadingMarks v ≤ 4 := by
  have all : ((pieces v).takeWhile attaches).length ≤ (pieces v).length :=
    (List.takeWhile_sublist _).length_le
  have few := length_pieces_le v
  rw [leadingMarks]
  split_ifs
  · omega
  · omega
  · exact all.trans few

theorem IsBare.leadingMarks {v : Nat} (bare : IsBare v) : leadingMarks v = 0 :=
  leadingMarks_of_apart bare.settled bare.narrow bare.apart

theorem IsBare.trailingMarks {v : Nat} (bare : IsBare v) : trailingMarks v = 0 := by
  simp [trailingMarks_eq, bare.trail, pieces_of_settled bare.settled, bare.apart]

end CodePoint

end BorrowChecker
