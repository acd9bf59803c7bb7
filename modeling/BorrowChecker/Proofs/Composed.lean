import BorrowChecker.Proofs.Spelling
import BorrowChecker.Text.Normal

/-!
What composing does to a name. The composed form of an identifier may be no identifier any more, as
a letter may stay split into a letter and a mark. But each of its code points is refused or goes on
with a name, it starts with no digit, and it is an ASCII word without a `K` only when the identifier
already was that word.
-/

namespace BorrowChecker

namespace CodePoint

/-- A sign beyond ASCII that decomposes into an ASCII one. -/
def isDisguised (v : Nat) : Bool :=
  v == 0x37E || v == 0x1FEF || v == 0x2260 || v == 0x226E || v == 0x226F

def suits (v : Nat) : Bool :=
  Quoted.isScalar v &&
    if v < 0x80 then isAsciiLetter v || isAsciiDigit v || v == 95
    else !isBlank v && !isDisguised v

/-- Beyond ASCII, or the one ASCII letter that a sign beyond ASCII decomposes to. -/
def isForeign (v : Nat) : Bool := 0x80 ≤ v || v == 75

/-- What a code point of a name decomposes to: no part is a digit, and one is foreign. -/
def isSplit (parts : List Nat) : Bool :=
  parts.all (fun p => suits p && !isAsciiDigit p) && parts.any isForeign

def keepsNames (row : Nat × Nat × Nat) : Bool :=
  if suits row.1 then
    0x80 ≤ row.1 && isSplit (if row.2.2 = 0 then [row.2.1] else [row.2.1, row.2.2])
  else !(suits row.2.1 && suits row.2.2)

set_option maxRecDepth 100000 in
theorem tables_keepsNames : (compositions ++ exclusions).all keepsNames = true := by
  unfold compositions exclusions numbers
  rw [String.toList_ofList, String.toList_ofList]
  decide +kernel

theorem suits_high {v : Nat} (high : 0x80 ≤ v) :
    suits v ↔ Quoted.isScalar v ∧ isBlank v = false ∧ isDisguised v = false := by
  simp [suits, Nat.not_lt.mpr high]

/-- The letters and the syllables that syllables are made of. -/
theorem suits_of_syllabic {v : Nat}
    (syllabic : 0x1100 ≤ v ∧ v ≤ 0x11C2 ∨ 0xAC00 ≤ v ∧ v ≤ 0xD7A3) : suits v := by
  rw [suits_high (by omega), isScalar_iff, isBlank, if_neg (by omega)]
  simp only [isDisguised, Bool.or_eq_false_iff, Bool.and_eq_false_iff, beq_eq_false_iff_ne,
    decide_eq_false_iff_not]
  omega

theorem isSplit_of_high {parts : List Nat} (present : parts ≠ [])
    (high : ∀ p ∈ parts, suits p ∧ 0x80 ≤ p) : isSplit parts := by
  rw [isSplit, Bool.and_eq_true, List.all_eq_true, List.any_eq_true]
  obtain ⟨p, rest, rfl⟩ := List.exists_cons_of_ne_nil present
  refine ⟨fun q member => ?_, p, List.mem_cons_self .., ?_⟩
  · have beyond := (high q member).2
    simp only [(high q member).1, isAsciiDigit, Bool.true_and, Bool.not_eq_true',
      Bool.and_eq_false_iff, decide_eq_false_iff_not]
    omega
  · have beyond := (high p (List.mem_cons_self ..)).2
    simp [isForeign, beyond]

theorem decomposition_isSplit {v : Nat} (suit : suits v) (splits : decomposition v ≠ []) :
    isSplit (decomposition v) := by
  unfold decomposition at splits ⊢
  by_cases low : v < 0xC0
  · exact absurd (if_pos low) splits
  rw [if_neg low] at splits ⊢
  by_cases syllable : isSyllable v
  · rw [if_pos syllable]
    simp only [isSyllable, Bool.and_eq_true, decide_eq_true_eq] at syllable
    refine isSplit_of_high (by dsimp only; split <;> simp) ?_
    intro p member
    suffices 0x1100 ≤ p ∧ p ≤ 0x11C2 ∨ 0xAC00 ≤ p ∧ p ≤ 0xD7A3 from
      ⟨suits_of_syllabic this, by omega⟩
    dsimp only at member
    split at member <;> simp only [List.mem_cons, List.not_mem_nil, or_false] at member <;> omega
  rw [if_neg syllable] at splits ⊢
  cases found : (compositions ++ exclusions).find? fun row => row.1 == v with
  | none => simp [found] at splits
  | some row =>
      have same : row.1 = v := by simpa using List.find?_some found
      have keeps := List.all_eq_true.mp tables_keepsNames row (List.mem_of_find?_eq_some found)
      rw [keepsNames, same, if_pos suit, Bool.and_eq_true] at keeps
      exact keeps.2

theorem composite_suits {a b v : Nat} (first : suits a) (second : suits b)
    (composed : composite? a b = some v) : suits v ∧ 0x80 ≤ v := by
  unfold composite? at composed
  split at composed
  case isTrue leading =>
    simp only [Bool.and_eq_true, decide_eq_true_eq] at leading
    obtain rfl := Option.some.inj composed
    exact ⟨suits_of_syllabic (by omega), by omega⟩
  split at composed
  case isTrue trailing =>
    simp only [isSyllable, Bool.and_eq_true, decide_eq_true_eq, beq_iff_eq] at trailing
    obtain rfl := Option.some.inj composed
    exact ⟨suits_of_syllabic (by omega), by omega⟩
  obtain ⟨row, found, rfl⟩ := Option.map_eq_some_iff.mp composed
  have parts := List.find?_some found
  simp only [Bool.and_eq_true, beq_iff_eq] at parts
  have keeps := List.all_eq_true.mp tables_keepsNames row
    (List.mem_append_left _ (List.mem_of_find?_eq_some found))
  rw [keepsNames] at keeps
  split at keeps
  case isTrue suit =>
    simp only [Bool.and_eq_true, decide_eq_true_eq] at keeps
    exact ⟨suit, keeps.1⟩
  case isFalse => simp [parts, first, second] at keeps

/-- A part of the full decomposition is again of a name, and no digit unless it was one. -/
theorem suits_of_mem_decompose {depth v p : Nat} (suit : suits v)
    (letter : isAsciiDigit v = false) (member : p ∈ decompose depth v) :
    suits p ∧ isAsciiDigit p = false := by
  induction depth generalizing v with
  | zero =>
      obtain rfl := List.mem_singleton.mp member
      exact ⟨suit, letter⟩
  | succ depth ih =>
      cases split : decomposition v with
      | nil =>
          simp only [decompose, split, List.mem_singleton] at member
          exact member ▸ ⟨suit, letter⟩
      | cons q rest =>
          simp only [decompose, split, List.mem_flatMap] at member
          obtain ⟨r, part, later⟩ := member
          have splits := decomposition_isSplit suit (by simp [split])
          rw [isSplit, split, Bool.and_eq_true, List.all_eq_true] at splits
          have fine := splits.1 r part
          simp only [Bool.and_eq_true, Bool.not_eq_true'] at fine
          exact ih fine.1 fine.2 later

theorem decompose_foreign {depth v : Nat} (suit : suits v) (foreign : isForeign v) :
    ∃ p ∈ decompose depth v, isForeign p := by
  induction depth generalizing v with
  | zero => exact ⟨v, List.mem_singleton_self v, foreign⟩
  | succ depth ih =>
      cases split : decomposition v with
      | nil => exact ⟨v, by simp [decompose, split], foreign⟩
      | cons q rest =>
          have splits := decomposition_isSplit suit (by simp [split])
          rw [isSplit, split, Bool.and_eq_true, List.all_eq_true, List.any_eq_true] at splits
          obtain ⟨fine, r, part, strange⟩ := splits
          have suitPart := fine r part
          simp only [Bool.and_eq_true] at suitPart
          obtain ⟨p, member, last⟩ := ih suitPart.1 strange
          refine ⟨p, ?_, last⟩
          simp only [decompose, split, List.mem_flatMap]
          exact ⟨r, part, member⟩

theorem decompose_ne_nil (depth v : Nat) : decompose depth v ≠ [] := by
  induction depth generalizing v with
  | zero => simp [decompose]
  | succ depth ih =>
      cases split : decomposition v with
      | nil => simp [decompose, split]
      | cons q rest => simp [decompose, split, ih q]

theorem isWhole_ofValue {v : Nat} (suit : suits v) : (ofValue v).IsWhole := by
  rw [suits, Bool.and_eq_true] at suit
  exact ⟨suit.1, rfl⟩

theorem high_of_decomposition {v : Nat} (splits : decomposition v ≠ []) : 0xC0 ≤ v := by
  by_contra low
  exact splits (if_pos (by omega))

theorem high_of_combiningClass {v : Nat} (mark : combiningClass v ≠ 0) : 0x300 ≤ v := by
  by_contra low
  exact mark (if_pos (by omega))

theorem isAsciiDigit_high {v : Nat} (high : 0x80 ≤ v) : isAsciiDigit v = false := by
  simp only [isAsciiDigit, Bool.and_eq_false_iff, decide_eq_false_iff_not]
  omega

end CodePoint

namespace Normal

open CodePoint

structure Fits (c : CodePoint) : Prop where
  whole : c.IsWhole
  suits : suits c.value

structure IsNameForm (points : List CodePoint) : Prop where
  fits : ∀ c ∈ points, Fits c
  starts : ∀ c ∈ points.head?, isAsciiDigit c.value = false
  foreign : ∃ c ∈ points, isForeign c.value

theorem fits_ofValue {v : Nat} (suit : CodePoint.suits v) : Fits (.ofValue v) :=
  ⟨isWhole_ofValue suit, suit⟩

variable {points : List CodePoint}

theorem mem_breakRuns {count : Nat} {c : CodePoint} :
    c ∈ breakRuns count points → c = joiner ∨ c ∈ points := by
  induction points generalizing count with
  | nil => simp [breakRuns]
  | cons d rest ih =>
      rw [breakRuns]
      split
      · intro member
        rcases List.mem_cons.mp member with rfl | later
        · exact .inl rfl
        rcases List.mem_cons.mp later with rfl | last
        · exact .inr (List.mem_cons_self ..)
        · exact (ih last).imp_right (List.mem_cons_of_mem _)
      split
      all_goals
        intro member
        rcases List.mem_cons.mp member with rfl | later
        · exact .inr (List.mem_cons_self ..)
        · exact (ih later).imp_right (List.mem_cons_of_mem _)

theorem subset_breakRuns (count : Nat) : points ⊆ breakRuns count points := by
  induction points generalizing count with
  | nil => simp
  | cons d rest ih =>
      rw [breakRuns]
      split
      · exact List.Subset.trans (List.cons_subset_cons d (ih _)) (List.subset_cons_self ..)
      split
      all_goals exact List.cons_subset_cons d (ih _)

theorem head_breakRuns {count : Nat} {c : CodePoint} (first : c ∈ (breakRuns count points).head?) :
    c = joiner ∨ c ∈ points.head? := by
  cases points with
  | nil => simp [breakRuns] at first
  | cons d rest =>
      rw [breakRuns] at first
      split at first
      · exact .inl (Option.mem_some_iff.mp first).symm
      split at first
      all_goals exact .inr first

theorem IsNameForm.breakRuns (form : IsNameForm points) (count : Nat) :
    IsNameForm (breakRuns count points) where
  fits c member := by
    rcases mem_breakRuns member with rfl | old
    · exact fits_ofValue (by decide)
    · exact form.fits c old
  starts c first := by
    rcases head_breakRuns first with rfl | old
    · decide
    · exact form.starts c old
  foreign :=
    let ⟨c, member, strange⟩ := form.foreign
    ⟨c, subset_breakRuns count member, strange⟩

theorem split_cases (c : CodePoint) : decomposeAll [c] = [c] ∨
    decomposition c.value ≠ [] ∧
      decomposeAll [c] = (decompose maxDepth c.value).map .ofValue := by
  by_cases splits : decomposition c.value = []
  · exact .inl (by simp [decomposeAll, splits])
  · exact .inr ⟨splits, by simp [decomposeAll, splits]⟩

theorem mem_decomposeAll {p : CodePoint} :
    p ∈ decomposeAll points ↔ ∃ c ∈ points, p ∈ decomposeAll [c] := by
  simp [decomposeAll]

theorem decomposeAll_cons (c : CodePoint) (rest : List CodePoint) :
    decomposeAll (c :: rest) = decomposeAll [c] ++ decomposeAll rest := by
  simp [decomposeAll]

theorem fits_piece {c p : CodePoint} (fit : Fits c) (piece : p ∈ decomposeAll [c]) :
    Fits p ∧ (isAsciiDigit c.value = false → isAsciiDigit p.value = false) := by
  rcases split_cases c with same | ⟨splits, pieces⟩
  · rw [same, List.mem_singleton] at piece
    subst piece
    exact ⟨fit, id⟩
  · rw [pieces, List.mem_map] at piece
    obtain ⟨v, part, rfl⟩ := piece
    have high := high_of_decomposition splits
    obtain ⟨suit, letter⟩ := suits_of_mem_decompose fit.suits (isAsciiDigit_high (by omega)) part
    exact ⟨fits_ofValue suit, fun _ => letter⟩

theorem foreign_piece {c : CodePoint} (fit : Fits c) (strange : isForeign c.value) :
    ∃ p ∈ decomposeAll [c], isForeign p.value := by
  rcases split_cases c with same | ⟨_, pieces⟩
  · exact ⟨c, by rw [same]; exact List.mem_singleton_self c, strange⟩
  · obtain ⟨v, part, last⟩ := decompose_foreign fit.suits strange
    exact ⟨.ofValue v, pieces ▸ List.mem_map_of_mem part, last⟩

theorem pieces_ne_nil (c : CodePoint) : decomposeAll [c] ≠ [] := by
  rcases split_cases c with same | ⟨_, pieces⟩
  · simp [same]
  · simp [pieces, decompose_ne_nil]

theorem IsNameForm.decomposeAll (form : IsNameForm points) : IsNameForm (decomposeAll points) where
  fits p member := by
    obtain ⟨c, old, piece⟩ := mem_decomposeAll.mp member
    exact (fits_piece (form.fits c old) piece).1
  starts p first := by
    cases points with
    | nil => simp [Normal.decomposeAll] at first
    | cons c rest =>
        rw [decomposeAll_cons, List.head?_append_of_ne_nil _ (pieces_ne_nil c)] at first
        exact (fits_piece (form.fits c (List.mem_cons_self ..)) (List.mem_of_mem_head? first)).2
          (form.starts c rfl)
  foreign := by
    obtain ⟨c, old, strange⟩ := form.foreign
    obtain ⟨p, piece, last⟩ := foreign_piece (form.fits c old) strange
    exact ⟨p, mem_decomposeAll.mpr ⟨c, old, piece⟩, last⟩

theorem place_perm (c : CodePoint) (points : List CodePoint) :
    (place c points).Perm (c :: points) := by
  induction points with
  | nil => exact .refl _
  | cons d rest ih =>
      rw [place]
      split
      · exact (ih.cons d).trans (.swap c d rest)
      · exact .refl _

theorem reorder_perm (points : List CodePoint) : (reorder points).Perm points := by
  induction points with
  | nil => exact .refl _
  | cons c rest ih => exact (place_perm c _).trans (ih.cons c)

theorem head_place {c d : CodePoint} (first : d ∈ (place c points).head?) :
    d = c ∨ combiningClass d.value ≠ 0 := by
  cases points with
  | nil => exact .inl (Option.mem_some_iff.mp first).symm
  | cons e rest =>
      rw [place] at first
      split at first
      case isTrue mark => exact .inr (Option.mem_some_iff.mp first ▸ mark.1)
      case isFalse => exact .inl (Option.mem_some_iff.mp first).symm

theorem IsNameForm.reorder (form : IsNameForm points) : IsNameForm (reorder points) where
  fits c member := form.fits c ((reorder_perm points).mem_iff.mp member)
  starts c first := by
    cases points with
    | nil => simp [Normal.reorder] at first
    | cons d rest =>
        rcases head_place first with rfl | mark
        · exact form.starts c rfl
        · have high := high_of_combiningClass mark
          exact isAsciiDigit_high (by omega)
  foreign :=
    let ⟨c, member, strange⟩ := form.foreign
    ⟨c, (reorder_perm points).mem_iff.mpr member, strange⟩

/-- What composing does with the next code point: it joins it to the start unless a mark blocks it,
goes on from a starter, or holds back a mark. -/
theorem composeFrom_cons (start c : CodePoint) (marks rest : List CodePoint) :
    (∃ v, composite? start.value c.value = some v ∧
      (∀ m ∈ marks.head?, combiningClass m.value < combiningClass c.value) ∧
      composeFrom start marks (c :: rest) = composeFrom (.ofValue v) marks rest) ∨
    combiningClass c.value = 0 ∧
      composeFrom start marks (c :: rest) = start :: marks.reverse ++ composeFrom c [] rest ∨
    combiningClass c.value ≠ 0 ∧
      composeFrom start marks (c :: rest) = composeFrom start (c :: marks) rest := by
  simp only [composeFrom]
  split
  case h_1 v composed =>
    obtain ⟨free, composed⟩ := Option.ite_none_left_eq_some.mp composed
    refine .inl ⟨v, composed, fun m first => ?_, rfl⟩
    cases marks with
    | nil => simp at first
    | cons d others =>
        obtain rfl := Option.mem_some_iff.mp first
        simpa using free
  case h_2 =>
    split
    case isTrue starter => exact .inr (.inl ⟨starter, rfl⟩)
    case isFalse mark => exact .inr (.inr ⟨mark, rfl⟩)

/-- What holds of the code points, and of all that two of them compose to, holds of the result. -/
theorem forall_mem_composeFrom {Q : CodePoint → Prop}
    (joins : ∀ a b v, Q a → Q b → composite? a.value b.value = some v → Q (.ofValue v))
    {start : CodePoint} {marks : List CodePoint} (first : Q start) (held : ∀ c ∈ marks, Q c)
    (all : ∀ c ∈ points, Q c) : ∀ c ∈ composeFrom start marks points, Q c := by
  induction points generalizing start marks with
  | nil =>
      intro c member
      rcases List.mem_cons.mp member with rfl | mark
      · exact first
      · exact held c (List.mem_reverse.mp mark)
  | cons d rest ih =>
      obtain ⟨next, later⟩ := List.forall_mem_cons.mp all
      rcases composeFrom_cons start d marks rest with
        ⟨v, composed, -, same⟩ | ⟨-, same⟩ | ⟨-, same⟩ <;> rw [same]
      · exact ih (joins start d v first next composed) held later
      · intro c member
        rcases List.mem_append.mp member with early | last
        · rcases List.mem_cons.mp early with rfl | mark
          · exact first
          · exact held c (List.mem_reverse.mp mark)
        · exact ih next (by simp) later c last
      · exact ih first (List.forall_mem_cons.mpr ⟨next, held⟩) later

theorem head_composeFrom {start c : CodePoint} {marks : List CodePoint} (first : Fits start)
    (fits : ∀ c ∈ points, Fits c) (head : c ∈ (composeFrom start marks points).head?) :
    c = start ∨ 0x80 ≤ c.value := by
  induction points generalizing start marks with
  | nil => exact .inl (Option.mem_some_iff.mp head).symm
  | cons d rest ih =>
      have later : ∀ c ∈ rest, Fits c := fun c member => fits c (List.mem_cons_of_mem _ member)
      rcases composeFrom_cons start d marks rest with
        ⟨v, composed, -, same⟩ | ⟨-, same⟩ | ⟨-, same⟩ <;> rw [same] at head
      · obtain ⟨suit, high⟩ := composite_suits first.suits (fits d (List.mem_cons_self ..)).suits
          composed
        rcases ih (fits_ofValue suit) later head with rfl | beyond
        · exact .inr high
        · exact .inr beyond
      · exact .inl (Option.mem_some_iff.mp head).symm
      · exact ih first later head

theorem foreign_composeFrom {start : CodePoint} {marks : List CodePoint} (first : Fits start)
    (fits : ∀ c ∈ points, Fits c)
    (foreign : ∃ c ∈ start :: marks ++ points, isForeign c.value) :
    ∃ c ∈ composeFrom start marks points, isForeign c.value := by
  induction points generalizing start marks with
  | nil =>
      obtain ⟨c, member, strange⟩ := foreign
      exact ⟨c, by simpa [composeFrom] using member, strange⟩
  | cons d rest ih =>
      have next : Fits d := fits d (List.mem_cons_self ..)
      have later : ∀ c ∈ rest, Fits c := fun c member => fits c (List.mem_cons_of_mem _ member)
      rcases composeFrom_cons start d marks rest with
        ⟨v, composed, -, same⟩ | ⟨-, same⟩ | ⟨-, same⟩ <;> rw [same]
      · obtain ⟨suit, high⟩ := composite_suits first.suits next.suits composed
        have strange : isForeign v := by simp [isForeign, high]
        exact ih (fits_ofValue suit) later ⟨.ofValue v, by simp, strange⟩
      · obtain ⟨c, member, strange⟩ := foreign
        rw [List.mem_append] at member
        rcases member with early | late
        · exact ⟨c, List.mem_append_left _ (by simpa using early), strange⟩
        · obtain ⟨e, last, odd⟩ := @ih d [] next later ⟨c, late, strange⟩
          exact ⟨e, List.mem_append_right _ last, odd⟩
      · obtain ⟨c, member, strange⟩ := foreign
        refine ih first later ⟨c, ?_, strange⟩
        simp only [List.cons_append, List.mem_cons, List.mem_append] at member ⊢
        tauto

theorem IsNameForm.compose (form : IsNameForm points) : IsNameForm (compose points) := by
  obtain ⟨fits, starts, foreign⟩ := form
  cases points with
  | nil => simp at foreign
  | cons c rest =>
      have first : Fits c := fits c (List.mem_cons_self ..)
      have later : ∀ d ∈ rest, Fits d := fun d member => fits d (List.mem_cons_of_mem _ member)
      have joins : ∀ a b v, Fits a → Fits b → composite? a.value b.value = some v →
          Fits (.ofValue v) := fun a b v left right composed =>
        fits_ofValue (composite_suits left.suits right.suits composed).1
      refine ⟨forall_mem_composeFrom joins first (by simp) later, fun d head => ?_,
        foreign_composeFrom first later (by simpa using foreign)⟩
      rcases head_composeFrom first later head with rfl | high
      · exact starts d rfl
      · exact isAsciiDigit_high high

end Normal

namespace Source

open CodePoint BorrowChecker.Normal Text

theorem suits_of_isNamePoint {c : CodePoint} (whole : c.IsWhole) (name : isNamePoint c) :
    suits c.value := by
  have outside := not_outsider_of_isNamePoint name
  have solid := solid_of_isNamePoint name
  by_cases ascii : c.value < 0x80
  · have range := (isNamePoint_ascii ascii).mp name
    simp only [suits, whole.scalar, if_pos ascii, isAsciiLetter, isAsciiDigit, Bool.true_and,
      Bool.or_eq_true, Bool.and_eq_true, beq_iff_eq, decide_eq_true_eq]
    omega
  · rw [suits_high (by omega)]
    refine ⟨whole.scalar, solid, ?_⟩
    by_contra disguised
    simp only [isDisguised, Bool.not_eq_false, Bool.or_eq_true, beq_iff_eq] at disguised
    refine outside ?_
    rcases disguised with (((same | same) | same) | same) | same
    all_goals
      rw [same]
      decide

theorem bonds_of_fits {c : CodePoint} (fit : Fits c) : Bonds c where
  whole := fit.whole
  ascii ascii := by
    have suit := fit.suits
    simp only [suits, if_pos ascii, isAsciiLetter, isAsciiDigit, Bool.or_eq_true,
      Bool.and_eq_true, beq_iff_eq, decide_eq_true_eq] at suit
    rw [isNamePoint_ascii ascii]
    omega
  solid := by
    by_cases ascii : c.value < 0x80
    · have suit := fit.suits
      simp only [suits, if_pos ascii, isAsciiLetter, isAsciiDigit, Bool.or_eq_true,
        Bool.and_eq_true, beq_iff_eq, decide_eq_true_eq] at suit
      simp only [isBlank, if_pos ascii, Bool.or_eq_false_iff, Bool.and_eq_false_iff,
        beq_eq_false_iff_ne, decide_eq_false_iff_not]
      omega
    · exact ((suits_high (by omega)).mp fit.suits).2.1

/-- A text beyond ASCII whose code points are whole has one beyond ASCII. -/
theorem exists_high {text : Text} (whole : text.Sealed) (high : ¬ text.all (· < 0x80)) :
    ∃ c ∈ text.codePoints, 0x80 ≤ c.value := by
  by_contra low
  push Not at low
  refine high (List.all_eq_true.mpr fun b member => ?_)
  rw [← ofCodePoints_codePoints text, ofCodePoints, List.mem_flatMap] at member
  obtain ⟨c, point, inside⟩ := member
  have ascii := low c point
  rw [(whole c point).bytes, encode_of_ascii ascii, List.mem_singleton] at inside
  rw [inside, decide_eq_true_eq, UInt8.lt_iff_toNat_lt, toNat_toUInt8 (by omega)]
  exact ascii

theorem isNameForm_of_isIdentifier {name : Text} (ident : isIdentifier name)
    (high : ¬ name.all (· < 0x80)) : IsNameForm name.codePoints := by
  have wordlike := wordlike_of_isIdentifier ident
  have whole : name.Sealed := fun c member => (wordlike.bonds c member).whole
  obtain ⟨c, rest, points, starts, inside⟩ := isIdentifier_iff.mp ident
  refine ⟨fun d member => ?_, fun d first => ?_, ?_⟩
  · refine ⟨whole d member, suits_of_isNamePoint (whole d member) ?_⟩
    rw [points] at member
    rcases List.mem_cons.mp member with rfl | later
    · exact isNamePoint_of_starts starts
    · exact List.all_eq_true.mp inside d later
  · rw [points] at first
    obtain rfl := Option.mem_some_iff.mp first
    exact not_digit_of_starts starts
  · obtain ⟨d, member, beyond⟩ := exists_high whole high
    exact ⟨d, member, by simp [isForeign, beyond]⟩

theorem isNameForm_normalize {name : Text} (ident : isIdentifier name)
    (high : ¬ name.all (· < 0x80)) : IsNameForm name.normalize.codePoints := by
  have form := ((((isNameForm_of_isIdentifier ident high).breakRuns 0).decomposeAll).reorder).compose
  rw [Text.normalize, if_neg high, codePoints_ofCodePoints fun c member => (form.fits c member).whole]
  exact form

theorem wordlike_normalize {name : Text} (ident : isIdentifier name) :
    IsWordlike name.normalize := by
  by_cases high : name.all (· < 0x80)
  · rw [Text.normalize, if_pos high]
    exact wordlike_of_isIdentifier ident
  · have form := isNameForm_normalize ident high
    obtain ⟨c, member, _⟩ := form.foreign
    obtain ⟨d, rest, points⟩ := List.exists_cons_of_ne_nil (List.ne_nil_of_mem member)
    exact ⟨fun e inside => bonds_of_fits (form.fits e inside), d, rest, points,
      form.starts d (by rw [points]; rfl)⟩

/-- An ASCII word without a `K`. -/
def isPlain (word : Text) : Bool := word.all fun b => b.toNat < 0x80 && b.toNat != 75

/-- No other identifier is composed to a plain word. -/
theorem eq_of_normalize_eq {name word : Text} (ident : isIdentifier name) (plain : isPlain word)
    (same : name.normalize = word) : name = word := by
  by_cases high : name.all (· < 0x80)
  · rwa [Text.normalize, if_pos high] at same
  · obtain ⟨c, member, strange⟩ := (isNameForm_normalize ident high).foreign
    simp only [isPlain, List.all_eq_true, Bool.and_eq_true, decide_eq_true_eq, bne_iff_ne] at plain
    rw [same, codePoints_ascii fun b inside => (plain b inside).1, List.mem_map] at member
    obtain ⟨b, inside, rfl⟩ := member
    obtain ⟨ascii, other⟩ := plain b inside
    simp only [isForeign, Bool.or_eq_true, decide_eq_true_eq, beq_iff_eq] at strange
    omega

end Source

end BorrowChecker
