import BorrowChecker.Proofs.Utf8

/-!
Texts with bytes that are no UTF-8. Such a byte is read as a code point of its own because the bytes
after it do not complete a sequence that it starts, and of those bytes only stray ones count. So the
whole code points between stray bytes may be replaced by others and the text is still read as it is
written.
-/

namespace BorrowChecker

namespace CodePoint

theorem IsWhole.not_isBroken {c : CodePoint} (whole : IsWhole c) : c.isBroken = false := by
  rw [isBroken, Bool.and_eq_false_iff, or_iff_not_imp_left]
  intro same
  have value : c.value = replacement := by simpa using same
  rw [whole.bytes, value]
  decide

theorem value_of_broken {c : CodePoint} (broken : c.isBroken) : c.value = replacement := by
  rw [isBroken, Bool.and_eq_true, beq_iff_eq] at broken
  exact broken.1

def opens (a : UInt8) : Text → Bool
  | [] => false
  | [b] => isPair a b
  | [b, c] => isPair a b || isTriple a b c
  | b :: c :: d :: _ => isPair a b || isTriple a b c || isQuadruple a b c d

theorem opens_takeWhile (a : UInt8) (rest : Text) :
    opens a (rest.takeWhile isContinuation) = opens a rest := by
  -- A sequence goes on with continuations only, so the first other byte ends what can be completed.
  have pair : ∀ b, isContinuation b = false → isPair a b = false := fun b apart => by
    rw [← Bool.not_eq_true] at apart ⊢
    rw [isContinuation_iff] at apart
    rw [isPair_iff]
    omega
  have triple : ∀ b c, isContinuation b = false ∨ isContinuation c = false →
      isTriple a b c = false := fun b c apart => by
    rw [← Bool.not_eq_true, ← Bool.not_eq_true, isContinuation_iff, isContinuation_iff] at apart
    rw [← Bool.not_eq_true, isTriple_iff]
    omega
  have quadruple : ∀ b c d, isContinuation b = false ∨ isContinuation c = false ∨
      isContinuation d = false → isQuadruple a b c d = false := fun b c d apart => by
    rw [← Bool.not_eq_true, ← Bool.not_eq_true, ← Bool.not_eq_true, isContinuation_iff,
      isContinuation_iff, isContinuation_iff] at apart
    rw [← Bool.not_eq_true, isQuadruple_iff]
    omega
  rcases rest with _ | ⟨b, _ | ⟨c, _ | ⟨d, rest⟩⟩⟩
  · rfl
  · cases first : isContinuation b <;> simp [opens, first, pair]
  · cases first : isContinuation b <;> cases second : isContinuation c <;>
      simp [opens, first, second, pair, triple]
  · cases first : isContinuation b <;> cases second : isContinuation c <;>
      cases third : isContinuation d <;>
      simp [opens, first, second, third, pair, triple, quadruple]

theorem opens_of_append {a : UInt8} {front back : Text} (apart : opens a (front ++ back) = false) :
    opens a front = false := by
  rcases front with _ | ⟨b, _ | ⟨c, _ | ⟨d, rest⟩⟩⟩
  · rfl
  · rcases back with _ | ⟨c, _ | ⟨d, rest⟩⟩ <;> simp_all [opens]
  · rcases back with _ | ⟨d, rest⟩ <;> simp_all [opens]
  · exact apart

theorem opens_append_of_not_continuation {a b : UInt8} (starts : isContinuation b = false)
    (front back : Text) : opens a (front ++ b :: back) = opens a front := by
  have same : (front ++ b :: back).takeWhile isContinuation = front.takeWhile isContinuation := by
    induction front with
    | nil => simp [starts]
    | cons c rest ih => rw [List.cons_append, List.takeWhile_cons, List.takeWhile_cons, ih]
  rw [← opens_takeWhile, same, opens_takeWhile]

end CodePoint

namespace Text

open CodePoint

theorem codePoints_of_not_opens {a : UInt8} {rest : Text} (apart : opens a rest = false) :
    codePoints (a :: rest) = ofByte a :: codePoints rest := by
  rcases rest with _ | ⟨b, _ | ⟨c, _ | ⟨d, rest⟩⟩⟩
  · simp [codePoints]
  · have noPair : isPair a b = false := apart
    simp [codePoints, noPair]
  · simp only [opens, Bool.or_eq_false_iff] at apart
    simp [codePoints, apart]
  · simp only [opens, Bool.or_eq_false_iff] at apart
    simp [codePoints, apart]

theorem codePoints_of_opens {a : UInt8} {rest : Text} (starts : opens a rest) :
    ∃ c ∈ (codePoints (a :: rest)).head?, 1 < c.bytes.length := by
  rcases rest with _ | ⟨b, _ | ⟨c, _ | ⟨d, rest⟩⟩⟩
  · simp [opens] at starts
  · have two : isPair a b := starts
    exact ⟨.pair a b, by simp [codePoints, two], by simp [pair]⟩
  · by_cases two : isPair a b
    · exact ⟨.pair a b, by rw [codePoints]; simp [two], by simp [pair]⟩
    · have three : isTriple a b c := by simpa [opens, two] using starts
      exact ⟨.triple a b c, by rw [codePoints]; simp [two, three], by simp [triple]⟩
  · by_cases two : isPair a b
    · exact ⟨.pair a b, by rw [codePoints]; simp [two], by simp [pair]⟩
    by_cases three : isTriple a b c
    · exact ⟨.triple a b c, by rw [codePoints]; simp [two, three], by simp [triple]⟩
    · have four : isQuadruple a b c d := by simpa [opens, two, three] using starts
      exact ⟨.quadruple a b c d, by rw [codePoints]; simp [two, three, four], by simp [quadruple]⟩

/-- Marks the place of whole code points, once for a run of them. -/
def gap : List (Option CodePoint) → List (Option CodePoint)
  | none :: rest => none :: rest
  | rest => none :: rest

/-- The stray bytes of a text, with a mark for each run of whole code points. -/
def outline : List CodePoint → List (Option CodePoint)
  | [] => []
  | c :: rest => if c.isBroken then some c :: outline rest else gap (outline rest)

def nextStrays : List (Option CodePoint) → Text
  | some c :: rest => c.bytes ++ nextStrays rest
  | _ => []

/-- No stray byte starts a sequence with those that follow it. -/
def Stands : List (Option CodePoint) → Prop
  | [] => True
  | none :: rest => Stands rest
  | some c :: rest => (∀ a ∈ c.bytes, opens a (nextStrays rest) = false) ∧ Stands rest

@[simp] theorem gap_gap (places : List (Option CodePoint)) : gap (gap places) = gap places := by
  rcases places with _ | ⟨_ | c, rest⟩ <;> rfl

@[simp] theorem nextStrays_gap (places : List (Option CodePoint)) : nextStrays (gap places) = [] := by
  rcases places with _ | ⟨_ | c, rest⟩ <;> rfl

@[simp] theorem stands_gap (places : List (Option CodePoint)) :
    Stands (gap places) ↔ Stands places := by
  rcases places with _ | ⟨_ | c, rest⟩ <;> exact Iff.rfl

theorem outline_broken {c : CodePoint} (broken : c.isBroken) (rest : List CodePoint) :
    outline (c :: rest) = some c :: outline rest := if_pos broken

theorem outline_whole {c : CodePoint} (whole : c.isBroken = false) (rest : List CodePoint) :
    outline (c :: rest) = gap (outline rest) := if_neg (by simp [whole])

theorem outline_run {points : List CodePoint} (present : points ≠ [])
    (whole : ∀ c ∈ points, c.isBroken = false) (rest : List CodePoint) :
    outline (points ++ rest) = gap (outline rest) := by
  induction points with
  | nil => exact absurd rfl present
  | cons c more ih =>
      obtain ⟨first, later⟩ := List.forall_mem_cons.mp whole
      rw [List.cons_append, outline_whole first]
      cases more with
      | nil => rfl
      | cons d others => rw [ih (by simp) later, gap_gap]

theorem isContinuation_encode {v : Nat} (scalar : Quoted.isScalar v) :
    ∃ a rest, encode v = a :: rest ∧ isContinuation a = false := by
  have range := isScalar_iff.mp scalar
  have high : ∀ n, n < 256 → ¬ (0x80 ≤ n ∧ n ≤ 0xBF) → isContinuation n.toUInt8 = false := by
    intro n small apart
    rw [← Bool.not_eq_true, isContinuation_iff, toNat_toUInt8 small]
    exact apart
  by_cases one : v < 0x80
  · exact ⟨_, _, encode_of_ascii one, high _ (by omega) (by omega)⟩
  by_cases two : v < 0x800
  · exact ⟨_, _, encode_of_pair (by omega) two, high _ (by omega) (by omega)⟩
  by_cases three : v < 0x10000
  · exact ⟨_, _, encode_of_triple (by omega) three scalar, high _ (by omega) (by omega)⟩
  · exact ⟨_, _, encode_of_quadruple (by omega) scalar, high _ (by omega) (by omega)⟩

/-- What a byte before some code points can be completed by is known from their outline. -/
theorem continuations_outline {points : List CodePoint}
    (read : ∀ c ∈ points, c.IsWhole ∨ c.IsStray) :
    (ofCodePoints points).takeWhile isContinuation =
      (nextStrays (outline points)).takeWhile isContinuation := by
  induction points with
  | nil => rfl
  | cons c rest ih =>
      obtain ⟨first, later⟩ := List.forall_mem_cons.mp read
      rw [ofCodePoints, List.flatMap_cons]
      rcases first with whole | ⟨a, high, rfl⟩
      · obtain ⟨a, more, same, apart⟩ := isContinuation_encode whole.scalar
        rw [outline_whole whole.not_isBroken, nextStrays_gap, whole.bytes, same]
        simp [apart]
      · rw [outline_broken (isBroken_ofByte high), nextStrays, bytes_ofByte]
        cases more : isContinuation a
        · simp [more]
        · simpa [ofCodePoints, more] using ih later

def IsReadBack (points : List CodePoint) : Prop := (ofCodePoints points).codePoints = points

theorem isReadBack_codePoints (text : Text) : IsReadBack text.codePoints := by
  rw [IsReadBack, ofCodePoints_codePoints]

theorem isReadBack_whole_cons {c : CodePoint} (whole : c.IsWhole) (rest : List CodePoint) :
    IsReadBack (c :: rest) ↔ IsReadBack rest := by
  have same : (⟨c.value, encode c.value⟩ : CodePoint) = c := by rw [← whole.bytes]
  rw [IsReadBack, ofCodePoints, List.flatMap_cons, whole.bytes, codePoints_encode whole.scalar, same,
    List.cons_inj_right]
  exact Iff.rfl

theorem isReadBack_stray_cons {a : UInt8} (rest : List CodePoint) :
    IsReadBack (ofByte a :: rest) ↔ opens a (ofCodePoints rest) = false ∧ IsReadBack rest := by
  rw [IsReadBack, ofCodePoints, List.flatMap_cons, bytes_ofByte, List.singleton_append]
  cases starts : opens a (ofCodePoints rest) with
  | false =>
      rw [← ofCodePoints, codePoints_of_not_opens starts, List.cons_inj_right]
      simp [IsReadBack]
  | true =>
      -- read back, the text starts with a code point of several bytes and not with the stray one
      obtain ⟨d, head, long⟩ := codePoints_of_opens starts
      refine ⟨fun same => ?_, fun apart => absurd apart.1 (by simp)⟩
      rw [ofCodePoints] at head
      rw [same, List.head?_cons, Option.mem_some_iff] at head
      rw [← head, bytes_ofByte] at long
      simp at long

theorem IsReadBack.kinds {points : List CodePoint} (read : IsReadBack points) :
    ∀ c ∈ points, c.IsWhole ∨ c.IsStray := by
  intro c member
  rw [← read] at member
  exact whole_or_stray_of_mem member

/-- Both parts of code points that are read back are read back by themselves. -/
theorem IsReadBack.parts {front back : List CodePoint} (read : IsReadBack (front ++ back)) :
    IsReadBack front ∧ IsReadBack back := by
  induction front with
  | nil => exact ⟨rfl, read⟩
  | cons c rest ih =>
      rw [List.cons_append] at read
      rcases read.kinds c (List.mem_cons_self ..) with whole | ⟨a, _, rfl⟩
      · rw [isReadBack_whole_cons whole] at read ⊢
        exact ih read
      · rw [isReadBack_stray_cons] at read ⊢
        obtain ⟨apart, read⟩ := read
        rw [ofCodePoints, List.flatMap_append] at apart
        exact ⟨⟨opens_of_append apart, (ih read).1⟩, (ih read).2⟩

/-- A byte that continues no sequence starts a code point wherever it stands. -/
theorem codePoints_append_of_not_continuation (text : Text) {b : UInt8}
    (starts : isContinuation b = false) (rest : Text) :
    codePoints (text ++ b :: rest) = codePoints text ++ codePoints (b :: rest) := by
  have read := isReadBack_codePoints text
  rw [← ofCodePoints_codePoints text, read]
  generalize text.codePoints = points at read ⊢
  induction points with
  | nil => rfl
  | cons c more ih =>
      rw [ofCodePoints, List.flatMap_cons, List.append_assoc, ← ofCodePoints]
      rcases read.kinds c (List.mem_cons_self ..) with whole | ⟨a, _, rfl⟩
      · have same : (⟨c.value, encode c.value⟩ : CodePoint) = c := by rw [← whole.bytes]
        rw [isReadBack_whole_cons whole] at read
        rw [whole.bytes, codePoints_encode whole.scalar, same, ih read, List.cons_append]
      · rw [isReadBack_stray_cons] at read
        rw [bytes_ofByte, List.singleton_append, codePoints_of_not_opens, ih read.2,
          List.cons_append]
        rw [opens_append_of_not_continuation starts]
        exact read.1

/-- Code points are read back exactly when their stray bytes stand apart. -/
theorem codePoints_ofCodePoints_iff {points : List CodePoint}
    (read : ∀ c ∈ points, c.IsWhole ∨ c.IsStray) :
    (ofCodePoints points).codePoints = points ↔ Stands (outline points) := by
  rw [← IsReadBack]
  induction points with
  | nil => simp [IsReadBack, ofCodePoints, codePoints, outline, Stands]
  | cons c rest ih =>
      obtain ⟨first, later⟩ := List.forall_mem_cons.mp read
      rcases first with whole | ⟨a, high, rfl⟩
      · rw [isReadBack_whole_cons whole, outline_whole whole.not_isBroken, stands_gap, ih later]
      · have follows : opens a (nextStrays (outline rest)) = opens a (ofCodePoints rest) := by
          rw [← opens_takeWhile, ← continuations_outline later, opens_takeWhile]
        rw [isReadBack_stray_cons, outline_broken (isBroken_ofByte high), Stands, bytes_ofByte,
          List.forall_mem_singleton, follows, ih later]

end Text

end BorrowChecker
