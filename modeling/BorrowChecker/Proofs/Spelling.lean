import BorrowChecker.Proofs.Letters
import BorrowChecker.Proofs.Quotation

/-!
How a text that is put together from pieces is split into tokens: piece by piece, as long as no
name or number is followed by something that would continue it. A piece with names in it that are
no identifiers makes the whole line fail.
-/

namespace BorrowChecker

namespace Source

open Text CodePoint

abbrev Word := TokenKind × Text

def Token.word (t : Token) : Word := (t.kind, t.text)

def symbol (text : Text) : Word := (.punct, text)

def named (text : Text) : Word := (.ident, text)

def Stops (c : CodePoint) : Prop := isNamePoint c = false ∧ c.value ≠ 46

def Apart (rest : List CodePoint) : Prop := ∀ c ∈ rest.head?, Stops c

def isIdentifier (name : Text) : Bool :=
  match name.codePoints with
  | [] => false
  | c :: rest => (c.value == 95 || isLetter c.value) && rest.all isNamePoint

/-- A piece of a line is split into words, whatever follows it; what follows has to stand apart when
the piece ends in a name or a number. When one of its names is no identifier, the line is refused. -/
structure Lexes (names : List Text) (loose : Bool) (text : Text) (words : List Word) : Prop where
  sealed : text.Sealed
  splits : (∀ name ∈ names, isIdentifier name) → ∀ pos rest, (loose → Apart rest) →
    ∃ front next, front.map Token.word = words ∧
      lexFrom pos (text.codePoints ++ rest) = (lexFrom next rest).map (front ++ ·)
  refuses : ¬ (∀ name ∈ names, isIdentifier name) → ∀ pos rest, (loose → Apart rest) →
    ∃ fault, lexFrom pos (text.codePoints ++ rest) = .error fault

def Opens (text : Text) : Prop := ∃ c rest, text.codePoints = c :: rest ∧ Stops c

namespace Lexes

variable {names more : List Text} {loose next : Bool} {text rest : Text} {words after : List Word}

theorem append (first : Lexes names loose text words) (second : Lexes more next rest after)
    (opens : loose → Opens rest) :
    Lexes (names ++ more) next (text ++ rest) (words ++ after) := by
  have apart : ∀ tail, loose → Apart (rest.codePoints ++ tail) := by
    intro tail isLoose
    obtain ⟨c, others, starts, stops⟩ := opens isLoose
    intro d isHead
    rw [starts, List.cons_append, List.head?_cons, Option.mem_some_iff] at isHead
    exact isHead ▸ stops
  refine ⟨first.sealed.append second.sealed, ?_, ?_⟩
  · intro fine pos tail isApart
    obtain ⟨front, middle, spelled, lexed⟩ := first.splits
      (fun name member => fine name (List.mem_append_left _ member)) pos _ (apart tail)
    obtain ⟨back, last, spelledBack, lexedBack⟩ := second.splits
      (fun name member => fine name (List.mem_append_right _ member)) middle tail isApart
    refine ⟨front ++ back, last, by rw [List.map_append, spelled, spelledBack], ?_⟩
    rw [first.sealed.append_codePoints, List.append_assoc, lexed, lexedBack]
    cases lexFrom last tail with
    | error fault => rfl
    | ok tokens => exact congrArg Except.ok (List.append_assoc ..).symm
  · intro coarse pos tail isApart
    rw [first.sealed.append_codePoints, List.append_assoc]
    by_cases fine : ∀ name ∈ names, isIdentifier name
    · obtain ⟨front, middle, _, lexed⟩ := first.splits fine pos _ (apart tail)
      have coarseBack : ¬ ∀ name ∈ more, isIdentifier name := by
        intro fineBack
        refine coarse fun name member => ?_
        exact (List.mem_append.mp member).elim (fine name) (fineBack name)
      obtain ⟨fault, failed⟩ := second.refuses coarseBack middle tail isApart
      exact ⟨fault, by rw [lexed, failed]; rfl⟩
    · exact first.refuses fine pos _ (apart tail)

/-- A piece that ends in neither a name nor a number may be followed by anything. -/
theorem andThen (first : Lexes names false text words) (second : Lexes more next rest after) :
    Lexes (names ++ more) next (text ++ rest) (words ++ after) :=
  first.append second (by simp)

theorem relax (lexes : Lexes names false text words) : Lexes names true text words :=
  ⟨lexes.sealed, fun fine pos rest _ => lexes.splits fine pos rest (by simp),
    fun coarse pos rest _ => lexes.refuses coarse pos rest (by simp)⟩

/-- A piece without names. -/
theorem of_splits (sealed_ : text.Sealed)
    (splits : ∀ pos rest, (loose → Apart rest) → ∃ front next, front.map Token.word = words ∧
      lexFrom pos (text.codePoints ++ rest) = (lexFrom next rest).map (front ++ ·)) :
    Lexes [] loose text words :=
  ⟨sealed_, fun _ => splits, fun coarse => absurd (by simp) coarse⟩

end Lexes

theorem lexFrom_of_scan {pos : Nat} {c : CodePoint} {rest : List CodePoint} {kind : TokenKind}
    {text : Text} {extra : Nat} (solid : isBlank c.value = false)
    (scanned : scan pos c rest = .ok (kind, text, extra)) :
    lexFrom pos (c :: rest) =
      (lexFrom (pos + (Text.ofCodePoints (c :: rest.take extra)).length) (rest.drop extra)).map
        ([⟨kind, text, pos⟩] ++ ·) := by
  rw [lexFrom, if_neg (by simp [solid]), scanned]
  simp only
  cases lexFrom _ (rest.drop extra) <;> rfl

theorem lexFrom_of_fault {pos : Nat} {c : CodePoint} {rest : List CodePoint} {fault : Fault}
    (solid : isBlank c.value = false) (scanned : scan pos c rest = .error fault) :
    lexFrom pos (c :: rest) = .error fault := by
  rw [lexFrom, if_neg (by simp [solid]), scanned]

/-- One token that takes exactly a text. -/
theorem lexes_token {text : Text} {kind : TokenKind} {content : Text} {loose : Bool}
    (sealed_ : text.Sealed) {c : CodePoint} {more : List CodePoint}
    (points : text.codePoints = c :: more) (solid : isBlank c.value = false)
    (scans : ∀ pos rest, (loose → Apart rest) →
      scan pos c (more ++ rest) = .ok (kind, content, more.length)) :
    Lexes [] loose text [(kind, content)] := by
  refine .of_splits sealed_ fun pos rest apart => ?_
  have lexed := lexFrom_of_scan solid (scans pos rest apart)
  rw [List.drop_left] at lexed
  rw [points, List.cons_append]
  exact ⟨[⟨kind, content, pos⟩], _, rfl, lexed⟩

theorem codePoints_byte {b : UInt8} (ascii : b.toNat < 0x80) :
    Text.codePoints [b] = [⟨b.toNat, [b]⟩] :=
  codePoints_ascii_cons ascii []

theorem sealed_byte {b : UInt8} (ascii : b.toNat < 0x80) : Text.Sealed [b] :=
  sealed_of_ascii (by simpa using ascii)

theorem lexes_blank : Lexes [] false [32] [] := by
  refine .of_splits (sealed_byte (by decide)) fun pos rest _ => ⟨[], pos + 1, rfl, ?_⟩
  rw [codePoints_byte (by decide), List.singleton_append, lexFrom, if_pos (by decide)]
  cases lexFrom (pos + 1) rest <;> rfl

/-- The symbols of one character that start no longer one. -/
def symbols : Text := [33, 38, 40, 41, 42, 44, 61, 91, 93]

theorem symbols_ascii {b : UInt8} (one : b ∈ symbols) :
    b.toNat < 0x80 ∧ isBlank b.toNat = false := by
  have all : symbols.all (fun b => b.toNat < 0x80 && !isBlank b.toNat) := by decide
  simpa using List.all_eq_true.mp all b one

theorem lexes_symbol {b : UInt8} (one : b ∈ symbols) : Lexes [] false [b] [symbol [b]] := by
  obtain ⟨ascii, solid⟩ := symbols_ascii one
  refine lexes_token (sealed_byte ascii) (codePoints_byte ascii) solid fun pos rest _ => ?_
  simp only [symbols, List.mem_cons, List.not_mem_nil, or_false] at one
  rcases one with rfl | rfl | rfl | rfl | rfl | rfl | rfl | rfl | rfl <;> rfl

theorem lexes_arrow : Lexes [] false [45, 62] [symbol [45, 62]] :=
  lexes_token (sealed_of_ascii (ascii_of_all (by decide)))
    (codePoints_ascii (ascii_of_all (by decide))) (by decide) fun _ _ _ => rfl

theorem lexes_path : Lexes [] false [58, 58] [symbol [58, 58]] :=
  lexes_token (sealed_of_ascii (ascii_of_all (by decide)))
    (codePoints_ascii (ascii_of_all (by decide))) (by decide) fun _ _ _ => rfl

/-- A colon and a blank; a second colon would make it another symbol. -/
theorem lexes_colon : Lexes [] false [58, 32] [symbol [58]] := by
  refine .of_splits (sealed_of_ascii (ascii_of_all (by decide))) fun pos rest _ => ?_
  have scanned : scan pos ⟨58, [58]⟩ (⟨32, [32]⟩ :: rest) = .ok (.punct, [58], 0) := rfl
  have blank : ∀ next, lexFrom next (⟨32, [32]⟩ :: rest) = lexFrom (next + 1) rest := by
    intro next
    rw [lexFrom, if_pos (by decide)]
    rfl
  have lexed := lexFrom_of_scan (by decide) scanned
  rw [List.drop_zero, blank] at lexed
  rw [codePoints_ascii (ascii_of_all (by decide))]
  exact ⟨[⟨.punct, [58], pos⟩], _, rfl, lexed⟩

theorem takeWhile_append_apart {name rest : List CodePoint} (inside : name.all isNamePoint)
    (apart : Apart rest) : (name ++ rest).takeWhile isNamePoint = name := by
  rw [List.takeWhile_append_of_pos (List.all_eq_true.mp inside)]
  cases rest with
  | nil => simp
  | cons c more =>
      have stops : isNamePoint c = false := (apart c rfl).1
      simp [stops]

theorem scan_name (pos : Nat) {c : CodePoint} {name rest : List CodePoint}
    (starts : c.value = 95 ∨ isLetter c.value) (inside : name.all isNamePoint)
    (apart : Apart rest) :
    scan pos c (name ++ rest) = .ok (.ident, Text.ofCodePoints (c :: name), name.length) := by
  rw [scan, if_pos starts]
  simp only [takeWhile_append_apart inside apart]

theorem isIdentifier_iff {name : Text} : isIdentifier name ↔ ∃ c rest,
    name.codePoints = c :: rest ∧ (c.value = 95 ∨ isLetter c.value) ∧ rest.all isNamePoint := by
  unfold isIdentifier
  cases name.codePoints with
  | nil => simp
  | cons c rest =>
      simp only [Bool.and_eq_true, Bool.or_eq_true, beq_iff_eq, List.cons.injEq]
      constructor
      · rintro ⟨starts, inside⟩
        exact ⟨c, rest, ⟨rfl, rfl⟩, starts, inside⟩
      · rintro ⟨c, rest, ⟨rfl, rfl⟩, starts, inside⟩
        exact ⟨starts, inside⟩

/-- A code point of a text that ends no token unless it is refused: it is whole, an ASCII one belongs
to names, and the others are not skipped. -/
structure Bonds (c : CodePoint) : Prop where
  whole : c.IsWhole
  ascii : c.value < 0x80 → isNamePoint c
  solid : isBlank c.value = false

/-- A text that is an identifier or is refused wherever it stands. -/
structure IsWordlike (name : Text) : Prop where
  bonds : ∀ c ∈ name.codePoints, Bonds c
  starts : ∃ c rest, name.codePoints = c :: rest ∧ isAsciiDigit c.value = false

theorem bonds_of_isNamePoint {c : CodePoint} (kind : c.IsWhole ∨ c.isBroken)
    (name : isNamePoint c) : Bonds c where
  whole := by
    refine kind.resolve_right fun broken => ?_
    have value : c.value = replacement := by
      simp only [isBroken, Bool.and_eq_true, beq_iff_eq] at broken
      exact broken.1
    refine not_outsider_of_isNamePoint name ?_
    rw [value]
    decide
  ascii _ := name
  solid := solid_of_isNamePoint name

/-- A code point beyond ASCII that belongs to no name is refused. -/
theorem scan_fault (pos : Nat) {c : CodePoint} (rest : List CodePoint) (high : 0x80 ≤ c.value)
    (starts : ¬ (c.value = 95 ∨ isLetter c.value)) : ∃ fault, scan pos c rest = .error fault := by
  have noSymbol : isSymbol c.value = false := by
    rw [isSymbol, List.any_eq_false]
    intro b member
    have small := ascii_of_all (show (Text.ofString "&*!()[],:=").all (·.toNat < 0x80) by decide) b member
    simp only [beq_iff_eq]
    omega
  have noDigits : scanNumber (c :: rest) = none := by
    have sign : ¬ c.value = 45 := by omega
    have run : digitRun (c :: rest) = 0 := by
      have other : isDigitPoint c = false := by
        simp [isDigitPoint, isAsciiDigit]
        omega
      simp [digitRun, other]
    simp [scanNumber, sign, run]
  refine ⟨.unexpectedCharacter pos c.value, ?_⟩
  rw [scan, if_neg starts, if_neg (by omega), if_neg (by omega), if_neg (by omega),
    if_neg (by omega), noDigits, noSymbol]
  simp

theorem split_at_stop {points : List CodePoint} (mixed : ¬ points.all isNamePoint) :
    ∃ inside d more, points = inside ++ d :: more ∧ inside.all isNamePoint ∧ ¬ isNamePoint d := by
  induction points with
  | nil => simp at mixed
  | cons c rest ih =>
      by_cases name : isNamePoint c
      · obtain ⟨inside, d, more, split, all, stops⟩ := ih (by simpa [name] using mixed)
        exact ⟨c :: inside, d, more, by rw [split, List.cons_append], by simp [name, all], stops⟩
      · exact ⟨[], c, rest, rfl, rfl, name⟩

theorem Bonds.high {c : CodePoint} (bond : Bonds c) (stops : ¬ isNamePoint c) :
    0x80 ≤ c.value := by
  by_contra low
  exact stops (bond.ascii (by omega))

theorem Bonds.refused {c : CodePoint} (bond : Bonds c) (stops : ¬ isNamePoint c) (pos : Nat)
    (rest : List CodePoint) : ∃ fault, lexFrom pos (c :: rest) = .error fault := by
  obtain ⟨fault, scanned⟩ := scan_fault pos rest (bond.high stops)
    fun starts => stops (isNamePoint_of_starts starts)
  exact ⟨fault, lexFrom_of_fault bond.solid scanned⟩

theorem lexes_name {name : Text} (wordlike : IsWordlike name) :
    Lexes [name] true name [named name] := by
  refine ⟨fun d member => (wordlike.bonds d member).whole, ?_, ?_⟩
  · intro fine pos tail apart
    obtain ⟨c, rest, points, starts, inside⟩ :=
      isIdentifier_iff.mp (fine name (List.mem_singleton_self _))
    have lexed := lexFrom_of_scan (solid_of_isNamePoint (isNamePoint_of_starts starts))
      (scan_name pos starts inside (apart rfl))
    rw [← points, ofCodePoints_codePoints, List.drop_left] at lexed
    rw [points]
    exact ⟨[⟨.ident, name, pos⟩], _, rfl, lexed⟩
  · intro coarse pos tail _
    obtain ⟨c, rest, points, digit⟩ := wordlike.starts
    have bond : Bonds c := wordlike.bonds c (points ▸ List.mem_cons_self ..)
    rw [points, List.cons_append]
    by_cases starts : c.value = 95 ∨ isLetter c.value
    · -- The name breaks off at a code point that no token starts with.
      have mixed : ¬ rest.all isNamePoint := by
        intro inside
        have fine := isIdentifier_iff.mpr ⟨c, rest, points, starts, inside⟩
        exact coarse (by simpa using fine)
      obtain ⟨inside, d, more, split, all, stops⟩ := split_at_stop mixed
      have bondStop : Bonds d := wordlike.bonds d (by rw [points, split]; simp)
      have apart : Apart (d :: (more ++ tail)) := by
        intro e isHead
        obtain rfl : d = e := Option.mem_some_iff.mp isHead
        have high := bondStop.high stops
        exact ⟨by simpa using stops, by omega⟩
      have lexed := lexFrom_of_scan bond.solid (scan_name pos starts all apart)
      rw [List.drop_left] at lexed
      obtain ⟨fault, failed⟩ := bondStop.refused stops
        (pos + (Text.ofCodePoints (c :: (inside ++ d :: (more ++ tail)).take inside.length)).length)
        (more ++ tail)
      rw [split, List.append_assoc, List.cons_append, lexed, failed]
      exact ⟨fault, rfl⟩
    · have high : 0x80 ≤ c.value := by
        by_contra low
        have name := (isNamePoint_ascii (by omega)).mp (bond.ascii (by omega))
        simp only [isLetter, if_pos (show c.value < 0x80 by omega), isAsciiLetter, isAsciiDigit,
          Bool.or_eq_true, Bool.and_eq_true, decide_eq_true_eq, Bool.and_eq_false_iff,
          decide_eq_false_iff_not] at starts digit
        omega
      obtain ⟨fault, scanned⟩ := scan_fault pos (rest ++ tail) high starts
      exact ⟨fault, lexFrom_of_fault bond.solid scanned⟩

theorem not_digit_of_starts {c : CodePoint} (starts : c.value = 95 ∨ isLetter c.value) :
    isAsciiDigit c.value = false := by
  by_contra digit
  simp only [isAsciiDigit, Bool.not_eq_false, Bool.and_eq_true, decide_eq_true_eq] at digit
  simp only [isLetter, if_pos (show c.value < 0x80 by omega), isAsciiLetter, Bool.or_eq_true,
    Bool.and_eq_true, decide_eq_true_eq] at starts
  omega

theorem wordlike_of_isIdentifier {name : Text} (ident : isIdentifier name) : IsWordlike name := by
  obtain ⟨c, rest, points, starts, inside⟩ := isIdentifier_iff.mp ident
  refine ⟨fun d member => bonds_of_isNamePoint (mem_codePoints member) ?_,
    c, rest, points, not_digit_of_starts starts⟩
  rw [points] at member
  rcases List.mem_cons.mp member with rfl | later
  · exact isNamePoint_of_starts starts
  · exact List.all_eq_true.mp inside d later

/-- An identifier that is known to be one. -/
theorem lexes_keyword {name : Text} (ident : isIdentifier name) :
    Lexes [] true name [named name] := by
  have lexes := lexes_name (wordlike_of_isIdentifier ident)
  exact .of_splits lexes.sealed (lexes.splits (by simpa using ident))

def isLifetime (name : Text) : Bool := !name.isEmpty && name.codePoints.all isNamePoint

theorem lexes_lifetime {name : Text} (valid : isLifetime name) :
    Lexes [] true (39 :: name) [(.lifetime, name)] := by
  simp only [isLifetime, Bool.and_eq_true, Bool.not_eq_true', List.isEmpty_eq_false_iff] at valid
  obtain ⟨present, inside⟩ := valid
  have whole : name.Sealed := fun c member =>
    (bonds_of_isNamePoint (mem_codePoints member) (List.all_eq_true.mp inside c member)).whole
  have nonempty : name.codePoints.isEmpty = false := by
    rw [List.isEmpty_eq_false_iff]
    intro none
    have same := ofCodePoints_codePoints name
    rw [none] at same
    exact present same.symm
  have quote : Text.Sealed [39] := sealed_byte (by decide)
  refine lexes_token (quote.append whole) (codePoints_ascii_cons (by decide) name) (by decide) ?_
  intro pos rest apart
  have letters : ¬ ((39 : UInt8).toNat = 95 ∨ isLetter (39 : UInt8).toNat) := by decide
  rw [scan, if_neg letters, if_pos (by rfl)]
  simp only [takeWhile_append_apart inside (apart rfl), nonempty, ofCodePoints_codePoints,
    Bool.false_eq_true, if_false]

theorem lexes_string (text : Text) : Lexes [] false (Quoted.encode text) [(.string, text)] := by
  obtain ⟨inner, points, decodes⟩ := Quoted.decode?_encode text
  refine lexes_token (Quoted.sealed_encode text) points (by decide) fun pos rest _ => ?_
  have letters : ¬ ((Quoted.point 34).value = 95 ∨ isLetter (Quoted.point 34).value) := by decide
  rw [scan, if_neg letters, if_neg (by decide), if_pos (by rfl), decodes]

end Source

end BorrowChecker
