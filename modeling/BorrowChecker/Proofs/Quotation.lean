import BorrowChecker.Proofs.Utf8

/-!
A quoted text is read back as the text, for every byte string: what is escaped is unescaped, and a
byte that is no UTF-8 stands as its own escape.
-/

namespace BorrowChecker

namespace Text

theorem hexDigit_bounds {d : Nat} (small : d < 16) :
    (hexByte.hexDigit d.toUInt8).toNat = if d < 10 then 48 + d else 87 + d := by
  interval_cases d <;> rfl

theorem hexDigits_bounds (width n : Nat) :
    ∀ b ∈ hexDigits width n, 48 ≤ b.toNat ∧ b.toNat < 0x80 := by
  induction width generalizing n with
  | zero => simp [hexDigits]
  | succ width ih =>
      intro b member
      rw [hexDigits, List.mem_append, List.mem_singleton] at member
      rcases member with early | rfl
      · exact ih _ b early
      · rw [hexDigit_bounds (Nat.mod_lt n (by decide))]
        split <;> omega

theorem hexDigits_ascii (width n : Nat) : ∀ b ∈ hexDigits width n, b.toNat < 0x80 :=
  fun b member => (hexDigits_bounds width n b member).2

theorem hex_byte (b : UInt8) : hex [b] = hexDigits 2 b.toNat := by
  have high : b / 16 = (b.toNat / 16 % 16).toUInt8 := by
    rw [← UInt8.toNat_inj, CodePoint.toNat_toUInt8 (by omega)]
    have := b.toNat_lt
    simp
    omega
  have low : b % 16 = (b.toNat % 16).toUInt8 := by
    rw [← UInt8.toNat_inj, CodePoint.toNat_toUInt8 (by omega)]
    simp
  simp [hex, hexByte, hexDigits, high, low]

end Text

namespace Quoted

open CodePoint Text

theorem digits?_append (base : Nat) (value? : Nat → Option Nat) (front : List CodePoint)
    (count acc : Nat) (rest : List CodePoint) :
    digits? base value? (front.length + count) acc (front ++ rest) =
      (digits? base value? front.length acc front).bind fun n =>
        digits? base value? count n rest := by
  induction front generalizing acc with
  | nil => simp [digits?]
  | cons c more ih =>
      rw [List.length_cons, Nat.succ_add_eq_add_succ, List.cons_append]
      change digits? base value? (more.length + count + 1) acc (c :: (more ++ rest)) = _
      simp only [digits?, Option.bind_eq_bind, Option.bind_assoc]
      congr 1
      funext d
      exact ih _

theorem length_hexDigits (width n : Nat) : (hexDigits width n).length = width := by
  induction width generalizing n with
  | zero => rfl
  | succ width ih => rw [hexDigits, List.length_append, ih, List.length_singleton]

theorem hexValue?_hexDigit {d : Nat} (small : d < 16) :
    hexValue? (hexByte.hexDigit d.toUInt8).toNat = some d := by
  interval_cases d <;> rfl

/-- So many hexadecimal digits stand for the number they are written for. -/
theorem digits?_hexDigits {width n : Nat} (fits : n < 16 ^ width) (rest : List CodePoint) :
    digits? 16 hexValue? width 0 ((hexDigits width n).codePoints ++ rest) = some n := by
  suffices padded : ∀ acc, digits? 16 hexValue? width acc ((hexDigits width n).codePoints ++ rest) =
      some (16 ^ width * acc + n) by
    simpa using padded 0
  induction width generalizing n rest with
  | zero =>
      intro acc
      simp [digits?]
      omega
  | succ width ih =>
      intro acc
      have upper : n / 16 < 16 ^ width := by
        rw [Nat.div_lt_iff_lt_mul (by decide), ← pow_succ]
        exact fits
      have last : n % 16 < 16 := Nat.mod_lt n (by decide)
      have count : ((hexDigits width (n / 16)).codePoints).length = width := by
        rw [codePoints_ascii (hexDigits_ascii _ _), List.length_map, length_hexDigits]
      rw [hexDigits, (sealed_of_ascii (hexDigits_ascii _ _)).append_codePoints, List.append_assoc]
      have split := digits?_append 16 hexValue? (hexDigits width (n / 16)).codePoints 1 acc
        (Text.codePoints [hexByte.hexDigit (n % 16).toUInt8] ++ rest)
      have front := ih upper [] acc
      rw [List.append_nil] at front
      rw [count, front, Option.bind_some] at split
      rw [split, codePoints_ascii (by simpa [hexDigit_bounds last] using by split <;> omega)]
      simp only [List.map_cons, List.map_nil, List.singleton_append, digits?,
        hexValue?_hexDigit last, Option.bind_eq_bind, Option.bind_some, Option.some.injEq]
      have shifted : 16 * (16 ^ width * acc) = 16 ^ (width + 1) * acc := by ring
      omega

/-- What an escape after a backslash is written for. -/
theorem decode?_escape {points rest : List CodePoint} {bytes : Text} {c : CodePoint}
    (slash : c.value = 92) (escaped : escape? (points ++ rest) = some (bytes, points.length)) :
    decode? (c :: (points ++ rest)) = (decode? rest).map fun p =>
      (bytes ++ p.1, points.length + 1 + p.2) := by
  rw [decode?, if_neg (by omega), if_neg (by omega), if_pos slash, escaped]
  simp only [List.drop_left]
  cases decode? rest with
  | none => rfl
  | some p => simp; omega

theorem decode?_plain {c : CodePoint} (rest : List CodePoint) (quote : c.value ≠ 34)
    (line : c.value ≠ 10) (slash : c.value ≠ 92) :
    decode? (c :: rest) = (decode? rest).map fun p => (CodePoint.encode c.value ++ p.1, 1 + p.2) := by
  rw [decode?, if_neg quote, if_neg line, if_neg slash]
  cases decode? rest <;> rfl

def point (b : UInt8) : CodePoint := ⟨b.toNat, [b]⟩

theorem codePoints_escape {mark : UInt8} (ascii : mark.toNat < 0x80) (digits : Text) :
    Text.codePoints (92 :: mark :: digits) = point 92 :: point mark :: digits.codePoints := by
  rw [codePoints_ascii_cons (by decide), codePoints_ascii_cons ascii]
  rfl

theorem escape?_byte {v : Nat} (small : v < 16 ^ 2) (rest : List CodePoint) :
    escape? (point 120 :: (hexDigits 2 v).codePoints ++ rest) = some ([v.toUInt8], 3) := by
  simp [escape?, point, digits?_hexDigits small]

theorem escape?_short {v : Nat} (small : v < 16 ^ 4) (scalar : isScalar v)
    (rest : List CodePoint) :
    escape? (point 117 :: (hexDigits 4 v).codePoints ++ rest) = some (CodePoint.encode v, 5) := by
  simp [escape?, point, digits?_hexDigits small, scalar]

theorem escape?_long {v : Nat} (small : v < 16 ^ 8) (scalar : isScalar v)
    (rest : List CodePoint) :
    escape? (point 85 :: (hexDigits 8 v).codePoints ++ rest) = some (CodePoint.encode v, 9) := by
  simp [escape?, point, digits?_hexDigits small, scalar]

theorem escape?_letter {v : Nat} {letter : UInt8} (named : escapeLetter v = some letter)
    (rest : List CodePoint) : escape? (point letter :: rest) = some ([v.toUInt8], 1) := by
  unfold escapeLetter at named
  split at named <;> cases named <;> rfl

theorem escapeLetter_ascii {v : Nat} {letter : UInt8} (named : escapeLetter v = some letter) :
    v < 0x80 ∧ letter.toNat < 0x80 := by
  unfold escapeLetter at named
  split at named <;> cases named <;> decide

/-- A text that reads, up to a closing quote, as some bytes. -/
structure Reads (written bytes : Text) : Prop where
  sealed : written.Sealed
  decodes : ∀ rest, decode? (written.codePoints ++ rest) =
    (decode? rest).map fun p => (bytes ++ p.1, written.codePoints.length + p.2)

theorem reads_escape {mark : UInt8} {digits bytes : Text} (ascii : mark.toNat < 0x80)
    (plain : ∀ b ∈ digits, b.toNat < 0x80)
    (escaped : ∀ rest, escape? (point mark :: digits.codePoints ++ rest) =
      some (bytes, digits.length + 1)) : Reads (92 :: mark :: digits) bytes where
  sealed := by
    refine sealed_of_ascii fun b member => ?_
    rcases List.mem_cons.mp member with rfl | later
    · decide
    rcases List.mem_cons.mp later with rfl | last
    · exact ascii
    · exact plain b last
  decodes rest := by
    have length : digits.codePoints.length = digits.length := by
      rw [codePoints_ascii plain, List.length_map]
    rw [codePoints_escape ascii, List.cons_append, decode?_escape rfl]
    · rfl
    · rw [escaped, List.length_cons, length]

theorem reads_whole {c : CodePoint} (whole : c.IsWhole) (quote : c.value ≠ 34)
    (line : c.value ≠ 10) (slash : c.value ≠ 92) : Reads c.bytes c.bytes := by
  have points : c.bytes.codePoints = [c] := by
    simpa [ofCodePoints] using @codePoints_ofCodePoints [c] (by simpa using whole)
  refine ⟨?_, fun rest => ?_⟩
  · unfold Sealed
    simpa [points] using whole
  · rw [points, List.singleton_append, decode?_plain rest quote line slash, ← whole.bytes]
    rfl

theorem isPrintable_newline : isPrintable 10 = false := rfl

theorem reads_encodePoint {c : CodePoint} (kind : c.IsWhole ∨ c.isBroken) :
    Reads (encodePoint 34 c) c.bytes := by
  unfold encodePoint
  by_cases broken : c.isBroken
  · obtain ⟨_, single⟩ : c.value = replacement ∧ c.bytes.length = 1 := by
      simpa [isBroken] using broken
    obtain ⟨b, bytes⟩ := List.length_eq_one_iff.mp single
    rw [if_pos broken, bytes, hex_byte]
    change Reads (92 :: 120 :: hexDigits 2 b.toNat) [b]
    refine reads_escape (by decide) (hexDigits_ascii _ _) fun rest => ?_
    rw [escape?_byte b.toNat_lt, length_hexDigits, ← eq_toUInt8 rfl]
  · have whole := kind.resolve_right broken
    rw [if_neg broken]
    split
    · rename_i marked
      have bytes : c.bytes = [c.value.toUInt8] := by
        rw [whole.bytes, encode_of_ascii]
        rcases marked with same | same <;> simp [same]
      rw [bytes]
      refine reads_escape ?_ (by simp) fun rest => ?_
      · rcases marked with same | same <;> simp [same]
      · rcases marked with same | same <;> simp [same, point, escape?, Text.codePoints]
    · rename_i unmarked
      have plain : c.value ≠ 34 ∧ c.value ≠ 92 := by simpa using unmarked
      split
      · rename_i printable
        refine reads_whole whole plain.1 (fun line => ?_) plain.2
        rw [line, isPrintable_newline] at printable
        exact Bool.false_ne_true printable
      · split
        · rename_i letter named
          obtain ⟨small, ascii⟩ := escapeLetter_ascii named
          rw [whole.bytes, encode_of_ascii small]
          exact reads_escape ascii (by simp) (escape?_letter named)
        · have scalar := isScalar_iff.mp whole.scalar
          split
          · rename_i small
            rw [whole.bytes, encode_of_ascii small]
            change Reads (92 :: 120 :: hexDigits 2 c.value) [c.value.toUInt8]
            refine reads_escape (by decide) (hexDigits_ascii _ _) fun rest => ?_
            rw [escape?_byte (by omega), length_hexDigits]
          · split
            · rename_i short
              rw [whole.bytes]
              change Reads (92 :: 117 :: hexDigits 4 c.value) (CodePoint.encode c.value)
              refine reads_escape (by decide) (hexDigits_ascii _ _) fun rest => ?_
              rw [escape?_short (by omega) whole.scalar, length_hexDigits]
            · rw [whole.bytes]
              change Reads (92 :: 85 :: hexDigits 8 c.value) (CodePoint.encode c.value)
              refine reads_escape (by decide) (hexDigits_ascii _ _) fun rest => ?_
              rw [escape?_long (by omega) whole.scalar, length_hexDigits]

theorem Reads.append {first second bytes more : Text} (left : Reads first bytes)
    (right : Reads second more) : Reads (first ++ second) (bytes ++ more) where
  sealed := left.sealed.append right.sealed
  decodes rest := by
    rw [left.sealed.append_codePoints, List.append_assoc, left.decodes, right.decodes,
      Option.map_map, List.length_append]
    congr 1
    funext p
    simp only [Function.comp_apply, List.append_assoc, Nat.add_assoc]

theorem reads_nil : Reads [] [] where
  sealed := by simp [Sealed, Text.codePoints]
  decodes rest := by
    cases found : decode? rest <;> simp [Text.codePoints, found]

theorem reads_encodePoints {points : List CodePoint}
    (kinds : ∀ c ∈ points, c.IsWhole ∨ c.isBroken) :
    Reads (points.flatMap (encodePoint 34)) (ofCodePoints points) := by
  induction points with
  | nil => exact reads_nil
  | cons c rest ih =>
      rw [List.flatMap_cons, ofCodePoints, List.flatMap_cons]
      exact (reads_encodePoint (kinds c (List.mem_cons_self ..))).append
        (ih fun d member => kinds d (List.mem_cons_of_mem c member))

theorem sealed_encode (text : Text) : (encode text).Sealed := by
  have reads := @reads_encodePoints text.codePoints fun c => mem_codePoints
  have quote : Text.Sealed [34] := sealed_of_ascii (ascii_of_all (by decide))
  exact quote.append (reads.sealed.append quote)

/-- The code points of a quoted text after the opening quote: read as far as the closing quote, they
are the text. -/
theorem decode?_encode (text : Text) : ∃ inner : List CodePoint,
    (encode text).codePoints = point 34 :: inner ∧
      ∀ rest, decode? (inner ++ rest) = some (text, inner.length) := by
  have reads := @reads_encodePoints text.codePoints fun c => mem_codePoints
  rw [ofCodePoints_codePoints] at reads
  refine ⟨Text.codePoints (text.codePoints.flatMap (encodePoint 34)) ++ [point 34], ?_,
    fun rest => ?_⟩
  · rw [encode, codePoints_ascii_cons (by decide), reads.sealed.append_codePoints]
    rfl
  · have closing : decode? (point 34 :: rest) = some ([], 1) := by
      rw [decode?, if_pos (by rfl)]
    rw [List.append_assoc, reads.decodes, List.singleton_append, closing]
    simp

end Quoted

end BorrowChecker
