import BorrowChecker.Proofs.Lexeme
import BorrowChecker.Proofs.Printed

/-!
An accepted line is tiled by its tokens. The bytes of the line are cut into slices, one for each
token at the offset it gives, and gaps of white space; each slice is written as its token says and is
the longest token at its place. Written out again with single blanks between them, the tokens give
the same kinds and texts. A line of any bytes is done after at most one round for each byte.
-/

namespace BorrowChecker

namespace Quoted

def unquote? (literal : Text) : Option Text :=
  match literal.codePoints with
  | [] => none
  | c :: inside =>
    match decode? inside with
    | none => none
    | some (text, used) => if c.value = 34 ∧ used = inside.length then some text else none

end Quoted

namespace Source

open Text CodePoint

/-! ## Tiles -/

/-- The bytes of a token in a line: the text itself, with an apostrophe before it, or in quotes. -/
def Token.IsWrittenAs (t : Token) (slice : Text) : Prop :=
  match t.kind with
  | .eof => False
  | .ident | .int | .float | .punct => slice = t.text
  | .lifetime => slice = 39 :: t.text
  | .string => Quoted.unquote? slice = some t.text

/-- A slice of a line and what comes after it: the slice is the token, and nothing longer is one. -/
structure Token.Covers (t : Token) (slice rest : Text) : Prop where
  written : t.IsWrittenAs slice
  lexeme : Lexeme slice.codePoints t.kind t.text
  longest : ∀ points kind text, points <+: (slice ++ rest).codePoints → Lexeme points kind text →
    points.length ≤ slice.codePoints.length

def IsGap (text : Text) : Prop := ∀ c ∈ text.codePoints, isBlank c.value

/-- The bytes of a line from an offset on, cut into gaps and slices of tokens. -/
inductive Tiles : Nat → Text → List Token → Prop
  | done {pos : Nat} : Tiles pos [] [⟨.eof, [], pos⟩]
  | gap {pos : Nat} {gap rest : Text} {tokens : List Token} : IsGap gap →
      Tiles (pos + gap.length) rest tokens → Tiles pos (gap ++ rest) tokens
  | token {pos : Nat} {slice rest : Text} {t : Token} {tokens : List Token} : t.pos = pos →
      t.Covers slice rest → Tiles (pos + slice.length) rest tokens →
      Tiles pos (slice ++ rest) (t :: tokens)

theorem bytes_of_value {c : CodePoint} (kind : c.IsWhole ∨ c.IsStray) {v : Nat}
    (value : c.value = v) (ascii : v < 0x80) : c.bytes = [v.toUInt8] := by
  rcases kind with whole | stray
  · rw [whole.bytes, value, encode_of_ascii ascii]
  · have other := value_of_broken stray.isBroken
    simp only [replacement] at other
    omega

theorem unquote?_literal {c : CodePoint} {inside : List CodePoint} {text : Text}
    (read : IsReadBack (c :: inside)) (quote : c.value = 34)
    (reads : Quoted.decode? inside = some (text, inside.length)) :
    Quoted.unquote? (ofCodePoints (c :: inside)) = some text := by
  rw [Quoted.unquote?, read]
  simp only [reads]
  rw [if_pos ⟨quote, trivial⟩]

theorem Lexeme.isWrittenAs {points : List CodePoint} {kind : TokenKind} {text : Text}
    (lexeme : Lexeme points kind text) (read : IsReadBack points) (pos : Nat) :
    (⟨kind, text, pos⟩ : Token).IsWrittenAs (ofCodePoints points) := by
  have kinds := read.kinds
  cases lexeme with
  | name => exact rfl
  | lifetime quote =>
      have bytes := bytes_of_value (kinds _ (List.mem_cons_self ..)) quote (by decide)
      change ofCodePoints (_ :: _) = 39 :: _
      rw [ofCodePoints, List.flatMap_cons, bytes]
      rfl
  | string quote reads => exact unquote?_literal read quote reads
  | @arrow c d minus angle =>
      have first := bytes_of_value (kinds c (by simp)) minus (by decide)
      have second := bytes_of_value (kinds d (by simp)) angle (by decide)
      change ofCodePoints [c, d] = "->"
      simp only [ofCodePoints, List.flatMap_cons, List.flatMap_nil, first, second]
      decide
  | @path c d colon next =>
      have first := bytes_of_value (kinds c (by simp)) colon (by decide)
      have second := bytes_of_value (kinds d (by simp)) next (by decide)
      change ofCodePoints [c, d] = "::"
      simp only [ofCodePoints, List.flatMap_cons, List.flatMap_nil, first, second]
      decide
  | number isNumber =>
      obtain @⟨_, _, fraction, exponent, _, _, _, _⟩ := isNumber
      unfold numberKind
      split <;> exact rfl
  | symbol => simp [Token.IsWrittenAs, ofCodePoints]

theorem Lexeme.covers {pos : Nat} {c : CodePoint} {inside left : List CodePoint} {kind : TokenKind}
    {text : Text} (lexeme : Lexeme (c :: inside) kind text)
    (scanned : scan pos c (inside ++ left) = .ok (kind, text, inside.length))
    (read : IsReadBack (c :: (inside ++ left))) :
    (⟨kind, text, pos⟩ : Token).Covers (ofCodePoints (c :: inside)) (ofCodePoints left) := by
  rw [← List.cons_append] at read
  have front := read.parts.1
  refine ⟨lexeme.isWrittenAs front pos, by rw [front]; exact lexeme, ?_⟩
  intro points kind text isFront other
  have whole : (ofCodePoints (c :: inside) ++ ofCodePoints left).codePoints = c :: inside ++ left := by
    rw [ofCodePoints, ofCodePoints, ← List.flatMap_append]
    exact read
  rw [whole] at isFront
  rw [front]
  obtain ⟨after, split⟩ := isFront
  cases points with
  | nil => exact Nat.zero_le _
  | cons d more =>
      rw [List.cons_append, List.cons_append, List.cons.injEq] at split
      obtain ⟨rfl, split⟩ := split
      rw [← split] at scanned
      have longest := other.length_le scanned
      rw [List.length_cons, List.length_cons]
      exact Nat.succ_le_succ longest

theorem isGap_of_blank {c : CodePoint} (kind : c.IsWhole ∨ c.IsStray) (blank : isBlank c.value) :
    IsGap c.bytes := by
  have whole : c.IsWhole := by
    refine kind.resolve_right fun stray => ?_
    rw [value_of_broken stray.isBroken] at blank
    exact absurd blank (by decide)
  have alone := codePoints_encode whole.scalar []
  rw [List.append_nil, ← whole.bytes] at alone
  intro d member
  rw [alone, Text.codePoints, List.mem_singleton] at member
  rw [member]
  exact blank

theorem lexFrom_tiles {pos : Nat} {points : List CodePoint} {tokens : List Token}
    (read : IsReadBack points) (lexed : lexFrom pos points = .ok tokens) :
    Tiles pos (ofCodePoints points) tokens := by
  fun_induction lexFrom pos points generalizing tokens with
  | case1 pos =>
      obtain rfl := Except.ok.inj lexed
      exact .done
  | case2 pos c rest blank ih =>
      have kind := read.kinds c (List.mem_cons_self ..)
      rw [← List.singleton_append] at read
      exact .gap (isGap_of_blank kind blank) (ih read.parts.2 lexed)
  | case3 => simp at lexed
  | case4 => simp at lexed
  | case5 pos c rest _ kind text extra scanned width tokens more =>
      rename_i ih
      obtain rfl := Except.ok.inj lexed
      obtain ⟨inside, left, rfl, rfl, lexeme⟩ := lexeme_of_scan scanned
      have cut : ofCodePoints (c :: (inside ++ left)) =
          ofCodePoints (c :: inside) ++ ofCodePoints left := by
        rw [← List.cons_append, ofCodePoints, List.flatMap_append]
        rfl
      have covers := lexeme.covers scanned read
      rw [← List.cons_append] at read
      simp only [width, List.take_left, List.drop_left] at more ih
      rw [cut]
      exact .token rfl covers (ih read.parts.2 more)

section Places

variable {pos : Nat} {text : Text} {tokens : List Token}

theorem Token.Covers.length_pos {t : Token} {slice rest : Text} (covers : t.Covers slice rest) :
    0 < slice.length := by
  refine List.length_pos_iff.mpr ?_
  rintro rfl
  exact covers.lexeme.ne_nil rfl

theorem Tiles.le_pos (tiles : Tiles pos text tokens) : ∀ t ∈ tokens, pos ≤ t.pos := by
  induction tiles with
  | done => simp
  | gap _ _ ih =>
      intro t member
      exact Nat.le_of_add_right_le (ih t member)
  | token place _ _ ih =>
      intro t member
      rcases List.mem_cons.mp member with rfl | later
      · exact Nat.le_of_eq place.symm
      · exact Nat.le_of_add_right_le (ih t later)

theorem Tiles.pairwise (tiles : Tiles pos text tokens) :
    tokens.Pairwise fun t u => t.pos < u.pos := by
  induction tiles with
  | done => exact List.pairwise_singleton ..
  | gap _ _ ih => exact ih
  | token place covers others ih =>
      refine List.pairwise_cons.mpr ⟨fun u member => ?_, ih⟩
      have behind := others.le_pos u member
      have present := covers.length_pos
      omega

theorem Tiles.shape (tiles : Tiles pos text tokens) :
    ∃ line, tokens = line ++ [⟨.eof, [], pos + text.length⟩] ∧
      ∀ t ∈ line, ∃ slice rest, t.Covers slice rest := by
  induction tiles with
  | done => exact ⟨[], rfl, List.forall_mem_nil _⟩
  | gap _ _ ih =>
      obtain ⟨line, rfl, each⟩ := ih
      refine ⟨line, ?_, each⟩
      rw [List.length_append, Nat.add_assoc]
  | token _ covers _ ih =>
      obtain ⟨line, rfl, each⟩ := ih
      refine ⟨_ :: line, ?_, List.forall_mem_cons.mpr ⟨⟨_, _, covers⟩, each⟩⟩
      rw [List.length_append, Nat.add_assoc, List.cons_append]

theorem Token.Covers.kind_ne_eof {t : Token} {slice rest : Text} (covers : t.Covers slice rest) :
    t.kind ≠ .eof := by
  intro isEnd
  have written := covers.written
  rw [IsWrittenAs, isEnd] at written
  exact written

end Places

/-! ## Writing the tokens out again -/

def Token.spelling (t : Token) : Text :=
  match t.kind with
  | .lifetime => 39 :: t.text
  | .string => Quoted.encode t.text
  | .eof | .ident | .int | .float | .punct => t.text

theorem Token.IsWrittenAs.spelling_eq {t : Token} {slice : Text} (written : t.IsWrittenAs slice)
    (other : t.kind ≠ .string) : t.spelling = slice := by
  obtain ⟨kind, text, pos⟩ := t
  cases kind with
  | eof => exact written.elim
  | string => exact absurd rfl other
  | ident | int | float | punct | lifetime => exact written.symm

/-- A token that is written out is read as the token when white space or nothing comes after it. -/
theorem Token.Covers.splits {t : Token} {slice rest : Text} (covers : t.Covers slice rest)
    (pos : Nat) (tail : List CodePoint) (parted : Parted tail) :
    ∃ front next, front.map Token.word = [t.word] ∧
      lexFrom pos (t.spelling.codePoints ++ tail) = (lexFrom next tail).map (front ++ ·) := by
  by_cases isString : t.kind = .string
  · have lexes := lexes_string t.text
    have spelled : t.spelling = Quoted.encode t.text := by rw [spelling, isString]
    have word : t.word = (.string, t.text) := by rw [Token.word, isString]
    rw [spelled, word]
    exact lexes.splits (by simp) pos tail (by simp)
  · have lexeme := covers.lexeme
    rw [covers.written.spelling_eq isString]
    cases points : slice.codePoints with
    | nil => exact absurd points lexeme.ne_nil
    | cons c inside =>
        rw [points] at lexeme
        have lexed := @lexFrom_of_scan pos _ _ _ _ _ lexeme.solid (lexeme.scan_eq parted)
        rw [List.drop_left] at lexed
        exact ⟨[⟨t.kind, t.text, pos⟩], _, rfl, lexed⟩

theorem parted_nil : Parted [] := nofun

theorem parted_blank (rest : List CodePoint) : Parted (⟨32, [32]⟩ :: rest) := by
  intro c isHead
  obtain rfl := Option.mem_some_iff.mp isHead
  decide

theorem lexFrom_blank (pos : Nat) (rest : List CodePoint) :
    lexFrom pos (⟨32, [32]⟩ :: rest) = lexFrom (pos + 1) rest := by
  rw [lexFrom, if_pos (by decide)]
  rfl

theorem lexFrom_spellings {line : List Token}
    (each : ∀ t ∈ line, ∃ slice rest, t.Covers slice rest) (pos : Nat) :
    ∃ again, lexFrom pos (joined [32] (line.map Token.spelling)).codePoints = .ok again ∧
      again.map Token.word = line.map Token.word ++ [(.eof, [])] := by
  have ended : ∀ pos, lexFrom pos [] = .ok [⟨.eof, [], pos⟩] := fun pos => by rw [lexFrom]
  induction line generalizing pos with
  | nil => exact ⟨_, ended pos, rfl⟩
  | cons t others ih =>
      obtain ⟨⟨slice, rest, covers⟩, later⟩ := List.forall_mem_cons.mp each
      cases others with
      | nil =>
          obtain ⟨front, next, words, lexed⟩ := covers.splits pos [] parted_nil
          rw [List.append_nil, ended] at lexed
          refine ⟨front ++ [⟨.eof, [], next⟩], ?_, ?_⟩
          · rw [List.map_singleton, joined, List.intercalate_singleton]
            exact lexed
          · rw [List.map_append, words]
            rfl
      | cons u more =>
          obtain ⟨front, next, words, lexed⟩ := covers.splits pos _ (parted_blank _)
          obtain ⟨again, lexedAgain, wordsAgain⟩ := ih later (next + 1)
          refine ⟨front ++ again, ?_, ?_⟩
          · rw [List.map_cons, List.map_cons, joined_cons_cons, List.singleton_append,
              codePoints_append_of_not_continuation _ (by decide),
              codePoints_ascii_cons (by decide), ← List.map_cons]
            refine lexed.trans ?_
            rw [lexFrom_blank, lexedAgain]
            rfl
          · rw [List.map_append, words, wordsAgain]
            rfl

/-! ## Rounds -/

structure Lexing where
  pos : Nat
  left : List CodePoint
  found : List Token

namespace Lexing

def round (s : Lexing) : Lexing ⊕ Except Fault (List Token) :=
  match s.left with
  | [] => .inr (.ok (s.found ++ [⟨.eof, [], s.pos⟩]))
  | c :: rest =>
    if isBlank c.value then .inl ⟨s.pos + c.bytes.length, rest, s.found⟩
    else
      match scan s.pos c rest with
      | .error fault => .inr (.error fault)
      | .ok (kind, text, extra) =>
        .inl ⟨s.pos + (ofCodePoints (c :: rest.take extra)).length, rest.drop extra,
          s.found ++ [⟨kind, text, s.pos⟩]⟩

def run : Nat → Lexing → Option (Except Fault (List Token))
  | 0, _ => none
  | count + 1, s =>
    match s.round with
    | .inl next => run count next
    | .inr outcome => some outcome

theorem run_eq {count : Nat} {s : Lexing} (enough : s.left.length < count) :
    s.run count = some ((lexFrom s.pos s.left).map (s.found ++ ·)) := by
  induction count generalizing s with
  | zero => omega
  | succ count ih =>
      obtain ⟨pos, left, found⟩ := s
      cases left with
      | nil => simp [run, round, lexFrom, Except.map]
      | cons c rest =>
          rw [List.length_cons] at enough
          by_cases blank : isBlank c.value
          · have next := ih (s := ⟨pos + c.bytes.length, rest, found⟩) (by simp only; omega)
            rw [lexFrom, if_pos blank, ← next]
            simp only [run, round, if_pos blank]
          · cases scanned : scan pos c rest with
            | error fault =>
                rw [lexFrom_of_fault (by simpa using blank) scanned]
                simp only [run, round, if_neg blank, scanned]
                rfl
            | ok taken =>
                obtain ⟨kind, text, extra⟩ := taken
                have next := ih (s := ⟨pos + (ofCodePoints (c :: rest.take extra)).length,
                  rest.drop extra, found ++ [⟨kind, text, pos⟩]⟩)
                  (by simp only [List.length_drop]; omega)
                rw [lexFrom_of_scan (by simpa using blank) scanned]
                simp only [run, round, if_neg blank, scanned, next]
                cases lexFrom _ (rest.drop extra) with
                | error fault => rfl
                | ok tokens => simp [Except.map]

end Lexing

theorem length_codePoints_le (text : Text) : text.codePoints.length ≤ text.length := by
  have bytes := ofCodePoints_codePoints text
  have each : ∀ c ∈ text.codePoints, 1 ≤ c.bytes.length := by
    intro c member
    rcases whole_or_stray_of_mem member with whole | ⟨a, _, rfl⟩
    · obtain ⟨a, rest, same, _⟩ := isContinuation_encode whole.scalar
      rw [whole.bytes, same, List.length_cons]
      exact Nat.le_add_left ..
    · rw [bytes_ofByte, List.length_singleton]
  calc text.codePoints.length ≤ (ofCodePoints text.codePoints).length := by
        generalize text.codePoints = points at each
        induction points with
        | nil => exact Nat.le_refl _
        | cons c rest ih =>
            obtain ⟨first, later⟩ := List.forall_mem_cons.mp each
            have others := ih later
            rw [ofCodePoints] at others ⊢
            rw [List.flatMap_cons, List.length_append, List.length_cons]
            omega
    _ = text.length := by rw [bytes]

/-- The tokens of an accepted line tile it, and written out with blanks between them they are read
again. -/
theorem lex_tiles (src : Text) :
    Lexing.run (src.length + 1) ⟨0, src.codePoints, []⟩ = some (lex src) ∧
      ∀ tokens, lex src = .ok tokens →
        ∃ line, tokens = line ++ [⟨.eof, [], src.length⟩] ∧ (∀ t ∈ line, t.kind ≠ .eof) ∧
          tokens.Pairwise (fun t u => t.pos < u.pos) ∧ Tiles 0 src tokens ∧
          ∃ again, lex (joined [32] (line.map Token.spelling)) = .ok again ∧
            again.map Token.word = tokens.map Token.word := by
  constructor
  · have count := length_codePoints_le src
    rw [Lexing.run_eq (Nat.lt_succ_of_le count), ← lex]
    cases lex src <;> rfl
  · intro tokens lexed
    have tiles := lexFrom_tiles (isReadBack_codePoints src) lexed
    rw [ofCodePoints_codePoints] at tiles
    obtain ⟨line, rfl, each⟩ := tiles.shape
    obtain ⟨again, lexedAgain, words⟩ := lexFrom_spellings each 0
    refine ⟨line, by rw [Nat.zero_add], ?_, tiles.pairwise, tiles, again, lexedAgain, ?_⟩
    · intro t member
      obtain ⟨slice, rest, covers⟩ := each t member
      exact covers.kind_ne_eof
    · rw [words, List.map_append]
      rfl

/-- A line in which tokens touch where another split would be possible: two symbols of colons, an
arrow before a minus, letters that could be exponents, white space beyond ASCII, and a string with an
escape and a byte that is no UTF-8. -/
def crowded : Text :=
  "f1:::'a->-7 2.5e-3e4,3e," ++ ([0xC2, 0xA0, 34, 92, 120, 52, 49, 0xFF, 34] : Text)

def crowdedLine : List Token :=
  [⟨.ident, "f1", 0⟩, ⟨.punct, "::", 2⟩, ⟨.punct, ":", 4⟩, ⟨.lifetime, "a", 5⟩, ⟨.punct, "->", 7⟩,
    ⟨.int, "-7", 9⟩, ⟨.float, "2.5e-3", 12⟩, ⟨.ident, "e4", 18⟩, ⟨.punct, ",", 20⟩,
    ⟨.int, "3", 21⟩, ⟨.ident, "e", 22⟩, ⟨.punct, ",", 23⟩, ⟨.string, [65, 0xEF, 0xBF, 0xBD], 26⟩]

def crowdedTokens : List Token := crowdedLine ++ [⟨.eof, [], 33⟩]

theorem crowded_tiles :
    lex crowded = .ok crowdedTokens ∧ crowded.length = 33 ∧ Tiles 0 crowded crowdedTokens ∧
      ∃ again, lex (joined [32] (crowdedLine.map Token.spelling)) = .ok again ∧
        again.map Token.word = crowdedTokens.map Token.word := by
  have lexed : lex crowded = .ok crowdedTokens := by decide +kernel
  have length : crowded.length = 33 := by decide
  obtain ⟨line, split, _, _, tiles, relexed⟩ := (lex_tiles crowded).2 _ lexed
  rw [length, crowdedTokens] at split
  obtain rfl := List.append_cancel_right split
  exact ⟨lexed, length, tiles, relexed⟩

end Source

end BorrowChecker
