import BorrowChecker.Text.Basic

/-!
The digest SHA-256 of a byte string: the message is padded to blocks of sixty-four bytes, and each
block is mixed into eight words in sixty-four rounds.
-/

namespace BorrowChecker

namespace Sha256

def roundConstants : List UInt32 :=
  [0x428a2f98, 0x71374491, 0xb5c0fbcf, 0xe9b5dba5, 0x3956c25b, 0x59f111f1, 0x923f82a4, 0xab1c5ed5,
   0xd807aa98, 0x12835b01, 0x243185be, 0x550c7dc3, 0x72be5d74, 0x80deb1fe, 0x9bdc06a7, 0xc19bf174,
   0xe49b69c1, 0xefbe4786, 0x0fc19dc6, 0x240ca1cc, 0x2de92c6f, 0x4a7484aa, 0x5cb0a9dc, 0x76f988da,
   0x983e5152, 0xa831c66d, 0xb00327c8, 0xbf597fc7, 0xc6e00bf3, 0xd5a79147, 0x06ca6351, 0x14292967,
   0x27b70a85, 0x2e1b2138, 0x4d2c6dfc, 0x53380d13, 0x650a7354, 0x766a0abb, 0x81c2c92e, 0x92722c85,
   0xa2bfe8a1, 0xa81a664b, 0xc24b8b70, 0xc76c51a3, 0xd192e819, 0xd6990624, 0xf40e3585, 0x106aa070,
   0x19a4c116, 0x1e376c08, 0x2748774c, 0x34b0bcb5, 0x391c0cb3, 0x4ed8aa4a, 0x5b9cca4f, 0x682e6ff3,
   0x748f82ee, 0x78a5636f, 0x84c87814, 0x8cc70208, 0x90befffa, 0xa4506ceb, 0xbef9a3f7, 0xc67178f2]

structure Words where
  a : UInt32 := 0x6a09e667
  b : UInt32 := 0xbb67ae85
  c : UInt32 := 0x3c6ef372
  d : UInt32 := 0xa54ff53a
  e : UInt32 := 0x510e527f
  f : UInt32 := 0x9b05688c
  g : UInt32 := 0x1f83d9ab
  h : UInt32 := 0x5be0cd19
deriving DecidableEq, Repr

def rotate (x : UInt32) (n : UInt32) : UInt32 := (x >>> n) ||| (x <<< (32 - n))

def sigma0 (x : UInt32) : UInt32 := rotate x 7 ^^^ rotate x 18 ^^^ (x >>> 3)

def sigma1 (x : UInt32) : UInt32 := rotate x 17 ^^^ rotate x 19 ^^^ (x >>> 10)

/-- The number of so many bytes, the most significant first. -/
def bytesOf : Nat → Nat → Text
  | 0, _ => []
  | width + 1, n => bytesOf width (n / 256) ++ [n.toUInt8]

/-- The message with a one bit, as many zero bits as needed, and its length in bits. -/
def padded (message : Text) : Text :=
  let gap := (119 - message.length % 64) % 64
  message ++ 0x80 :: (List.replicate gap 0 ++ bytesOf 8 (8 * message.length))

def wordsOf : Text → List UInt32
  | a :: b :: c :: d :: rest =>
    ((a.toUInt32 <<< 24) ||| (b.toUInt32 <<< 16) ||| (c.toUInt32 <<< 8) ||| d.toUInt32) ::
      wordsOf rest
  | _ => []

def nextWord : List UInt32 → UInt32
  | [w0, w1, _, _, _, _, _, _, _, w9, _, _, _, _, w14, _] => w0 + sigma0 w1 + w9 + sigma1 w14
  | _ => 0

def round (s : Words) (k w : UInt32) : Words :=
  let sum1 := rotate s.e 6 ^^^ rotate s.e 11 ^^^ rotate s.e 25
  let choice := (s.e &&& s.f) ^^^ (~~~s.e &&& s.g)
  let t1 := s.h + sum1 + choice + k + w
  let sum0 := rotate s.a 2 ^^^ rotate s.a 13 ^^^ rotate s.a 22
  let majority := (s.a &&& s.b) ^^^ (s.a &&& s.c) ^^^ (s.b &&& s.c)
  ⟨t1 + (sum0 + majority), s.a, s.b, s.c, s.d + t1, s.e, s.f, s.g⟩

/-- The rounds with the given constants; the window holds the word of this round and the fifteen
after it. -/
def rounds (s : Words) (window : List UInt32) : List UInt32 → Words
  | [] => s
  | k :: rest =>
    match window with
    | [] => s
    | w :: later => rounds (round s k w) (later ++ [nextWord window]) rest

def mix (s : Words) (block : List UInt32) : Words :=
  let t := rounds s block roundConstants
  ⟨s.a + t.a, s.b + t.b, s.c + t.c, s.d + t.d, s.e + t.e, s.f + t.f, s.g + t.g, s.h + t.h⟩

def mixAll (s : Words) (words : List UInt32) : Words :=
  if _h : words.length < 16 then s else mixAll (mix s (words.take 16)) (words.drop 16)
termination_by words.length

def Words.bytes (s : Words) : Text :=
  [s.a, s.b, s.c, s.d, s.e, s.f, s.g, s.h].flatMap fun w => bytesOf 4 w.toNat

end Sha256

structure Digest where
  bytes : Text
deriving DecidableEq, Repr

namespace Digest

/-- The digest that was never computed. -/
def zero : Digest := ⟨List.replicate 32 0⟩

def isZero (d : Digest) : Bool := d == zero

def print (d : Digest) : Text := d.bytes.hex

def ofText (data : Text) : Digest := ⟨(Sha256.mixAll {} (Sha256.wordsOf (Sha256.padded data))).bytes⟩

def combine (d : Digest) (salts : List Text) : Digest :=
  ofText (d.bytes ++ salts.flatMap fun s => 0 :: s)

end Digest

end BorrowChecker
