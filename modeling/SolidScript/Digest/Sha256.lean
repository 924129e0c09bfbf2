/-!
# SHA-256

The digest of a text is the hash of its UTF-8 bytes in hexadecimal. The message is followed by a
one bit, zeros and its length in bits, so that it fills whole blocks of 64 bytes; each block is
mixed into eight words in 64 rounds.
-/

namespace SolidScript.Digest

/-- The first 32 bits of the fractions of the cube roots of the first 64 primes. -/
def roundConstants : List UInt32 := [
  0x428a2f98, 0x71374491, 0xb5c0fbcf, 0xe9b5dba5, 0x3956c25b, 0x59f111f1, 0x923f82a4, 0xab1c5ed5,
  0xd807aa98, 0x12835b01, 0x243185be, 0x550c7dc3, 0x72be5d74, 0x80deb1fe, 0x9bdc06a7, 0xc19bf174,
  0xe49b69c1, 0xefbe4786, 0x0fc19dc6, 0x240ca1cc, 0x2de92c6f, 0x4a7484aa, 0x5cb0a9dc, 0x76f988da,
  0x983e5152, 0xa831c66d, 0xb00327c8, 0xbf597fc7, 0xc6e00bf3, 0xd5a79147, 0x06ca6351, 0x14292967,
  0x27b70a85, 0x2e1b2138, 0x4d2c6dfc, 0x53380d13, 0x650a7354, 0x766a0abb, 0x81c2c92e, 0x92722c85,
  0xa2bfe8a1, 0xa81a664b, 0xc24b8b70, 0xc76c51a3, 0xd192e819, 0xd6990624, 0xf40e3585, 0x106aa070,
  0x19a4c116, 0x1e376c08, 0x2748774c, 0x34b0bcb5, 0x391c0cb3, 0x4ed8aa4a, 0x5b9cca4f, 0x682e6ff3,
  0x748f82ee, 0x78a5636f, 0x84c87814, 0x8cc70208, 0x90befffa, 0xa4506ceb, 0xbef9a3f7, 0xc67178f2]

structure Words where
  a : UInt32
  b : UInt32
  c : UInt32
  d : UInt32
  e : UInt32
  f : UInt32
  g : UInt32
  h : UInt32

/-- The first 32 bits of the fractions of the square roots of the first eight primes. -/
def Words.initial : Words :=
  ⟨0x6a09e667, 0xbb67ae85, 0x3c6ef372, 0xa54ff53a, 0x510e527f, 0x9b05688c, 0x1f83d9ab, 0x5be0cd19⟩

/-- Word by word, modulo `2 ^ 32`. -/
def Words.add (s t : Words) : Words :=
  ⟨s.a + t.a, s.b + t.b, s.c + t.c, s.d + t.d, s.e + t.e, s.f + t.f, s.g + t.g, s.h + t.h⟩

def Words.toList (s : Words) : List UInt32 := [s.a, s.b, s.c, s.d, s.e, s.f, s.g, s.h]

def rotate (x : UInt32) (n : UInt32) : UInt32 := (x >>> n) ||| (x <<< (32 - n))

/-- One round, with a word of the schedule and a constant. -/
def Words.round (s : Words) (word constant : UInt32) : Words :=
  let mixE := rotate s.e 6 ^^^ rotate s.e 11 ^^^ rotate s.e 25
  let choice := (s.e &&& s.f) ^^^ (~~~s.e &&& s.g)
  let first := s.h + mixE + choice + constant + word
  let mixA := rotate s.a 2 ^^^ rotate s.a 13 ^^^ rotate s.a 22
  let majority := (s.a &&& s.b) ^^^ (s.a &&& s.c) ^^^ (s.b &&& s.c)
  ⟨first + (mixA + majority), s.a, s.b, s.c, s.d + first, s.e, s.f, s.g⟩

/-- The next word of the schedule, from the sixteen before it. -/
def nextWord (words : Array UInt32) (i : Nat) : UInt32 :=
  let early := words.getD (i - 15) 0
  let late := words.getD (i - 2) 0
  let mixEarly := rotate early 7 ^^^ rotate early 18 ^^^ (early >>> 3)
  let mixLate := rotate late 17 ^^^ rotate late 19 ^^^ (late >>> 10)
  words.getD (i - 16) 0 + mixEarly + words.getD (i - 7) 0 + mixLate

/-- The 64 words for one block: its own sixteen and 48 more. -/
def schedule (block : Array UInt32) : Array UInt32 :=
  (List.range' 16 48).foldl (fun words i => words.push (nextWord words i)) block

/-- Mix a block of sixteen words into the state. -/
def Words.absorb (s : Words) (block : Array UInt32) : Words :=
  s.add (((schedule block).toList.zip roundConstants).foldl (fun t (w, k) => t.round w k) s)

/-- A number as `n` bytes, the most significant first. -/
def bigEndian : Nat → Nat → List UInt8
  | 0, _ => []
  | n + 1, value => bigEndian n (value / 256) ++ [UInt8.ofNat (value % 256)]

/-- The message with its end mark, zeros and length. -/
def padded (message : ByteArray) : ByteArray :=
  let zeros := (119 - message.size % 64) % 64
  let tail := 0x80 :: List.replicate zeros 0 ++ bigEndian 8 (8 * message.size)
  tail.foldl ByteArray.push message

def wordAt (bytes : ByteArray) (i : Nat) : UInt32 :=
  let byte (j : Nat) : UInt32 := (bytes[i + j]?.getD 0).toUInt32
  (byte 0 <<< 24) ||| (byte 1 <<< 16) ||| (byte 2 <<< 8) ||| byte 3

def sha256 (message : ByteArray) : Words :=
  let bytes := padded message
  (List.range (bytes.size / 64)).foldl
    (fun s k => s.absorb ((Array.range 16).map fun i => wordAt bytes (64 * k + 4 * i)))
    Words.initial

def hexWord (w : UInt32) : List Char :=
  let digits := Nat.toDigits 16 w.toNat
  List.replicate (8 - digits.length) '0' ++ digits

/-- The digest of a text: 64 hexadecimal digits. -/
def ofText (text : String) : String :=
  String.ofList ((sha256 text.toUTF8).toList.flatMap hexWord)

end SolidScript.Digest
