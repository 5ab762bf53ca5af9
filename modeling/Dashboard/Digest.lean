/-!
SHA-256 of a sequence of bytes, and its text in lower-case hexadecimal digits.
-/
namespace Dashboard.Digest

/-- The first 32 bits of the fractional parts of the cube roots of the first 64 primes. -/
def roundConstants : List UInt32 :=
  [0x428a2f98, 0x71374491, 0xb5c0fbcf, 0xe9b5dba5, 0x3956c25b, 0x59f111f1, 0x923f82a4, 0xab1c5ed5,
    0xd807aa98, 0x12835b01, 0x243185be, 0x550c7dc3, 0x72be5d74, 0x80deb1fe, 0x9bdc06a7, 0xc19bf174,
    0xe49b69c1, 0xefbe4786, 0x0fc19dc6, 0x240ca1cc, 0x2de92c6f, 0x4a7484aa, 0x5cb0a9dc, 0x76f988da,
    0x983e5152, 0xa831c66d, 0xb00327c8, 0xbf597fc7, 0xc6e00bf3, 0xd5a79147, 0x06ca6351, 0x14292967,
    0x27b70a85, 0x2e1b2138, 0x4d2c6dfc, 0x53380d13, 0x650a7354, 0x766a0abb, 0x81c2c92e, 0x92722c85,
    0xa2bfe8a1, 0xa81a664b, 0xc24b8b70, 0xc76c51a3, 0xd192e819, 0xd6990624, 0xf40e3585, 0x106aa070,
    0x19a4c116, 0x1e376c08, 0x2748774c, 0x34b0bcb5, 0x391c0cb3, 0x4ed8aa4a, 0x5b9cca4f, 0x682e6ff3,
    0x748f82ee, 0x78a5636f, 0x84c87814, 0x8cc70208, 0x90befffa, 0xa4506ceb, 0xbef9a3f7, 0xc67178f2]

structure State where
  a : UInt32
  b : UInt32
  c : UInt32
  d : UInt32
  e : UInt32
  f : UInt32
  g : UInt32
  h : UInt32

/-- The first 32 bits of the fractional parts of the square roots of the first eight primes. -/
def start : State :=
  ⟨0x6a09e667, 0xbb67ae85, 0x3c6ef372, 0xa54ff53a, 0x510e527f, 0x9b05688c, 0x1f83d9ab, 0x5be0cd19⟩

def rotate (x : UInt32) (n : UInt32) : UInt32 := (x >>> n) ||| (x <<< (32 - n))

def round (s : State) (word constant : UInt32) : State :=
  let mix := rotate s.e 6 ^^^ rotate s.e 11 ^^^ rotate s.e 25
  let choose := (s.e &&& s.f) ^^^ (~~~s.e &&& s.g)
  let first := s.h + mix + choose + constant + word
  let spread := rotate s.a 2 ^^^ rotate s.a 13 ^^^ rotate s.a 22
  let majority := (s.a &&& s.b) ^^^ (s.a &&& s.c) ^^^ (s.b &&& s.c)
  ⟨first + spread + majority, s.a, s.b, s.c, s.d + first, s.e, s.f, s.g⟩

/-- The next word of the schedule, from the sixteen before it, the latest first. -/
def nextWord (latest : List UInt32) : UInt32 :=
  let word := fun n => latest.getD n 0
  let low := rotate (word 14) 7 ^^^ rotate (word 14) 18 ^^^ (word 14 >>> 3)
  let high := rotate (word 1) 17 ^^^ rotate (word 1) 19 ^^^ (word 1 >>> 10)
  word 15 + low + word 6 + high

/-- The sixteen words of a block and the 48 that follow from them. -/
def schedule (block : List UInt32) : List UInt32 :=
  ((List.range 48).foldl (fun words _ => nextWord words :: words) block.reverse).reverse

def add (s t : State) : State :=
  ⟨s.a + t.a, s.b + t.b, s.c + t.c, s.d + t.d, s.e + t.e, s.f + t.f, s.g + t.g, s.h + t.h⟩

def block (s : State) (words : List UInt32) : State :=
  add s (((schedule words).zip roundConstants).foldl (fun t w => round t w.1 w.2) s)

/-- The bytes that fill up the last block: a one bit, zeros, and the length in bits. -/
def padding (length : Nat) : List UInt8 :=
  let zeros := (119 - length % 64) % 64
  let bits := 8 * length
  0x80 :: List.replicate zeros (0 : UInt8) ++ (List.range 8).map fun i => (bits >>> (8 * (7 - i))).toUInt8

def words : List UInt8 → List UInt32
  | a :: b :: c :: d :: rest =>
    ((a.toUInt32 <<< 24) ||| (b.toUInt32 <<< 16) ||| (c.toUInt32 <<< 8) ||| d.toUInt32) :: words rest
  | _ => []

def blocks (s : State) (ws : List UInt32) : State :=
  match ws with
  | [] => s
  | w :: rest => blocks (block s ((w :: rest).take 16)) (rest.drop 15)
termination_by ws.length
decreasing_by simp only [List.length_drop, List.length_cons]; omega

def hexByte (x : UInt32) (shift : UInt32) : List Char :=
  let byte := ((x >>> shift) &&& 0xff).toNat
  let digit := fun n => (Nat.toDigits 16 n)
  digit (byte / 16) ++ digit (byte % 16)

def hexWord (x : UInt32) : List Char :=
  hexByte x 24 ++ hexByte x 16 ++ hexByte x 8 ++ hexByte x 0

def sha256 (bytes : List UInt8) : String :=
  let s := blocks start (words (bytes ++ padding bytes.length))
  String.ofList ([s.a, s.b, s.c, s.d, s.e, s.f, s.g, s.h].flatMap hexWord)

def ofText (text : String) : String := sha256 text.toUTF8.data.toList

end Dashboard.Digest
