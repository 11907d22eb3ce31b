import ValueInspector.Shell.Bytes

/-! # Digests

Short numbers that tell texts apart: a checksum by polynomial division, and the digests of the MD and
SHA families over blocks of words.
-/
namespace ValueInspector.Shell.Digest

/-! ## Checksums -/

/-- The remainder of a byte at the top of 32 bits. -/
def remainderOf (b : UInt32) : UInt32 :=
  (List.range 8).foldl
    (fun (r : UInt32) _ => if r &&& 0x80000000 = 0 then r <<< 1 else (r <<< 1) ^^^ 0x04c11db7)
    (b <<< 24)

def remainders : Array UInt32 := ((List.range 256).map fun k => remainderOf (UInt32.ofNat k)).toArray

def cyclicStep (r : UInt32) (b : Nat) : UInt32 :=
  (r <<< 8) ^^^ (remainders[((r >>> 24) ^^^ UInt32.ofNat b).toNat % 256]?).getD 0

/-- The bytes of a length, the lowest first, without zeros at the top. -/
def lengthBytes : Nat → Nat → List Nat
  | 0, _ => []
  | n + 1, k => if k = 0 then [] else k % 256 :: lengthBytes n (k / 256)

/-- The cyclic redundancy check of a text and its length. -/
def cyclic (text : Bytes) : UInt32 :=
  let r := text.foldl (fun r c => cyclicStep r c.toNat) 0
  (lengthBytes 9 text.length).foldl cyclicStep r ^^^ 0xffffffff

/-- A sum of 16 bits that is turned before each byte. -/
def turned (text : Bytes) : Nat :=
  text.foldl (fun s c => (s / 2 + (s % 2) * 32768 + c.toNat) % 65536) 0

/-- A plain sum of the bytes, folded to 16 bits. -/
def plain (text : Bytes) : Nat :=
  let s := text.foldl (fun s c => s + c.toNat) 0
  let r := s % 65536 + s % 4294967296 / 65536
  r % 65536 + r / 65536

/-! ## Blocks -/

/-- A text with a mark, zeros and its length in bits, so that it fills whole blocks. -/
def padded (block lengthSize : Nat) (bigEndian : Bool) (text : Bytes) : List Nat :=
  let n := text.length
  let zeros := (2 * block - (n + 1 + lengthSize) % block) % block
  let low := (List.range lengthSize).map fun k => 8 * n / Nat.pow 256 k % 256
  text.map Char.toNat ++ 128 :: List.replicate zeros 0 ++ (if bigEndian then low.reverse else low)

/-- Pieces of one length. -/
def pieces (size : Nat) : Nat → List Nat → List (List Nat)
  | 0, _ => []
  | n + 1, l => if l.isEmpty then [] else l.take size :: pieces size n (l.drop size)

def wordOf (bigEndian : Bool) (b : List Nat) : Nat :=
  (if bigEndian then b else b.reverse).foldl (fun acc x => acc * 256 + x) 0

/-- The blocks of a text as lists of words. -/
def blocks (block word : Nat) (bigEndian : Bool) (text : Bytes) : List (List Nat) :=
  let all := padded block (2 * word) bigEndian text
  (pieces block (all.length + 1) all).map fun b =>
    (pieces word (block + 1) b).map (wordOf bigEndian)

def hexOf (width n : Nat) : Bytes :=
  let digits := Nat.toDigits 16 n
  List.replicate (width - digits.length) '0' ++ digits

/-! ## The MD family -/

namespace Md5

def constants : Array UInt32 :=
  #[0xd76aa478, 0xe8c7b756, 0x242070db, 0xc1bdceee, 0xf57c0faf, 0x4787c62a, 0xa8304613, 0xfd469501,
    0x698098d8, 0x8b44f7af, 0xffff5bb1, 0x895cd7be, 0x6b901122, 0xfd987193, 0xa679438e, 0x49b40821,
    0xf61e2562, 0xc040b340, 0x265e5a51, 0xe9b6c7aa, 0xd62f105d, 0x02441453, 0xd8a1e681, 0xe7d3fbc8,
    0x21e1cde6, 0xc33707d6, 0xf4d50d87, 0x455a14ed, 0xa9e3e905, 0xfcefa3f8, 0x676f02d9, 0x8d2a4c8a,
    0xfffa3942, 0x8771f681, 0x6d9d6122, 0xfde5380c, 0xa4beea44, 0x4bdecfa9, 0xf6bb4b60, 0xbebfbc70,
    0x289b7ec6, 0xeaa127fa, 0xd4ef3085, 0x04881d05, 0xd9d4d039, 0xe6db99e5, 0x1fa27cf8, 0xc4ac5665,
    0xf4292244, 0x432aff97, 0xab9423a7, 0xfc93a039, 0x655b59c3, 0x8f0ccc92, 0xffeff47d, 0x85845dd1,
    0x6fa87e4f, 0xfe2ce6e0, 0xa3014314, 0x4e0811a1, 0xf7537e82, 0xbd3af235, 0x2ad7d2bb, 0xeb86d391]

def turns : Array UInt32 := #[7, 12, 17, 22, 5, 9, 14, 20, 4, 11, 16, 23, 6, 10, 15, 21]

structure State where
  a : UInt32
  b : UInt32
  c : UInt32
  d : UInt32

def turnLeft (x n : UInt32) : UInt32 := (x <<< n) ||| (x >>> (32 - n))

def round (words : Array UInt32) (s : State) (k : Nat) : State :=
  let (f, g) :=
    if k < 16 then ((s.b &&& s.c) ||| (~~~s.b &&& s.d), k)
    else if k < 32 then ((s.d &&& s.b) ||| (~~~s.d &&& s.c), (5 * k + 1) % 16)
    else if k < 48 then (s.b ^^^ s.c ^^^ s.d, (3 * k + 5) % 16)
    else (s.c ^^^ (s.b ||| ~~~s.d), 7 * k % 16)
  let sum := f + s.a + (constants[k]?).getD 0 + (words[g]?).getD 0
  ⟨s.d, s.b + turnLeft sum ((turns[k / 16 * 4 + k % 4]?).getD 0), s.b, s.c⟩

def step (s : State) (block : List Nat) : State :=
  let words := (block.map UInt32.ofNat).toArray
  let t := (List.range 64).foldl (round words) s
  ⟨s.a + t.a, s.b + t.b, s.c + t.c, s.d + t.d⟩

end Md5

def md5 (text : Bytes) : Bytes :=
  let s := (blocks 64 4 false text).foldl Md5.step ⟨0x67452301, 0xefcdab89, 0x98badcfe, 0x10325476⟩
  [s.a, s.b, s.c, s.d].flatMap fun w =>
    (List.range 4).flatMap fun k => hexOf 2 (w.toNat / Nat.pow 256 k % 256)

/-! ## The SHA family -/

namespace Sha1

structure State where
  a : UInt32
  b : UInt32
  c : UInt32
  d : UInt32
  e : UInt32

def extended (block : List Nat) : Array UInt32 :=
  (List.range 64).foldl
    (fun (w : Array UInt32) k =>
      let past (j : Nat) : UInt32 := (w[k + 16 - j]?).getD 0
      w.push (Md5.turnLeft (past 3 ^^^ past 8 ^^^ past 14 ^^^ past 16) 1))
    (block.map UInt32.ofNat).toArray

def round (words : Array UInt32) (s : State) (k : Nat) : State :=
  let (f, constant) : UInt32 × UInt32 :=
    if k < 20 then ((s.b &&& s.c) ||| (~~~s.b &&& s.d), 0x5a827999)
    else if k < 40 then (s.b ^^^ s.c ^^^ s.d, 0x6ed9eba1)
    else if k < 60 then ((s.b &&& s.c) ||| (s.b &&& s.d) ||| (s.c &&& s.d), 0x8f1bbcdc)
    else (s.b ^^^ s.c ^^^ s.d, 0xca62c1d6)
  ⟨Md5.turnLeft s.a 5 + f + s.e + constant + (words[k]?).getD 0, s.a, Md5.turnLeft s.b 30, s.c, s.d⟩

def step (s : State) (block : List Nat) : State :=
  let t := (List.range 80).foldl (round (extended block)) s
  ⟨s.a + t.a, s.b + t.b, s.c + t.c, s.d + t.d, s.e + t.e⟩

end Sha1

def sha1 (text : Bytes) : Bytes :=
  let s := (blocks 64 4 true text).foldl Sha1.step
    ⟨0x67452301, 0xefcdab89, 0x98badcfe, 0x10325476, 0xc3d2e1f0⟩
  [s.a, s.b, s.c, s.d, s.e].flatMap fun w => hexOf 8 w.toNat

/-- The parts of the SHA-2 digests that depend on the size of words, in bits. -/
structure Sha2 where
  word : Nat
  rounds : Nat
  /-- Turns and shifts of the sums. -/
  upper0 : List Nat
  upper1 : List Nat
  lower0 : List Nat × Nat
  lower1 : List Nat × Nat
  constants : Array Nat

namespace Sha2

/-- The first primes. -/
def primes : Nat → List Nat :=
  fun n => ((List.range 420).filter fun k =>
    2 ≤ k && (List.range k).all fun d => d < 2 || k % d ≠ 0).take n

/-- The greatest number whose power is at most `n`, found bit by bit. -/
def rootOf (power n : Nat) : Nat → Nat → Nat
  | 0, acc => acc
  | bit + 1, acc =>
    let next := acc + Nat.pow 2 bit
    rootOf power n bit (if Nat.pow next power ≤ n then next else acc)

/-- The first bits after the point of the roots of the first primes. -/
def rootBits (power bits count : Nat) : List Nat :=
  (primes count).map fun p => rootOf power (p * Nat.pow 2 (power * bits)) (bits + 6) 0 % Nat.pow 2 bits

def narrow : Sha2 :=
  ⟨32, 64, [2, 13, 22], [6, 11, 25], ([7, 18], 3), ([17, 19], 10), (rootBits 3 32 64).toArray⟩

def wide : Sha2 :=
  ⟨64, 80, [28, 34, 39], [14, 18, 41], ([1, 8], 7), ([19, 61], 6), (rootBits 3 64 80).toArray⟩

variable (f : Sha2)

def limit : Nat := Nat.pow 2 f.word
def turnRight (x n : Nat) : Nat := (x >>> n) ||| ((x <<< (f.word - n)) % f.limit)
def turns (l : List Nat) (x : Nat) : Nat := l.foldl (fun acc n => acc ^^^ f.turnRight x n) 0

def extended (block : List Nat) : Array Nat :=
  (List.range (f.rounds - 16)).foldl
    (fun (w : Array Nat) k =>
      let past (j : Nat) : Nat := (w[k + 16 - j]?).getD 0
      let low := f.turns f.lower0.1 (past 15) ^^^ (past 15 >>> f.lower0.2)
      let high := f.turns f.lower1.1 (past 2) ^^^ (past 2 >>> f.lower1.2)
      w.push ((past 16 + low + past 7 + high) % f.limit))
    block.toArray

def round (words : Array Nat) (s : List Nat) (k : Nat) : List Nat :=
  match s with
  | [a, b, c, d, e, g, h, j] =>
    let choice := (e &&& g) ^^^ ((f.limit - 1 - e) &&& h)
    let first := j + f.turns f.upper1 e + choice + (f.constants[k]?).getD 0 + (words[k]?).getD 0
    let majority := (a &&& b) ^^^ (a &&& c) ^^^ (b &&& c)
    let second := f.turns f.upper0 a + majority
    [(first + second) % f.limit, a, b, c, (d + first) % f.limit, e, g, h]
  | s => s

def step (s : List Nat) (block : List Nat) : List Nat :=
  let t := (List.range f.rounds).foldl (f.round (f.extended block)) s
  (s.zip t).map fun (x, y) => (x + y) % f.limit

/-- The digest from a start, cut to so many bytes. -/
def digest (start : List Nat) (size : Nat) (text : Bytes) : Bytes :=
  let s := (blocks (2 * f.word) (f.word / 8) true text).foldl f.step start
  (s.flatMap fun w => hexOf (f.word / 4) w).take (2 * size)

end Sha2

def sha256 : Bytes → Bytes := Sha2.narrow.digest (Sha2.rootBits 2 32 8) 32

def sha224 : Bytes → Bytes :=
  Sha2.narrow.digest
    ((Sha2.rootBits 2 64 16).drop 8 |>.map (· % Nat.pow 2 32)) 28

def sha512 : Bytes → Bytes := Sha2.wide.digest (Sha2.rootBits 2 64 8) 64

def sha384 : Bytes → Bytes := Sha2.wide.digest ((Sha2.rootBits 2 64 16).drop 8) 48

end ValueInspector.Shell.Digest
