import Mathlib.Algebra.Ring.Nat
import Mathlib.Data.List.Basic
import PickleInfra.Python.Text

/-!
# `Python.Sha256` — `hashlib.sha256(payload).hexdigest()`

The compression function over the 64-byte blocks of the padded message, and the digest as 64 lower-case
hexadecimal digits. That its texts have this form is all the development uses of it: no proof here
unfolds it further.
-/

namespace PickleInfra
namespace Python
namespace Sha256

/-- The round constants. -/
def constants : List UInt32 :=
  [0x428a2f98, 0x71374491, 0xb5c0fbcf, 0xe9b5dba5, 0x3956c25b, 0x59f111f1, 0x923f82a4, 0xab1c5ed5,
   0xd807aa98, 0x12835b01, 0x243185be, 0x550c7dc3, 0x72be5d74, 0x80deb1fe, 0x9bdc06a7, 0xc19bf174,
   0xe49b69c1, 0xefbe4786, 0x0fc19dc6, 0x240ca1cc, 0x2de92c6f, 0x4a7484aa, 0x5cb0a9dc, 0x76f988da,
   0x983e5152, 0xa831c66d, 0xb00327c8, 0xbf597fc7, 0xc6e00bf3, 0xd5a79147, 0x06ca6351, 0x14292967,
   0x27b70a85, 0x2e1b2138, 0x4d2c6dfc, 0x53380d13, 0x650a7354, 0x766a0abb, 0x81c2c92e, 0x92722c85,
   0xa2bfe8a1, 0xa81a664b, 0xc24b8b70, 0xc76c51a3, 0xd192e819, 0xd6990624, 0xf40e3585, 0x106aa070,
   0x19a4c116, 0x1e376c08, 0x2748774c, 0x34b0bcb5, 0x391c0cb3, 0x4ed8aa4a, 0x5b9cca4f, 0x682e6ff3,
   0x748f82ee, 0x78a5636f, 0x84c87814, 0x8cc70208, 0x90befffa, 0xa4506ceb, 0xbef9a3f7, 0xc67178f2]

/-- The eight words of a hash value. -/
structure State where
  a : UInt32
  b : UInt32
  c : UInt32
  d : UInt32
  e : UInt32
  f : UInt32
  g : UInt32
  h : UInt32

def initial : State :=
  ⟨0x6a09e667, 0xbb67ae85, 0x3c6ef372, 0xa54ff53a, 0x510e527f, 0x9b05688c, 0x1f83d9ab, 0x5be0cd19⟩

def rotr (x : UInt32) (n : UInt32) : UInt32 := (x >>> n) ||| (x <<< (32 - n))

/-- The next words of the schedule; the words so far come last one first. -/
def schedule : Nat → List UInt32 → List UInt32
  | 0, words     => words.reverse
  | n + 1, words =>
    let w15 := words.getD 14 0
    let w2 := words.getD 1 0
    let s0 := rotr w15 7 ^^^ rotr w15 18 ^^^ (w15 >>> 3)
    let s1 := rotr w2 17 ^^^ rotr w2 19 ^^^ (w2 >>> 10)
    schedule n ((words.getD 15 0 + s0 + words.getD 6 0 + s1) :: words)

/-- One round, with the sum of its constant and its word. -/
def round (s : State) (kw : UInt32) : State :=
  let s1 := rotr s.e 6 ^^^ rotr s.e 11 ^^^ rotr s.e 25
  let ch := (s.e &&& s.f) ^^^ (~~~s.e &&& s.g)
  let t1 := s.h + s1 + ch + kw
  let s0 := rotr s.a 2 ^^^ rotr s.a 13 ^^^ rotr s.a 22
  let maj := (s.a &&& s.b) ^^^ (s.a &&& s.c) ^^^ (s.b &&& s.c)
  ⟨t1 + s0 + maj, s.a, s.b, s.c, s.d + t1, s.e, s.f, s.g⟩

def State.add (s t : State) : State :=
  ⟨s.a + t.a, s.b + t.b, s.c + t.c, s.d + t.d, s.e + t.e, s.f + t.f, s.g + t.g, s.h + t.h⟩

/-- The words of a block, most significant byte first. -/
def wordsOf : List UInt8 → List UInt32
  | a :: b :: c :: d :: rest =>
    ((a.toUInt32 <<< 24) ||| (b.toUInt32 <<< 16) ||| (c.toUInt32 <<< 8) ||| d.toUInt32) :: wordsOf rest
  | _                        => []

def compress (s : State) (block : List UInt8) : State :=
  let words := schedule 48 (wordsOf block).reverse
  s.add ((List.zipWith (· + ·) constants words).foldl round s)

/-- The length in bits, as eight bytes. -/
def lengthBytes (n : Nat) : List UInt8 :=
  [56, 48, 40, 32, 24, 16, 8, 0].map fun shift => UInt8.ofNat (n * 8 / 2 ^ shift)

/-- The message with a one bit, zeros, and its length at the end of a block. -/
def padded (message : List UInt8) : List UInt8 :=
  let n := message.length
  message ++ (0x80 :: List.replicate ((119 - n % 64) % 64) 0) ++ lengthBytes n

/-- The blocks from the first on; there are at most as many as bytes. -/
def blocks : Nat → State → List UInt8 → State
  | 0, s, _         => s
  | n + 1, s, bytes => if bytes.isEmpty then s else blocks n (compress s (bytes.take 64)) (bytes.drop 64)

/-- A digit of a word. -/
def hexDigit (w : UInt32) (shift : UInt32) : Char := Nat.digitChar ((w >>> shift).toNat % 16)

def hexWord (w : UInt32) : List Char :=
  [hexDigit w 28, hexDigit w 24, hexDigit w 20, hexDigit w 16, hexDigit w 12, hexDigit w 8, hexDigit w 4,
    hexDigit w 0]

/-- `hashlib.sha256(payload).hexdigest()` -/
@[irreducible]
def hexdigest (payload : ByteArray) : String :=
  let message := padded payload.toList
  let s := blocks message.length initial message
  String.ofList (hexWord s.a ++ hexWord s.b ++ hexWord s.c ++ hexWord s.d ++ hexWord s.e ++ hexWord s.f
    ++ hexWord s.g ++ hexWord s.h)

theorem isHex_digitChar {n : Nat} (h : n < 16) : Text.isHex n.digitChar = true := by
  revert n
  decide

theorem hexWord_isHex (w : UInt32) : (hexWord w).all Text.isHex = true := by
  unfold hexWord hexDigit
  simp only [List.all_cons, List.all_nil, Bool.and_true, Bool.and_eq_true]
  refine ⟨?_, ?_, ?_, ?_, ?_, ?_, ?_, ?_⟩
  all_goals exact isHex_digitChar (Nat.mod_lt _ (by decide))

/-- **A digest is 64 hexadecimal digits.** -/
theorem hexdigest_form (payload : ByteArray) :
    (hexdigest payload).toList.length = 64 ∧ (hexdigest payload).toList.all Text.isHex = true := by
  unfold hexdigest
  dsimp only
  rw [String.toList_ofList]
  refine ⟨rfl, ?_⟩
  simp only [List.all_append, hexWord_isHex, Bool.and_self]

end Sha256
end Python
end PickleInfra
