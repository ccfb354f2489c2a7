import Mathlib.Data.List.Basic

/-!
# SHA-256

The digest of a byte string, as the source's host computes it, and its form: sixty-four lowercase
hexadecimal digits.
-/

namespace Sha256

structure Words where
  a : UInt32
  b : UInt32
  c : UInt32
  d : UInt32
  e : UInt32
  f : UInt32
  g : UInt32
  h : UInt32

/-- Wordwise addition. -/
def Words.add (x y : Words) : Words where
  a := x.a + y.a
  b := x.b + y.b
  c := x.c + y.c
  d := x.d + y.d
  e := x.e + y.e
  f := x.f + y.f
  g := x.g + y.g
  h := x.h + y.h

def initial : Words where
  a := 0x6a09e667
  b := 0xbb67ae85
  c := 0x3c6ef372
  d := 0xa54ff53a
  e := 0x510e527f
  f := 0x9b05688c
  g := 0x1f83d9ab
  h := 0x5be0cd19

def roundConstants : List UInt32 :=
  [0x428a2f98, 0x71374491, 0xb5c0fbcf, 0xe9b5dba5, 0x3956c25b, 0x59f111f1, 0x923f82a4, 0xab1c5ed5,
    0xd807aa98, 0x12835b01, 0x243185be, 0x550c7dc3, 0x72be5d74, 0x80deb1fe, 0x9bdc06a7, 0xc19bf174,
    0xe49b69c1, 0xefbe4786, 0x0fc19dc6, 0x240ca1cc, 0x2de92c6f, 0x4a7484aa, 0x5cb0a9dc, 0x76f988da,
    0x983e5152, 0xa831c66d, 0xb00327c8, 0xbf597fc7, 0xc6e00bf3, 0xd5a79147, 0x06ca6351, 0x14292967,
    0x27b70a85, 0x2e1b2138, 0x4d2c6dfc, 0x53380d13, 0x650a7354, 0x766a0abb, 0x81c2c92e, 0x92722c85,
    0xa2bfe8a1, 0xa81a664b, 0xc24b8b70, 0xc76c51a3, 0xd192e819, 0xd6990624, 0xf40e3585, 0x106aa070,
    0x19a4c116, 0x1e376c08, 0x2748774c, 0x34b0bcb5, 0x391c0cb3, 0x4ed8aa4a, 0x5b9cca4f, 0x682e6ff3,
    0x748f82ee, 0x78a5636f, 0x84c87814, 0x8cc70208, 0x90befffa, 0xa4506ceb, 0xbef9a3f7, 0xc67178f2]

/-- Rotation to the right. -/
def rotr (word count : UInt32) : UInt32 :=
  (word >>> count) ||| (word <<< (32 - count))

def round (w : Words) (constant word : UInt32) : Words :=
  let s1 := rotr w.e 6 ^^^ rotr w.e 11 ^^^ rotr w.e 25
  let ch := (w.e &&& w.f) ^^^ (~~~w.e &&& w.g)
  let t1 := w.h + s1 + ch + constant + word
  let s0 := rotr w.a 2 ^^^ rotr w.a 13 ^^^ rotr w.a 22
  let maj := (w.a &&& w.b) ^^^ (w.a &&& w.c) ^^^ (w.b &&& w.c)
  { a := t1 + (s0 + maj), b := w.a, c := w.b, d := w.c, e := w.d + t1, f := w.e, g := w.f, h := w.g }

def nextWord (earlier : List UInt32) : UInt32 :=
  let word (back : ℕ) := earlier.getD (back - 1) 0
  let s0 := rotr (word 15) 7 ^^^ rotr (word 15) 18 ^^^ (word 15 >>> 3)
  let s1 := rotr (word 2) 17 ^^^ rotr (word 2) 19 ^^^ (word 2 >>> 10)
  word 16 + s0 + word 7 + s1

def extend : ℕ → List UInt32 → List UInt32
  | 0, earlier => earlier
  | count + 1, earlier => extend count (nextWord earlier :: earlier)

def schedule (block : List UInt32) : List UInt32 :=
  (extend 48 block.reverse).reverse

def compress (w : Words) (block : List UInt32) : Words :=
  w.add ((roundConstants.zip (schedule block)).foldl (fun v round' => round v round'.1 round'.2) w)

def eightBytes (value : ℕ) : List UInt8 :=
  [56, 48, 40, 32, 24, 16, 8, 0].map fun shift => UInt8.ofNat (value >>> shift)

variable (bytes : List UInt8)

/-- The message with a one bit, zeros, and its length in bits. -/
def pad : List UInt8 :=
  bytes ++ 0x80 :: List.replicate ((119 - bytes.length % 64) % 64) 0 ++ eightBytes (bytes.length * 8)

def words : List UInt8 → List UInt32
  | a :: b :: c :: d :: bytes =>
    ((a.toUInt32 <<< 24) ||| (b.toUInt32 <<< 16) ||| (c.toUInt32 <<< 8) ||| d.toUInt32) :: words bytes
  | _ => []

def absorb : ℕ → Words → List UInt32 → Words
  | 0, w, _ => w
  | count + 1, w, message => absorb count (compress w (message.take 16)) (message.drop 16)

def digest : Words :=
  absorb ((pad bytes).length / 64) initial (words (pad bytes))

def hexDigit (value : ℕ) : Char :=
  if value < 10 then Char.ofNat (0x30 + value) else Char.ofNat (0x57 + value)

def hexWord (word : UInt32) : List Char :=
  [28, 24, 20, 16, 12, 8, 4, 0].map fun shift => hexDigit ((word.toNat >>> shift) % 16)

def Words.hex (w : Words) : List Char :=
  [w.a, w.b, w.c, w.d, w.e, w.f, w.g, w.h].flatMap hexWord

/-- `createHash("sha256").update(bytes).digest("hex")`. -/
def sha256 : String :=
  String.ofList (digest bytes).hex

/-- `/[a-f0-9]/`. -/
def isHexDigit (c : Char) : Bool :=
  ('a' ≤ c && c ≤ 'f') || ('0' ≤ c && c ≤ '9')

/-- `/^[a-f0-9]{64}$/`. -/
def isSHA256 (text : String) : Bool :=
  text.toList.length == 64 && text.toList.all isHexDigit

lemma isHexDigit_hexDigit {value : ℕ} (h : value < 16) : isHexDigit (hexDigit value) = true := by
  have hall : ∀ digit < 16, isHexDigit (hexDigit digit) = true := by decide
  exact hall value h

lemma isHexDigit_of_mem_hexWord {word : UInt32} {c : Char} (h : c ∈ hexWord word) : isHexDigit c = true := by
  obtain ⟨_, -, rfl⟩ := List.mem_map.mp h
  exact isHexDigit_hexDigit (Nat.mod_lt _ (by decide))

/-- Digests have the form that the source's schemas ask of them. -/
@[simp] lemma isSHA256_sha256 : isSHA256 (sha256 bytes) = true := by
  have hdigits : ∀ c ∈ (digest bytes).hex, isHexDigit c = true := by
    intro c hc
    obtain ⟨_, -, hword⟩ := List.mem_flatMap.mp hc
    exact isHexDigit_of_mem_hexWord hword
  have hlength : (digest bytes).hex.length = 64 := rfl
  simp only [isSHA256, sha256, String.toList_ofList, hlength, beq_self_eq_true, Bool.true_and, List.all_eq_true]
  exact hdigits

/-- The digest of the text `abc`. -/
example : (digest [0x61, 0x62, 0x63]).hex =
    "ba7816bf8f01cfea414140de5dae2223b00361a396177a9cb410ff61f20015ad".toList := by
  decide +kernel

end Sha256
