import OpenCorvus.Foundation.Utf8

/-!
# UTF-16 strings

The source language's strings are lists of UTF-16 code units and need not be well formed.  Writing
such a string as UTF-8 replaces every unpaired surrogate by the replacement character; a string that
encodes a text survives.
-/

namespace Utf16

/-- A string of the source language, by its code units. -/
abbrev Units := List UInt16

/-- The code units of one code point: itself, or its surrogate pair. -/
def encodeChar (c : Char) : Units :=
  if c.toNat < 0x10000 then [UInt16.ofNat c.toNat]
  else
    [UInt16.ofNat (0xD800 + (c.toNat - 0x10000) / 0x400), UInt16.ofNat (0xDC00 + (c.toNat - 0x10000) % 0x400)]

def encode (text : List Char) : Units :=
  text.flatMap encodeChar

/-- The first unit of a surrogate pair. -/
def isHigh (unit : UInt16) : Bool :=
  0xD800 ≤ unit.toNat && unit.toNat < 0xDC00

/-- The second unit of a surrogate pair. -/
def isLow (unit : UInt16) : Bool :=
  0xDC00 ≤ unit.toNat && unit.toNat < 0xE000

/-- The character that stands for an unpaired surrogate. -/
def replacement : Char := '\uFFFD'

/-- The code point of a surrogate pair. -/
def pair (high low : UInt16) : Char :=
  Char.ofNat (0x10000 + (high.toNat - 0xD800) * 0x400 + (low.toNat - 0xDC00))

/-- The text of a string, with unpaired surrogates replaced. -/
def decode : Units → List Char
  | [] => []
  | [unit] => if isHigh unit || isLow unit then [replacement] else [Char.ofNat unit.toNat]
  | unit :: next :: units =>
    if isHigh unit then
      if isLow next then pair unit next :: decode units else replacement :: decode (next :: units)
    else if isLow unit then replacement :: decode (next :: units)
    else Char.ofNat unit.toNat :: decode (next :: units)

def ofString (text : String) : Units :=
  encode text.toList

/-- Write a string as UTF-8, as the source's text encoder does. -/
def toUtf8 (units : Units) : List UInt8 :=
  Utf8.encode (decode units)

lemma decode_cons_of_plain {unit : UInt16} (hhigh : isHigh unit = false) (hlow : isLow unit = false)
    (units : Units) : decode (unit :: units) = Char.ofNat unit.toNat :: decode units := by
  cases units <;> simp [decode, hhigh, hlow]

@[simp] lemma decode_encodeChar_append (c : Char) (units : Units) :
    decode (encodeChar c ++ units) = c :: decode units := by
  have hvalid : c.toNat < 0xD800 ∨ 0xDFFF < c.toNat ∧ c.toNat < 0x110000 := c.valid
  rw [encodeChar]
  split
  next hsmall =>
    have hunit : (UInt16.ofNat c.toNat).toNat = c.toNat := by
      simp only [UInt16.toNat_ofNat']
      omega
    have hhigh : isHigh (UInt16.ofNat c.toNat) = false := by
      rw [isHigh, hunit]
      simp only [Bool.and_eq_false_iff, decide_eq_false_iff_not]
      omega
    have hlow : isLow (UInt16.ofNat c.toNat) = false := by
      rw [isLow, hunit]
      simp only [Bool.and_eq_false_iff, decide_eq_false_iff_not]
      omega
    rw [List.singleton_append, decode_cons_of_plain hhigh hlow, hunit, Char.ofNat_toNat]
  next hlarge =>
    have hfirst : (UInt16.ofNat (0xD800 + (c.toNat - 0x10000) / 0x400)).toNat =
        0xD800 + (c.toNat - 0x10000) / 0x400 := by
      simp only [UInt16.toNat_ofNat']
      omega
    have hsecond : (UInt16.ofNat (0xDC00 + (c.toNat - 0x10000) % 0x400)).toNat =
        0xDC00 + (c.toNat - 0x10000) % 0x400 := by
      simp only [UInt16.toNat_ofNat']
      omega
    have hhigh : isHigh (UInt16.ofNat (0xD800 + (c.toNat - 0x10000) / 0x400)) = true := by
      rw [isHigh, hfirst]
      simp only [Bool.and_eq_true, decide_eq_true_eq]
      omega
    have hlow : isLow (UInt16.ofNat (0xDC00 + (c.toNat - 0x10000) % 0x400)) = true := by
      rw [isLow, hsecond]
      simp only [Bool.and_eq_true, decide_eq_true_eq]
      omega
    have hpair : 0x10000 + (0xD800 + (c.toNat - 0x10000) / 0x400 - 0xD800) * 0x400 +
        (0xDC00 + (c.toNat - 0x10000) % 0x400 - 0xDC00) = c.toNat := by
      omega
    rw [List.cons_append, List.singleton_append, decode, if_pos hhigh, if_pos hlow, pair, hfirst,
      hsecond, hpair, Char.ofNat_toNat]

@[simp] lemma decode_encode (text : List Char) : decode (encode text) = text := by
  induction text with
  | nil => rfl
  | cons c text ih =>
    have hsplit : encode (c :: text) = encodeChar c ++ encode text := rfl
    rw [hsplit, decode_encodeChar_append, ih]

lemma ofString_injective : Function.Injective ofString := fun left right h => by
  have hdecode := congrArg decode h
  rwa [ofString, ofString, decode_encode, decode_encode, String.toList_inj] at hdecode

@[simp] lemma toUtf8_encode (text : List Char) : toUtf8 (encode text) = Utf8.encode text := by
  rw [toUtf8, decode_encode]

lemma length_encode_le (text : List Char) : (encode text).length ≤ (Utf8.encode text).length := by
  induction text with
  | nil => rfl
  | cons c text =>
    have hchar : (encodeChar c).length ≤ c.utf8Size := by
      have hpos := Char.utf8Size_pos c
      rw [encodeChar]
      split
      · rw [List.length_singleton]
        exact hpos
      next hlarge =>
        have hfour : c.utf8Size = 4 := by
          rw [Char.utf8Size_eq_four_iff]
          simp only [UInt32.lt_iff_toNat_lt]
          have htoNat : c.val.toNat = c.toNat := rfl
          rw [htoNat]
          change 0xffff < c.toNat
          omega
        simp [hfour]
    have hsplit : encode (c :: text) = encodeChar c ++ encode text := rfl
    rw [hsplit, Utf8.encode_cons]
    simp only [List.length_append, String.length_utf8EncodeChar]
    omega

end Utf16
