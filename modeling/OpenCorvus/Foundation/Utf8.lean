import Mathlib.Data.List.Basic
import Mathlib.Data.List.Infix

/-!
# UTF-8 texts and their pages

A text is its list of code points, encoded one by one; the decoder accepts a byte string exactly when it is the
encoding of a text.  A text is cut into pages of a bounded number of bytes: each page is the longest run of whole code
points that fits.  Cutting the bytes blindly and backing off until the decoder accepts finds the same page.
-/

namespace Utf8

open List Option

def encode (text : List Char) : List UInt8 :=
  text.flatMap String.utf8EncodeChar

/-- The first code point of a byte string, if the bytes begin with a whole one. -/
def decodeChar? (bytes : List UInt8) : Option Char :=
  bytes.toByteArray.utf8DecodeChar? 0

/-- The text of a byte string, with a bound on the number of its code points. -/
def decodeWith : ℕ → List UInt8 → Option (List Char)
  | _, [] => some []
  | 0, _ :: _ => none
  | fuel + 1, byte :: bytes => do
    let c ← decodeChar? (byte :: bytes)
    let text ← decodeWith fuel ((byte :: bytes).drop c.utf8Size)
    return c :: text

/-- The strict decoder: the text of a byte string that is its encoding. -/
def decode? (bytes : List UInt8) : Option (List Char) :=
  decodeWith bytes.length bytes

attribute [local simp] decodeWith

@[simp] lemma encode_nil : encode [] = [] := rfl

@[simp] lemma encode_cons (c : Char) (text : List Char) :
    encode (c :: text) = String.utf8EncodeChar c ++ encode text := rfl

@[simp] lemma encode_append (front back : List Char) : encode (front ++ back) = encode front ++ encode back :=
  flatMap_append

lemma encode_flatten (texts : List (List Char)) : encode texts.flatten = (texts.map encode).flatten := by
  induction texts with
  | nil => rfl
  | cons _ _ ih => rw [flatten_cons, encode_append, ih, map_cons, flatten_cons]

lemma length_le_length_encode (text : List Char) : text.length ≤ (encode text).length := by
  induction text with
  | nil => simp
  | cons c =>
    have hpos : 0 < c.utf8Size := Char.utf8Size_pos c
    simp only [encode_cons, length_append, String.length_utf8EncodeChar, length_cons]
    omega

variable {text front : List Char} {bytes : List UInt8} {count room : ℕ}

@[simp] lemma encode_eq_nil : encode text = [] ↔ text = [] := by
  refine ⟨fun h => ?_, fun h => by rw [h, encode_nil]⟩
  have hle := length_le_length_encode text
  rw [h] at hle
  exact eq_nil_of_length_eq_zero (Nat.le_zero.mp hle)

@[simp] lemma decodeChar?_append (c : Char) (bytes : List UInt8) :
    decodeChar? (String.utf8EncodeChar c ++ bytes) = some c := by
  rw [decodeChar?, toByteArray_append]
  exact ByteArray.utf8DecodeChar?_utf8EncodeChar_append

lemma exists_of_decodeChar? {c : Char} (h : decodeChar? bytes = some c) :
    ∃ rest, bytes = String.utf8EncodeChar c ++ rest := by
  obtain ⟨rest, hrest⟩ := ByteArray.exists_of_utf8DecodeChar?_eq_some h
  refine ⟨rest.data.toList, ?_⟩
  have hlist := congrArg (fun b => b.data.toList) hrest
  simpa using hlist

lemma decodeWith_encode {fuel : ℕ} (hfuel : text.length ≤ fuel) : decodeWith fuel (encode text) = some text := by
  induction text generalizing fuel with
  | nil => cases fuel <;> rfl
  | cons c text ih =>
    cases fuel with
    | zero => simp at hfuel
    | succ fuel =>
      obtain ⟨byte, bytes, hbytes⟩ : ∃ byte bytes, encode (c :: text) = byte :: bytes :=
        exists_cons_of_ne_nil (by simp)
      have hchar : decodeChar? (byte :: bytes) = some c := by
        rw [← hbytes, encode_cons, decodeChar?_append]
      have hdrop : (byte :: bytes).drop c.utf8Size = encode text := by
        rw [← hbytes, encode_cons, ← String.length_utf8EncodeChar c, drop_left]
      have htext : decodeWith fuel (encode text) = some text :=
        ih (Nat.le_of_succ_le_succ hfuel)
      rw [hbytes, decodeWith, hchar, bind_eq_bind, bind_some, hdrop, htext]
      rfl

lemma eq_encode_of_decodeWith {fuel : ℕ} (h : decodeWith fuel bytes = some text) : bytes = encode text := by
  induction fuel generalizing bytes text with
  | zero =>
    cases bytes with
    | nil => simpa using h
    | cons => simp at h
  | succ _ ih =>
    cases bytes with
    | nil => simpa using h
    | cons byte bytes =>
      simp only [decodeWith, bind_eq_bind, bind_eq_some_iff] at h
      obtain ⟨c, hc, text', htext, hans⟩ := h
      obtain ⟨rest, hrest⟩ := exists_of_decodeChar? hc
      have htail : (byte :: bytes).drop c.utf8Size = rest := by
        rw [hrest, ← String.length_utf8EncodeChar c, drop_left]
      have hback : rest = encode text' := ih (htail ▸ htext)
      have hcons : c :: text' = text := some.inj hans
      rw [← hcons, encode_cons, ← hback, hrest]

lemma decode?_eq_some_iff : decode? bytes = some text ↔ bytes = encode text := by
  refine ⟨eq_encode_of_decodeWith, fun h => ?_⟩
  rw [h]
  exact decodeWith_encode (length_le_length_encode text)

lemma isPrefix_of_encode (h : encode front <+: encode text) : front <+: text := by
  induction front generalizing text with
  | nil => exact nil_prefix
  | cons c _ ih =>
    obtain ⟨rest, hrest⟩ := h
    cases text with
    | nil => simp at hrest
    | cons d text =>
      have hsame : decodeChar? (encode (d :: text)) = some c := by
        rw [← hrest, encode_cons, append_assoc, decodeChar?_append]
      have hchar : d = c := by
        rw [encode_cons, decodeChar?_append] at hsame
        exact some.inj hsame
      subst hchar
      rw [encode_cons, encode_cons, append_assoc] at hrest
      have htail := append_cancel_left hrest
      exact cons_prefix_cons.mpr ⟨rfl, ih ⟨rest, htail⟩⟩

lemma decode?_take_encode : decode? ((encode text).take count) = some front ↔
      front <+: text ∧ (encode text).take count = encode front := by
  rw [decode?_eq_some_iff]
  refine ⟨fun h => ⟨isPrefix_of_encode ?_, h⟩, And.right⟩
  rw [← h]
  exact take_prefix count (encode text)

lemma length_encode_le_of_prefix (h : front <+: text) : (encode front).length ≤ (encode text).length := by
  obtain ⟨_, rfl⟩ := h
  simp

/-- Whether a byte stands inside a code point rather than at its start. -/
def isContinuation (byte : UInt8) : Bool :=
  byte &&& 0xC0 == 0x80

lemma forall_byte {P : UInt8 → Prop} (h : ∀ value < 256, P (UInt8.ofNat value)) (byte : UInt8) : P byte := by
  have hbyte := h byte.toNat byte.toNat_lt
  rwa [UInt8.ofNat_toNat] at hbyte

lemma isContinuation_encode_head (c : Char) (bytes : List UInt8) :
    (String.utf8EncodeChar c ++ bytes)[0]?.any isContinuation = false := by
  rcases Char.utf8Size_eq c with hsize | hsize | hsize | hsize
  · have hascii : ∀ byte : UInt8, byte.toNat ≤ 127 → isContinuation byte = false :=
      forall_byte (by decide +kernel)
    have hvalue : c.val.toNat ≤ 127 := Char.utf8Size_eq_one_iff.mp hsize
    have hbyte : isContinuation c.val.toUInt8 = false := by
      apply hascii
      rw [UInt32.toNat_toUInt8]
      omega
    rw [String.utf8EncodeChar_eq_singleton hsize]
    exact hbyte
  · have hlead : ∀ byte : UInt8, isContinuation (byte &&& 0x1f ||| 0xc0) = false :=
      forall_byte (by decide +kernel)
    rw [String.utf8EncodeChar_eq_cons_cons hsize]
    exact hlead _
  · have hlead : ∀ byte : UInt8, isContinuation (byte &&& 0x0f ||| 0xe0) = false :=
      forall_byte (by decide +kernel)
    rw [String.utf8EncodeChar_eq_cons_cons_cons hsize]
    exact hlead _
  · have hlead : ∀ byte : UInt8, isContinuation (byte &&& 0x07 ||| 0xf0) = false :=
      forall_byte (by decide +kernel)
    rw [String.utf8EncodeChar_eq_cons_cons_cons_cons hsize]
    exact hlead _

lemma isContinuation_head_encode (text : List Char) : (encode text)[0]?.any isContinuation = false := by
  cases text with
  | nil => rfl
  | cons c text => exact isContinuation_encode_head c (encode text)

def fit : ℕ → List Char → List Char
  | _, [] => []
  | room, c :: text => if c.utf8Size ≤ room then c :: fit (room - c.utf8Size) text else []

attribute [local simp] fit

lemma fit_isPrefix (room : ℕ) (text : List Char) : fit room text <+: text := by
  induction text generalizing room with
  | nil => exact nil_prefix
  | cons _ _ ih =>
    rw [fit]
    split
    · exact cons_prefix_cons.mpr ⟨rfl, ih _⟩
    · exact nil_prefix

lemma length_encode_fit_le (room : ℕ) (text : List Char) : (encode (fit room text)).length ≤ room := by
  induction text generalizing room with
  | nil => simp
  | cons c _ ih =>
    rw [fit]
    split
    · have htail := ih (room - c.utf8Size)
      simp only [encode_cons, length_append, String.length_utf8EncodeChar]
      omega
    · simp

lemma prefix_fit (hfront : front <+: text) (hroom : (encode front).length ≤ room) : front <+: fit room text := by
  induction text generalizing room front with
  | nil => exact hfront
  | cons _ _ ih =>
    cases front with
    | nil => exact nil_prefix
    | cons =>
      obtain ⟨rfl, hrest⟩ := cons_prefix_cons.mp hfront
      simp only [encode_cons, length_append, String.length_utf8EncodeChar] at hroom
      rw [fit, if_pos (by omega)]
      exact cons_prefix_cons.mpr ⟨rfl, ih hrest (by omega)⟩

lemma fit_ne_nil (hroom : 4 ≤ room) (htext : text ≠ []) : fit room text ≠ [] := by
  obtain ⟨c, _, rfl⟩ := exists_cons_of_ne_nil htext
  have hsize : c.utf8Size ≤ room := (Char.utf8Size_le_four c).trans hroom
  simp [if_pos hsize]

def pages (room : ℕ) : List Char → List (List Char)
  | [] => []
  | c :: text =>
    fit room (c :: text) :: pages room ((c :: text).drop (max 1 (fit room (c :: text)).length))
termination_by text => text.length
decreasing_by
  simp only [length_drop, length_cons]
  omega

lemma pages_append {page rest : List Char} (hpage : page ≠ []) (hfit : fit room (page ++ rest) = page) :
    pages room (page ++ rest) = page :: pages room rest := by
  obtain ⟨c, page', rfl⟩ := exists_cons_of_ne_nil hpage
  rw [cons_append] at hfit
  rw [cons_append, pages, hfit]
  have hmax : max 1 (c :: page').length = (c :: page').length := by
    simp only [length_cons]
    omega
  rw [hmax, ← cons_append, drop_left]

lemma exists_page (hroom : 4 ≤ room) (htext : text ≠ []) :
    ∃ page rest, page ≠ [] ∧ text = page ++ rest ∧ fit room text = page ∧
      pages room text = page :: pages room rest := by
  obtain ⟨rest, hrest⟩ := fit_isPrefix room text
  have hpage : fit room text ≠ [] := fit_ne_nil hroom htext
  have hfit : fit room (fit room text ++ rest) = fit room text := by
    rw [hrest]
  refine ⟨fit room text, rest, hpage, hrest.symm, rfl, ?_⟩
  have hpages := pages_append hpage hfit
  rwa [hrest] at hpages

inductive Cut (room : ℕ) : List Char → List (List Char) → Prop where
  | last {page : List Char} (fits : fit room page = page) : Cut room page [page]
  | next {page rest : List Char} {later : List (List Char)} (page_ne : page ≠ [])
      (rest_ne : rest ≠ []) (fits : fit room (page ++ rest) = page) (tail : Cut room rest later) :
      Cut room (page ++ rest) (page :: later)

lemma cut_pages (hroom : 4 ≤ room) (htext : text ≠ []) : Cut room text (pages room text) := by
  induction hlength : text.length using Nat.strong_induction_on generalizing text with
  | h length ih =>
    obtain ⟨_, rest, hpage, rfl, hfit, hpages⟩ := exists_page hroom htext
    rw [hpages]
    rcases eq_or_ne rest [] with rfl | hrest
    · rw [List.append_nil] at hfit ⊢
      have hnone : pages room [] = [] := by rw [pages]
      rw [hnone]
      exact .last hfit
    · have hshorter : rest.length < length := by
        have hpos := length_pos_of_ne_nil hpage
        rw [← hlength, length_append]
        omega
      exact .next hpage hrest hfit (ih rest.length hshorter hrest rfl)

lemma exists_cut (hroom : 4 ≤ room) (text : List Char) :
    ∃ cut, Cut room text cut ∧ (cut = pages room text ∨ text = [] ∧ cut = [[]]) := by
  rcases eq_or_ne text [] with rfl | htext
  · exact ⟨[[]], .last rfl, .inr ⟨rfl, rfl⟩⟩
  · exact ⟨pages room text, cut_pages hroom htext, .inl rfl⟩

lemma Cut.flatten {cut : List (List Char)} (h : Cut room text cut) : cut.flatten = text := by
  induction h with
  | last => simp
  | next _ _ _ _ ih => rw [flatten_cons, ih]

/-- Shorten a byte string, from a given length down, until a decoder accepts it. -/
def backOff {α : Type*} (decode : List UInt8 → Option α) (bytes : List UInt8) : ℕ → Option (α × ℕ)
  | 0 => none
  | count + 1 =>
    match decode (bytes.take (count + 1)) with
    | some text => some (text, count + 1)
    | none => backOff decode bytes count

lemma backOff_decode {α : Type*} (f : List Char → α) (hne : fit room text ≠ [])
    (hlower : (encode (fit room text)).length ≤ count) (hroom : count ≤ room)
    (hlength : count ≤ (encode text).length) :
    backOff (fun bytes => (decode? bytes).map f) (encode text) count =
      some (f (fit room text), (encode (fit room text)).length) := by
  have hpos : 0 < (encode (fit room text)).length :=
    length_pos_of_ne_nil (by simpa using hne)
  induction count with
  | zero => omega
  | succ count ih =>
    rw [backOff]
    rcases Nat.lt_or_ge count (encode (fit room text)).length with hcount | hcount
    · -- the length is that of the page, which is accepted
      have hsize : (encode (fit room text)).length = count + 1 := by omega
      have htake : decode? ((encode text).take (count + 1)) = some (fit room text) := by
        obtain ⟨_, hback⟩ := fit_isPrefix room text
        refine decode?_take_encode.mpr ⟨fit_isPrefix room text, ?_⟩
        rw [← hsize]
        nth_rewrite 2 [← hback]
        rw [encode_append, take_left]
      simp only [htake, map_some, hsize]
    · -- a longer run that were accepted would fit as well
      have htake : decode? ((encode text).take (count + 1)) = none := by
        rcases hdecode : decode? ((encode text).take (count + 1)) with _ | front
        · rfl
        · obtain ⟨hfront, hbytes⟩ := decode?_take_encode.mp hdecode
          have hsize : (encode front).length = count + 1 := by
            rw [← hbytes, length_take]
            omega
          have hle := length_encode_le_of_prefix (prefix_fit hfront (hsize ▸ hroom))
          omega
      simp only [htake, map_none]
      exact ih hcount (by omega) (by omega)

lemma backOff_take {α : Type*} {decode : List UInt8 → Option α} {reach : ℕ} (h : count ≤ reach) :
    backOff decode (bytes.take reach) count = backOff decode bytes count := by
  induction count with
  | zero => rfl
  | succ count ih =>
    have hmin : min (count + 1) reach = count + 1 := Nat.min_eq_left h
    rw [backOff, backOff, take_take, hmin, ih (by omega)]

end Utf8
