import OpenCorvus.Foundation.EcmaScript
import OpenCorvus.Foundation.Utf8

/-!
# Names of files in listings

`git diff --name-only` prints one path a line and quotes the names that have quotes, backslashes or control
characters.  The listing is read back line by line: each is trimmed and made relative to the worktree.  A path
whose line needs no quoting and no trimming is read back as it is.
-/

namespace OpenCorvus.Snapshot

open List Option Utf8

open EcmaScript (isWhiteSpace)

abbrev Text := List Char

/-- A name of a file or of a directory, as the file system keeps it. -/
structure Name where
  bytes : List UInt8
  valid : bytes ≠ [] ∧ (0 : UInt8) ∉ bytes ∧ (0x2F : UInt8) ∉ bytes ∧ bytes ≠ [0x2E] ∧ bytes ≠ [0x2E, 0x2E]
  deriving DecidableEq

def Name.ofBytes? (bytes : List UInt8) : Option Name :=
  if h : bytes ≠ [] ∧ (0 : UInt8) ∉ bytes ∧ (0x2F : UInt8) ∉ bytes ∧ bytes ≠ [0x2E] ∧ bytes ≠ [0x2E, 0x2E] then
    some ⟨bytes, h⟩
  else none

@[simp] lemma Name.ofBytes?_bytes (name : Name) : Name.ofBytes? name.bytes = some name := dif_pos name.valid

abbrev GitPath := List Name

instance : LawfulBEq GitPath := inferInstance

def pathBytes (p : GitPath) : List UInt8 := [(0x2F : UInt8)].intercalate (p.map Name.bytes)

def gitPath? (text : Text) : Option GitPath :=
  (text.splitOn '/').mapM fun segment => Name.ofBytes? (Utf8.encode segment)

def needsQuote (byte : UInt8) : Bool :=
  byte < 0x20 || byte == 0x7F || byte == 0x22 || byte == 0x5C

def octalDigit (value : ℕ) : UInt8 := UInt8.ofNat (0x30 + value % 8)

def escape (byte : UInt8) : List UInt8 :=
  0x5C :: if byte = 0x07 then [0x61] else if byte = 0x08 then [0x62] else if byte = 0x09 then [0x74]
    else if byte = 0x0A then [0x6E] else if byte = 0x0B then [0x76] else if byte = 0x0C then [0x66]
    else if byte = 0x0D then [0x72] else if byte = 0x22 then [0x22] else if byte = 0x5C then [0x5C]
    else [octalDigit (byte.toNat / 64), octalDigit (byte.toNat / 8), octalDigit byte.toNat]

/-- A path as it is printed with `core.quotepath=false`. -/
def quotePath (bytes : List UInt8) : List UInt8 :=
  if bytes.any needsQuote then 0x22 :: (bytes.flatMap fun byte => if needsQuote byte then escape byte else [byte]) ++ [0x22]
  else bytes

/-- The output of `git diff --name-only`. -/
def nameOnly (changed : List GitPath) : List UInt8 :=
  changed.flatMap fun p => quotePath (pathBytes p) ++ [0x0A]

class TextDecoder where
  decode : List UInt8 → Text
  decode_encode : ∀ text, decode (Utf8.encode text) = text

export TextDecoder (decode decode_encode)

/-- `text.trim()` -/
def trimText (text : Text) : Text := (text.dropWhile isWhiteSpace).rdropWhile isWhiteSpace

/-- The absolute path of the worktree, without empty, `.` and `..` segments. -/
structure Root where
  segments : List Text
  normal : ∀ segment ∈ segments, segment ≠ [] ∧ segment ≠ ['.'] ∧ segment ≠ ['.', '.']

def normalizeSegment (done : List Text) (segment : Text) : List Text :=
  if segment = [] ∨ segment = ['.'] then done
  else if segment = ['.', '.'] then done.dropLast
  else done ++ [segment]

/-- The segments of `path.normalize`, of an absolute path. -/
def normalizeSegments (segments : List Text) : List Text := segments.foldl normalizeSegment []

/-- `toWorktreeRelative`: `none` when it throws. -/
def toWorktreeRelative (root : Root) (file : Text) : Option Text :=
  let absolute := normalizeSegments
    (if file.head? = some '/' then file.splitOn '/' else root.segments ++ file.splitOn '/')
  if root.segments <+: absolute then
    let relative := ['/'].intercalate (absolute.drop root.segments.length)
    if relative = [] ∨ ['.', '.'] <+: relative then none
    else some (relative.map fun c => if c = '\\' then '/' else c)
  else none

/-- The files that `patch` reads from the listing of changed paths: `none` when one is outside of the worktree. -/
def listedFiles [TextDecoder] (root : Root) (changed : List GitPath) : Option (List Text) :=
  let lines := (trimText (decode (nameOnly changed))).splitOn '\n'
  ((lines.map trimText).filter (· ≠ [])).mapM (toWorktreeRelative root)

/-- A character for which a name is quoted. -/
def isSpecial (c : Char) : Bool := c.toNat < 0x20 || c.toNat == 0x7F || c == '"' || c == '\\'

/-- A text that is read back from a listing as it is. -/
def IsPlainText (text : Text) : Prop :=
  text ≠ [] ∧ trimText text = text ∧ (∀ c ∈ text, isSpecial c = false) ∧ ¬['.', '.'] <+: text

instance (text : Text) : Decidable (IsPlainText text) :=
  have := text.decidableBAll fun c => isSpecial c = false
  inferInstanceAs (Decidable (_ ∧ _ ∧ _ ∧ _))

def segmentTexts (p : GitPath) : Option (List Text) := p.mapM fun name => Utf8.decode? name.bytes

def pathText (p : GitPath) : Text := ['/'].intercalate ((segmentTexts p).getD [])

/-- The path is a text without quotes, backslashes and control characters, does not begin or end with white space
and does not begin with two dots. -/
def Plain (p : GitPath) : Prop := (segmentTexts p).isSome = true ∧ IsPlainText (pathText p)

instance (p : GitPath) : Decidable (Plain p) := inferInstanceAs (Decidable (_ ∧ _))

lemma toNat_eq_of_mem_utf8EncodeChar {c : Char} {byte : UInt8} (h : byte ∈ String.utf8EncodeChar c)
    (hbyte : byte.toNat < 0x80) : byte.toNat = c.toNat := by
  have hinner : ∀ byte : UInt8, ¬(byte &&& 0x3f ||| 0x80).toNat < 0x80 := forall_byte (by decide +kernel)
  rcases Char.utf8Size_eq c with hsize | hsize | hsize | hsize
  · rw [String.utf8EncodeChar_eq_singleton hsize, mem_singleton] at h
    have hvalue : c.val.toNat ≤ 127 := Char.utf8Size_eq_one_iff.mp hsize
    rw [h, UInt32.toNat_toUInt8]
    exact Nat.mod_eq_of_lt (by omega)
  · have hlead : ∀ byte : UInt8, ¬(byte &&& 0x1f ||| 0xc0).toNat < 0x80 := forall_byte (by decide +kernel)
    rw [String.utf8EncodeChar_eq_cons_cons hsize, mem_cons, mem_singleton] at h
    rcases h with h | h <;> rw [h] at hbyte
    · exact absurd hbyte (hlead _)
    · exact absurd hbyte (hinner _)
  · have hlead : ∀ byte : UInt8, ¬(byte &&& 0x0f ||| 0xe0).toNat < 0x80 := forall_byte (by decide +kernel)
    rw [String.utf8EncodeChar_eq_cons_cons_cons hsize, mem_cons, mem_cons, mem_singleton] at h
    rcases h with h | h | h <;> rw [h] at hbyte
    · exact absurd hbyte (hlead _)
    · exact absurd hbyte (hinner _)
    · exact absurd hbyte (hinner _)
  · have hlead : ∀ byte : UInt8, ¬(byte &&& 0x07 ||| 0xf0).toNat < 0x80 := forall_byte (by decide +kernel)
    rw [String.utf8EncodeChar_eq_cons_cons_cons_cons hsize, mem_cons, mem_cons, mem_cons,
      mem_singleton] at h
    rcases h with h | h | h | h <;> rw [h] at hbyte
    · exact absurd hbyte (hlead _)
    · exact absurd hbyte (hinner _)
    · exact absurd hbyte (hinner _)
    · exact absurd hbyte (hinner _)

variable {text : Text} {changed : List GitPath}

lemma quotePath_encode (h : ∀ c ∈ text, isSpecial c = false) :
    quotePath (Utf8.encode text) = Utf8.encode text := by
  have hspecial : ∀ byte : UInt8, needsQuote byte = true →
      byte.toNat < 0x80 ∧ isSpecial (Char.ofNat byte.toNat) = true := forall_byte (by decide +kernel)
  refine if_neg fun hany => ?_
  obtain ⟨byte, hbyte, hquote⟩ := List.any_eq_true.mp hany
  obtain ⟨c, hc, hmem⟩ := mem_flatMap.mp hbyte
  obtain ⟨hascii, hbad⟩ := hspecial byte hquote
  rw [toNat_eq_of_mem_utf8EncodeChar hmem hascii, Char.ofNat_toNat] at hbad
  exact Bool.false_ne_true ((h c hc).symm.trans hbad)

lemma encode_intercalate (separator : Char) (texts : List Text) : Utf8.encode ([separator].intercalate texts) =
      (String.utf8EncodeChar separator).intercalate (texts.map Utf8.encode) := by
  induction texts with
  | nil => rfl
  | cons text texts ih =>
    cases texts with
    | nil => simp [List.intercalate]
    | cons next texts =>
      have htexts : [separator].intercalate (text :: next :: texts) =
          text ++ [separator] ++ [separator].intercalate (next :: texts) :=
        intercalate_cons_of_ne_nil (cons_ne_nil _ _)
      have hbytes : (String.utf8EncodeChar separator).intercalate ((text :: next :: texts).map encode) =
          encode text ++ String.utf8EncodeChar separator ++
            (String.utf8EncodeChar separator).intercalate ((next :: texts).map encode) :=
        intercalate_cons_of_ne_nil (cons_ne_nil _ _)
      rw [htexts, hbytes, encode_append, encode_append, ih, encode_cons, encode_nil,
        List.append_nil]

section Plain

variable {p : GitPath} {texts : List Text}

lemma map_bytes_of_segmentTexts (h : segmentTexts p = some texts) : p.map Name.bytes = texts.map Utf8.encode := by
  unfold segmentTexts at h
  induction p generalizing texts with
  | nil =>
    obtain rfl : [] = texts := some.inj h
    rfl
  | cons _ _ ih =>
    rw [mapM_cons] at h
    obtain ⟨_, htext, h⟩ := bind_eq_some_iff.mp h
    obtain ⟨_, hrest, h⟩ := bind_eq_some_iff.mp h
    obtain rfl := some.inj h
    rw [map_cons, map_cons, ih hrest, decode?_eq_some_iff.mp htext]

lemma Plain.exists_texts (h : Plain p) : ∃ texts, segmentTexts p = some texts ∧ pathText p = ['/'].intercalate texts := by
  obtain ⟨texts, htexts⟩ := isSome_iff_exists.mp h.1
  refine ⟨texts, htexts, ?_⟩
  rw [pathText, htexts, getD_some]

lemma Plain.pathBytes_eq (h : Plain p) : pathBytes p = Utf8.encode (pathText p) := by
  obtain ⟨_, htexts, htext⟩ := h.exists_texts
  rw [htext, encode_intercalate, pathBytes, map_bytes_of_segmentTexts htexts]
  rfl

lemma segment_of_segmentTexts (h : segmentTexts p = some texts) {text : Text} (htext : text ∈ texts) :
    text ≠ [] ∧ '/' ∉ text ∧ text ≠ ['.'] ∧ text ≠ ['.', '.'] := by
  have hmem : encode text ∈ p.map Name.bytes :=
    (map_bytes_of_segmentTexts h) ▸ List.mem_map_of_mem htext
  obtain ⟨name, -, hname⟩ := List.mem_map.mp hmem
  obtain ⟨hne, -, hslash, hdot, hdots⟩ := name.valid
  rw [hname] at hne hslash hdot hdots
  refine ⟨?_, fun hc => hslash ?_, ?_, ?_⟩
  · rintro rfl
    exact hne rfl
  · exact mem_flatMap.mpr ⟨'/', hc, mem_singleton.mpr rfl⟩
  · rintro rfl
    exact hdot rfl
  · rintro rfl
    exact hdots rfl

lemma Plain.texts_ne_nil (h : Plain p) (htexts : segmentTexts p = some texts) : texts ≠ [] := by
  rintro rfl
  refine h.2.1 ?_
  rw [pathText, htexts]
  rfl

lemma Plain.splitOn_eq (h : Plain p) (htexts : segmentTexts p = some texts) :
    (pathText p).splitOn '/' = texts := by
  rw [pathText, htexts, getD_some]
  exact splitOn_intercalate '/' (fun text htext => (segment_of_segmentTexts htexts htext).2.1)
    (h.texts_ne_nil htexts)

lemma Plain.gitPath?_eq (h : Plain p) : gitPath? (pathText p) = some p := by
  obtain ⟨texts, htexts, -⟩ := h.exists_texts
  have hmapM : ∀ (p : GitPath) (texts : List Text), p.map Name.bytes = texts.map encode →
      texts.mapM (fun segment => Name.ofBytes? (encode segment)) = some p := by
    intro p
    induction p with
    | nil =>
      intro texts hmap
      rw [map_nil, eq_comm, map_eq_nil_iff] at hmap
      rw [hmap]
      rfl
    | cons _ _ ih =>
      intro texts hmap
      cases texts with
      | nil => cases hmap
      | cons _ texts =>
        obtain ⟨hhead, htail⟩ := cons.inj hmap
        rw [mapM_cons, ← hhead, Name.ofBytes?_bytes, ih texts htail]
        rfl
  unfold gitPath?
  rw [h.splitOn_eq htexts]
  exact hmapM p texts (map_bytes_of_segmentTexts htexts)

lemma Plain.eq_of_pathText {q : GitPath} (h : Plain p) (hq : Plain q) (htext : pathText p = pathText q) : p = q := by
  have hp := h.gitPath?_eq
  rw [htext, hq.gitPath?_eq] at hp
  exact (some.inj hp).symm

lemma normalizeSegments_eq {segments : List Text}
    (h : ∀ segment ∈ segments, segment ≠ [] ∧ segment ≠ ['.'] ∧ segment ≠ ['.', '.']) :
    normalizeSegments segments = segments := by
  have hfold : ∀ (rest done : List Text),
      (∀ segment ∈ rest, segment ≠ [] ∧ segment ≠ ['.'] ∧ segment ≠ ['.', '.']) →
      rest.foldl normalizeSegment done = done ++ rest := by
    intro rest
    induction rest with
    | nil => exact fun done _ => (List.append_nil done).symm
    | cons _ _ ih =>
      intro done hrest
      obtain ⟨⟨hne, hdot, hdots⟩, htail⟩ := forall_mem_cons.mp hrest
      rw [foldl_cons, normalizeSegment, if_neg (not_or.mpr ⟨hne, hdot⟩), if_neg hdots, ih _ htail,
        append_assoc, singleton_append]
  exact hfold segments [] h

lemma Plain.toWorktreeRelative_eq (h : Plain p) (root : Root) :
    toWorktreeRelative root (pathText p) = some (pathText p) := by
  obtain ⟨texts, htexts, htext⟩ := h.exists_texts
  obtain ⟨hne, -, hspecial, hdots⟩ := h.2
  have hsegments := fun text (htext : text ∈ _) => segment_of_segmentTexts htexts htext
  have hhead : (pathText p).head? ≠ some '/' := by
    rw [htext]
    cases hcases : texts with
    | nil => exact absurd hcases (h.texts_ne_nil htexts)
    | cons first rest =>
      obtain ⟨hfirst, hslash, -⟩ := hsegments first (hcases ▸ mem_cons_self)
      cases first with
      | nil => exact absurd rfl hfirst
      | cons c =>
        have hc : c ≠ '/' := fun he => hslash (he ▸ mem_cons_self)
        cases rest <;> simpa [List.intercalate] using hc
  have hnormal : normalizeSegments (root.segments ++ texts) = root.segments ++ texts := by
    refine normalizeSegments_eq fun segment hsegment => ?_
    rcases mem_append.mp hsegment with hroot | hmem
    · exact root.normal segment hroot
    · obtain ⟨h₁, -, h₂, h₃⟩ := hsegments segment hmem
      exact ⟨h₁, h₂, h₃⟩
  have hmap : (pathText p).map (fun c => if c = '\\' then '/' else c) = pathText p := by
    refine (map_congr_left fun c hc => if_neg fun he => ?_).trans (List.map_id _)
    have hbad := hspecial c hc
    rw [he] at hbad
    exact absurd hbad (by decide)
  unfold toWorktreeRelative
  rw [if_neg hhead, h.splitOn_eq htexts, hnormal]
  rw [if_pos (prefix_append _ _), drop_left, ← htext, if_neg (not_or.mpr ⟨hne, hdots⟩), hmap]

end Plain

lemma ends_of_trimText (h : trimText text = text) (hne : text ≠ []) :
    isWhiteSpace (text.head hne) = false ∧ isWhiteSpace (text.getLast hne) = false := by
  have hfront : text.dropWhile isWhiteSpace = text := by
    have hle : (trimText text).length ≤ (text.dropWhile isWhiteSpace).length :=
      ( rdropWhile_prefix isWhiteSpace _).length_le
    rw [h] at hle
    exact (dropWhile_sublist isWhiteSpace).eq_of_length_le hle
  constructor
  · obtain ⟨_, rest, rfl⟩ := exists_cons_of_ne_nil hne
    by_contra hc
    rw [Bool.not_eq_false, head_cons] at hc
    rw [dropWhile_cons_of_pos hc] at hfront
    have hle := (dropWhile_sublist isWhiteSpace (l := rest)).length_le
    rw [hfront, length_cons] at hle
    omega
  · have hback : text.rdropWhile isWhiteSpace = text := by
      unfold trimText at h
      rwa [hfront] at h
    exact Bool.eq_false_iff.mpr (rdropWhile_eq_self_iff.mp hback hne)

lemma trimText_append_newline (hne : text ≠ []) (hhead : isWhiteSpace (text.head hne) = false)
    (hlast : isWhiteSpace (text.getLast hne) = false) : trimText (text ++ ['\n']) = text := by
  have hfront : (text ++ ['\n']).dropWhile isWhiteSpace = text ++ ['\n'] := by
    cases text with
    | nil => exact absurd rfl hne
    | cons => exact dropWhile_cons_of_neg (Bool.eq_false_iff.mp hhead)
  have hnewline : isWhiteSpace '\n' = true := by decide
  rw [trimText, hfront, rdropWhile_concat_pos _ _ _ hnewline, rdropWhile_eq_self_iff]
  exact fun _ => Bool.eq_false_iff.mp hlast

lemma ends_of_intercalate {lines : List Text} (h : ∀ line ∈ lines, trimText line = line ∧ line ≠ []) (hne : lines ≠ []) :
    ∃ hne' : ['\n'].intercalate lines ≠ [], isWhiteSpace ((['\n'].intercalate lines).head hne') = false ∧
      isWhiteSpace ((['\n'].intercalate lines).getLast hne') = false := by
  induction lines with
  | nil => exact absurd rfl hne
  | cons line lines ih =>
    obtain ⟨⟨htrim, hline⟩, hrest⟩ := forall_mem_cons.mp h
    obtain ⟨hhead, hlast⟩ := ends_of_trimText htrim hline
    cases lines with
    | nil =>
      have hsingle : ['\n'].intercalate [line] = line := by simp [List.intercalate]
      refine ⟨by rw [hsingle]; exact hline, ?_, ?_⟩
      · simpa only [hsingle] using hhead
      · simpa only [hsingle] using hlast
    | cons next lines =>
      obtain ⟨hne', -, hlast'⟩ := ih hrest (cons_ne_nil _ _)
      have happend : ['\n'].intercalate (line :: next :: lines) =
          line ++ ['\n'] ++ ['\n'].intercalate (next :: lines) :=
        intercalate_cons_of_ne_nil (cons_ne_nil _ _)
      refine ⟨by rw [happend]; exact append_ne_nil_of_right_ne_nil _ hne', ?_, ?_⟩
      · simp only [happend, append_assoc, head_append_of_ne_nil hline]
        exact hhead
      · simp only [happend, getLast_append_of_ne_nil _ hne']
        exact hlast'

lemma nameOnly_eq (h : ∀ p ∈ changed, Plain p) :
    nameOnly changed = Utf8.encode ((changed.map pathText).flatMap fun text => text ++ ['\n']) := by
  induction changed with
  | nil => rfl
  | cons p changed ih =>
    obtain ⟨hp, hrest⟩ := forall_mem_cons.mp h
    have hnewline : encode ['\n'] = [0x0A] := by decide
    have hih : (changed.flatMap fun p => quotePath (pathBytes p) ++ [0x0A]) =
        encode ((changed.map pathText).flatMap fun text => text ++ ['\n']) := ih hrest
    rw [nameOnly, flatMap_cons, hih, map_cons, flatMap_cons, encode_append, encode_append,
      hnewline, hp.pathBytes_eq, quotePath_encode hp.2.2.2.1]

lemma flatMap_newline (lines : List Text) (hne : lines ≠ []) :
    (lines.flatMap fun line => line ++ ['\n']) = ['\n'].intercalate lines ++ ['\n'] := by
  induction lines with
  | nil => exact absurd rfl hne
  | cons line lines ih =>
    cases lines with
    | nil => simp [List.intercalate]
    | cons next lines =>
      have happend : ['\n'].intercalate (line :: next :: lines) =
          line ++ ['\n'] ++ ['\n'].intercalate (next :: lines) :=
        intercalate_cons_of_ne_nil (cons_ne_nil _ _)
      rw [flatMap_cons, ih (cons_ne_nil _ _), happend, append_assoc, append_assoc]
      simp only [append_assoc]

lemma mapM_toWorktreeRelative (root : Root) (h : ∀ p ∈ changed, Plain p) :
    (changed.map pathText).mapM (toWorktreeRelative root) = some (changed.map pathText) := by
  induction changed with
  | nil => rfl
  | cons _ _ ih =>
    obtain ⟨hp, hrest⟩ := forall_mem_cons.mp h
    rw [map_cons, mapM_cons, hp.toWorktreeRelative_eq root, ih hrest]
    rfl

theorem listedFiles_eq [TextDecoder] (root : Root) (h : ∀ p ∈ changed, Plain p) :
    listedFiles root changed = some (changed.map pathText) := by
  unfold listedFiles
  rw [nameOnly_eq h, decode_encode]
  by_cases hne : changed = []
  · subst hne
    rfl
  · have hlines : changed.map pathText ≠ [] := fun he => hne (map_eq_nil_iff.mp he)
    have htrimmed : ∀ line ∈ changed.map pathText, trimText line = line ∧ line ≠ [] := by
      intro line hline
      obtain ⟨p, hp, rfl⟩ := List.mem_map.mp hline
      exact ⟨(h p hp).2.2.1, (h p hp).2.1⟩
    have hnewline : ∀ line ∈ changed.map pathText, '\n' ∉ line := by
      intro line hline hmem
      obtain ⟨p, hp, rfl⟩ := List.mem_map.mp hline
      exact absurd ((h p hp).2.2.2.1 _ hmem) (by decide)
    obtain ⟨hjoined, hhead, hlast⟩ := ends_of_intercalate htrimmed hlines
    have hmap : (changed.map pathText).map trimText = changed.map pathText :=
      (map_congr_left fun line hline => (htrimmed line hline).1).trans (List.map_id _)
    have hfilter : (changed.map pathText).filter (· ≠ []) = changed.map pathText :=
      filter_eq_self.mpr fun line hline => decide_eq_true (htrimmed line hline).2
    rw [flatMap_newline _ hlines, trimText_append_newline hjoined hhead hlast,
      splitOn_intercalate '\n' hnewline hlines]
    dsimp only
    rw [hmap, hfilter]
    exact mapM_toWorktreeRelative root h

end OpenCorvus.Snapshot
