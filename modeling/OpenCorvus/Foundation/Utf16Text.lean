import OpenCorvus.Foundation.EcmaScript
import OpenCorvus.Foundation.Utf16

/-!
# Lines of UTF-16 strings

Trimming, and splitting into lines, by code units.  White space is what `trim` removes and what `\s`
matches.
-/

namespace Utf16

open List

variable {text : Units}

def isWhiteSpace (unit : UInt16) : Bool :=
  unit.toNat ∈ [0x09, 0x0A, 0x0B, 0x0C, 0x0D, 0x20, 0xA0, 0x1680, 0x2028, 0x2029, 0x202F, 0x205F,
    0x3000, 0xFEFF] || (0x2000 ≤ unit.toNat && unit.toNat ≤ 0x200A)

/-- `text.trimEnd()` -/
def trimEnd (text : Units) : Units := text.rdropWhile isWhiteSpace

/-- `text.trim()` -/
def trim (text : Units) : Units := trimEnd (text.dropWhile isWhiteSpace)

/-- Trimming twice is trimming once. -/
@[simp] lemma trim_trim (text : Units) : trim (trim text) = trim text := by
  have hidem : (text.dropWhile isWhiteSpace).dropWhile isWhiteSpace = text.dropWhile isWhiteSpace :=
    dropWhile_idempotent isWhiteSpace _
  unfold trim trimEnd
  rw [EcmaScript.dropWhile_rdropWhile hidem, rdropWhile_idempotent]

lemma trim_sublist (text : Units) : (trim text).Sublist text :=
  ( rdropWhile_prefix _ _).sublist.trans (dropWhile_sublist _)

lemma trim_eq_self {first last : UInt16} {text : Units} (hfirst : text.head? = some first)
    (hlast : text.getLast? = some last) (hfirst' : isWhiteSpace first = false)
    (hlast' : isWhiteSpace last = false) : trim text = text := by
  unfold trim trimEnd
  have hdrop : text.dropWhile isWhiteSpace = text := by
    obtain ⟨_, rfl⟩ := head?_eq_some_iff.mp hfirst
    exact dropWhile_cons_of_neg (by simp [hfirst'])
  rw [hdrop]
  obtain ⟨_, rfl⟩ := getLast?_eq_some_iff.mp hlast
  rw [rdropWhile_concat, if_neg (by simp [hlast'])]

lemma prefix_trim_append {first last : UInt16} {start : Units} (hfirst : start.head? = some first)
    (hlast : start.getLast? = some last) (hfirst' : isWhiteSpace first = false)
    (hlast' : isWhiteSpace last = false) : start <+: trim (start ++ text) := by
  have hdrop : (start ++ text).dropWhile isWhiteSpace = start ++ text := by
    obtain ⟨_, rfl⟩ := head?_eq_some_iff.mp hfirst
    exact dropWhile_cons_of_neg (by simp [hfirst'])
  have hstart : start.reverse.dropWhile isWhiteSpace = start.reverse := by
    obtain ⟨_, rfl⟩ := getLast?_eq_some_iff.mp hlast
    rw [reverse_append]
    exact dropWhile_cons_of_neg (by simp [hlast'])
  have hsuffix : start.reverse <:+ (text.reverse ++ start.reverse).dropWhile isWhiteSpace := by
    rw [dropWhile_append, hstart]
    split_ifs
    · exact suffix_refl _
    · exact suffix_append _ _
  rw [trim, hdrop, trimEnd, List.rdropWhile, reverse_append]
  exact reverse_suffix.mp (by simpa using hsuffix)

/-- `"\n"` -/
def newline : UInt16 := 0x0A

/-- `" "` -/
def space : UInt16 := 0x20

/-- `text.split("\n")` -/
def splitLines (text : Units) : List Units := text.splitOn newline

/-- `lines.join("\n")` -/
def joinLines (lines : List Units) : Units := [newline].intercalate lines

/-- `lines.slice(i, i + n)` for every `i` at which there are `n` lines. -/
def blocks (lines : List Units) (n : ℕ) : List (List Units) :=
  (List.range (lines.length + 1 - n)).map fun i => (lines.drop i).take n

lemma splitLines_cons (unit : UInt16) (rest : Units) : splitLines (unit :: rest) =
      if unit = newline then [] :: splitLines rest else (splitLines rest).modifyHead (unit :: ·) := by
  unfold splitLines
  rw [splitOn_eq_splitOnP, splitOnP_cons_eq_if_modifyHead, ← splitOn_eq_splitOnP]
  simp

lemma newline_notMem_of_mem_splitLines {line : Units} (h : line ∈ splitLines text) : newline ∉ line := by
  induction text generalizing line with
  | nil =>
    have hline : line = [] := by simpa [splitLines] using h
    simp [hline]
  | cons _ rest ih =>
    rw [splitLines_cons] at h
    obtain ⟨first, others, hsplit⟩ := exists_cons_of_ne_nil (splitOn_ne_nil newline rest)
    have hsplit' : splitLines rest = first :: others := hsplit
    split_ifs at h with hunit
    · rcases mem_cons.mp h with rfl | h
      · simp
      · exact ih h
    · rw [hsplit', modifyHead_cons] at h
      rcases mem_cons.mp h with rfl | h
      · have hfirst : newline ∉ first := ih (hsplit' ▸ mem_cons_self)
        simp [hfirst, Ne.symm hunit]
      · exact ih (hsplit' ▸ mem_cons_of_mem first h)

lemma splitLines_joinLines {lines : List Units} (hlines : ∀ line ∈ lines, newline ∉ line) (hne : lines ≠ []) :
    splitLines (joinLines lines) = lines :=
  splitOn_intercalate newline hlines hne

@[simp] lemma joinLines_splitLines (text : Units) : joinLines (splitLines text) = text :=
  intercalate_splitOn newline

lemma prefix_joinLines (line : Units) (lines : List Units) : line <+: joinLines (line :: lines) := by
  cases lines with
  | nil => simp [joinLines]
  | cons next rest =>
    have hjoin : joinLines (line :: next :: rest) = line ++ ([newline] ++ joinLines (next :: rest)) := by
      simp [joinLines, List.intercalate]
    rw [hjoin]
    exact prefix_append _ _

lemma suffix_joinLines (lines : List Units) (line : Units) : line <:+ joinLines (lines ++ [line]) := by
  induction lines with
  | nil => simp [joinLines]
  | cons first rest ih =>
    obtain ⟨next, others, hnext⟩ := exists_cons_of_ne_nil (concat_ne_nil line rest)
    have hnext' : rest ++ [line] = next :: others := by simpa using hnext
    have hjoin : joinLines (first :: next :: others) = first ++ [newline] ++ joinLines (next :: others) := by
      simp [joinLines, List.intercalate]
    rw [cons_append, hnext', hjoin, ← hnext']
    exact ih.trans (suffix_append _ _)

lemma splitLines_ne_nil (text : Units) : splitLines text ≠ [] :=
  splitOn_ne_nil newline text

lemma flatMap_concat_newline {lines : List Units} (hne : lines ≠ []) :
    (lines.flatMap fun line => line ++ [newline]) = joinLines lines ++ [newline] := by
  induction lines with
  | nil => exact absurd rfl hne
  | cons _ rest ih =>
    rw [flatMap_cons]
    cases rest with
    | nil => simp [joinLines]
    | cons =>
      rw [ih (by simp)]
      simp [joinLines, List.intercalate]

end Utf16
