import Mathlib.Data.List.Infix

/-!
# Searching and replacing in texts

A text is a list over any alphabet.  The positions at which a needle occurs in a text may overlap; the
matches of a replacement of every occurrence do not: they are chosen from the left.  Replacing every
match is related to a text without naming positions.
-/

namespace TextSearch

open List

variable {α : Type*} [DecidableEq α] {needle hay new : List α} {i k : ℕ}

def positions (needle hay : List α) : List ℕ :=
  (List.range (hay.length + 1)).filter fun i => needle <+: hay.drop i

def indexOf (needle hay : List α) : Option ℕ := (positions needle hay).head?

def lastIndexOf (needle hay : List α) : Option ℕ := (positions needle hay).getLast?

def includes (needle hay : List α) : Bool := (indexOf needle hay).isSome

lemma mem_positions : i ∈ positions needle hay ↔ i ≤ hay.length ∧ needle <+: hay.drop i := by
  simp only [positions, mem_filter, mem_range, Nat.lt_succ_iff, decide_eq_true_eq]

lemma positions_pairwise (needle hay : List α) : (positions needle hay).Pairwise (· < ·) :=
  pairwise_lt_range.filter _

lemma split_at_position (h : i ∈ positions needle hay) :
    hay = hay.take i ++ needle ++ hay.drop (i + needle.length) := by
  obtain ⟨-, rest, hrest⟩ := mem_positions.mp h
  have hdrop : hay.drop (i + needle.length) = rest := by
    rw [← drop_drop, ← hrest, drop_left]
  rw [hdrop, append_assoc, hrest, take_append_drop]

lemma position_add_length_le (h : i ∈ positions needle hay) : i + needle.length ≤ hay.length := by
  obtain ⟨_, hoccurs⟩ := mem_positions.mp h
  have hlength := hoccurs.length_le
  rw [length_drop] at hlength
  omega

lemma indexOf_eq_none_iff : indexOf needle hay = none ↔ positions needle hay = [] :=
  head?_eq_none_iff

lemma indexOf_eq_some_iff :
    indexOf needle hay = some i ↔ i ∈ positions needle hay ∧ ∀ j ∈ positions needle hay, i ≤ j := by
  have hpairwise := positions_pairwise needle hay
  unfold indexOf
  constructor
  · intro hhead
    obtain ⟨_, hpositions⟩ := head?_eq_some_iff.mp hhead
    rw [hpositions] at hpairwise ⊢
    refine ⟨mem_cons_self, fun j hj => ?_⟩
    rcases mem_cons.mp hj with rfl | hrest
    · exact le_rfl
    · exact ((pairwise_cons.mp hpairwise).1 j hrest).le
  · rintro ⟨hmem, hleast⟩
    cases hpositions : positions needle hay with
    | nil =>
      rw [hpositions] at hmem
      exact absurd hmem not_mem_nil
    | cons j =>
      rw [hpositions] at hpairwise hmem hleast
      have hle : i ≤ j := hleast j mem_cons_self
      rcases mem_cons.mp hmem with rfl | hrest
      · rfl
      · exact absurd ((pairwise_cons.mp hpairwise).1 i hrest) (not_lt.mpr hle)

lemma indexOf_eq_lastIndexOf_iff (hi : indexOf needle hay = some i) :
    lastIndexOf needle hay = some i ↔ positions needle hay = [i] := by
  unfold lastIndexOf
  obtain ⟨rest, hpositions⟩ := head?_eq_some_iff.mp hi
  have hpairwise := positions_pairwise needle hay
  rw [hpositions] at hpairwise ⊢
  constructor
  · intro hlast
    cases hrest : rest.getLast? with
    | none => rw [getLast?_eq_none_iff.mp hrest]
    | some last =>
      rw [getLast?_cons, hrest] at hlast
      obtain rfl : last = i := Option.some.inj hlast
      have hmem : last ∈ rest := mem_of_getLast? hrest
      exact absurd ((pairwise_cons.mp hpairwise).1 last hmem) (lt_irrefl last)
  · intro hone
    rw [hone]
    rfl

lemma positions_drop : k ≤ hay.length → (i ∈ positions needle (hay.drop k) ↔ k + i ∈ positions needle hay) := by
  intro hk
  rw [mem_positions, mem_positions, drop_drop, length_drop]
  exact and_congr_left fun _ => by omega

/-- Choose from increasing positions, beginning at `start`, each one that is not covered by the one
before it. -/
def leftmost (advance : ℕ) : ℕ → List ℕ → List ℕ
  | _, [] => []
  | start, i :: rest =>
    if start ≤ i then i :: leftmost advance (i + advance) rest else leftmost advance start rest

def matchesOf (needle hay : List α) : List ℕ :=
  leftmost (max 1 needle.length) 0 (positions needle hay)

/-- The text from `endOfLast` on, with the matches replaced. -/
def spliceMatches (needle hay : List α) (replacement : ℕ → List α) : ℕ → List ℕ → List α
  | endOfLast, [] => hay.drop endOfLast
  | endOfLast, i :: rest =>
    (hay.drop endOfLast).take (i - endOfLast) ++ replacement i ++
      spliceMatches needle hay replacement (i + needle.length) rest

omit [DecidableEq α] in
lemma spliceMatches_congr {f g : ℕ → List α} {ps : List ℕ} (h : ∀ i ∈ ps, f i = g i) (endOfLast : ℕ) :
    spliceMatches needle hay f endOfLast ps = spliceMatches needle hay g endOfLast ps := by
  induction ps generalizing endOfLast with
  | nil => rfl
  | cons p _ ih =>
    unfold spliceMatches
    rw [h p mem_cons_self, ih fun i hi => h i (mem_cons_of_mem p hi)]

/-- The next match is the first position from `start` on. -/
lemma leftmost_eq {advance : ℕ} (hadvance : 0 < advance) {ps : List ℕ} (hps : ps.Pairwise (· < ·)) (start : ℕ) :
    leftmost advance start ps =
      ((ps.find? fun i => start ≤ i).map fun i => i :: leftmost advance (i + advance) ps).getD [] := by
  induction ps generalizing start with
  | nil => rfl
  | cons p ps ih =>
    obtain ⟨hlt, hps⟩ := pairwise_cons.mp hps
    have hskip : ∀ i, p < i → leftmost advance i (p :: ps) = leftmost advance i ps := fun i hi =>
      if_neg (not_le.mpr hi)
    by_cases hstart : start ≤ p
    · have hfind : (p :: ps).find? (fun i => decide (start ≤ i)) = some p :=
        find?_cons_of_pos (decide_eq_true hstart)
      rw [hfind, leftmost, if_pos hstart, Option.map_some, Option.getD_some, hskip _ (by omega)]
    · have hfind : (p :: ps).find? (fun i => decide (start ≤ i)) = ps.find? fun i => decide (start ≤ i) :=
        find?_cons_of_neg (by simpa using hstart)
      rw [hfind, leftmost, if_neg hstart, ih hps start]
      cases hnext : ps.find? fun i => decide (start ≤ i) with
      | none => rfl
      | some i =>
        have hp : p < i := hlt i (mem_of_find?_eq_some hnext)
        rw [Option.map_some, Option.map_some, hskip _ (by omega)]

inductive ReplacesEvery (needle new : List α) : List α → List α → Prop
  | last (rest : List α) (none : positions needle rest = []) : ReplacesEvery needle new rest rest
  | next (before rest rest' : List α) (first : indexOf needle (before ++ needle ++ rest) = some before.length)
      (others : ReplacesEvery needle new rest rest') :
      ReplacesEvery needle new (before ++ needle ++ rest) (before ++ new ++ rest')

theorem replacesEvery_spliceMatches (hneedle : needle ≠ []) (k : ℕ) (hk : k ≤ hay.length) :
    ReplacesEvery needle new (hay.drop k)
      (spliceMatches needle hay (fun _ => new) k (leftmost (max 1 needle.length) k (positions needle hay))) := by
  have hpositive : 0 < needle.length := length_pos_iff.mpr hneedle
  rw [leftmost_eq (by omega) (positions_pairwise needle hay)]
  cases hnext : (positions needle hay).find? fun i => decide (k ≤ i) with
  | none =>
    refine .last _ (eq_nil_iff_forall_not_mem.mpr fun i hi => ?_)
    have hlate := find?_eq_none.mp hnext _ ((positions_drop hk).mp hi)
    exact hlate (decide_eq_true (Nat.le_add_right k i))
  | some i =>
    have hmem : i ∈ positions needle hay := mem_of_find?_eq_some hnext
    have hki : k ≤ i := by simpa using find?_some hnext
    have hend := position_add_length_le hmem
    have hdrop : i - k ∈ positions needle (hay.drop k) := by
      rw [positions_drop hk, Nat.add_sub_cancel' hki]
      exact hmem
    have hsplit : hay.drop k = (hay.drop k).take (i - k) ++ needle ++ hay.drop (i + needle.length) := by
      have hsplit := split_at_position hdrop
      rwa [drop_drop, ← Nat.add_assoc, Nat.add_sub_cancel' hki] at hsplit
    have hlength : ((hay.drop k).take (i - k)).length = i - k := by
      rw [length_take, length_drop]
      omega
    have hmax : max 1 needle.length = needle.length := by omega
    have hothers : ReplacesEvery needle new (hay.drop (i + needle.length))
        (spliceMatches needle hay (fun _ => new) (i + needle.length)
          (leftmost (max 1 needle.length) (i + needle.length) (positions needle hay))) :=
      replacesEvery_spliceMatches hneedle _ hend
    have hfirst : indexOf needle (hay.drop k) = some (i - k) := by
      refine indexOf_eq_some_iff.mpr ⟨hdrop, fun j hj => ?_⟩
      by_contra hlt
      have hearlier : k + j ∈ positions needle hay := (positions_drop hk).mp hj
      have hbefore := find?_eq_some_iff_append.mp hnext
      obtain ⟨-, _, _, hpositions, hnone⟩ := hbefore
      have hpairwise := positions_pairwise needle hay
      rw [hpositions] at hearlier hpairwise
      rcases mem_append.mp hearlier with hin | hin
      · have := hnone _ hin
        simp at this
      · rcases mem_cons.mp hin with _ | hafter
        · omega
        · have := (pairwise_cons.mp (pairwise_append.mp hpairwise).2.1).1 _ hafter
          omega
    rw [Option.map_some, Option.getD_some, spliceMatches, hmax]
    rw [hmax] at hothers
    have hresult := ReplacesEvery.next ((hay.drop k).take (i - k)) _ _ (by rwa [← hsplit, hlength]) hothers
    rwa [← hsplit] at hresult
termination_by hay.length - k
decreasing_by omega

end TextSearch
