import OpenCorvus.Tool.EditReplace

/-!
# What an edit replaces

An edit is refused when its text is ambiguous, and it writes the new text verbatim, as far as the
tolerant matchers and the replacement patterns of the source language allow.  A text that is ambiguous
as it stands is nevertheless replaced when a tolerant matcher proposes a segment that occurs once.
-/

namespace OpenCorvus.Tool

open TextSearch Utf16 List

variable {content oldString newString search r : Units} {replaceAll : Bool} {i : ℕ}

/-- Without replacing all, a segment is replaced exactly if it occurs once. -/
lemma attempt_result_one :
    (attempt content newString false search).result = some r ↔ ∃ i, positions search content = [i] ∧
      r = content.take i ++ newString ++ content.drop (i + search.length) := by
  unfold attempt
  cases hindex : indexOf search content with
  | none =>
    rw [indexOf_eq_none_iff] at hindex
    simp [hindex, Attempt.result]
  | some index =>
    have hlast := indexOf_eq_lastIndexOf_iff hindex
    by_cases hone : lastIndexOf search content = some index
    · rw [hlast] at hone
      simp [hlast.mpr hone, hone, Attempt.result, eq_comm]
    · have hnone : ∀ i, positions search content ≠ [i] := by
        intro i hpositions
        have hindex' : indexOf search content = some i := by
          unfold indexOf
          rw [hpositions]
          rfl
        obtain rfl : index = i := Option.some.inj (hindex.symm.trans hindex')
        exact hone (hlast.mpr hpositions)
      simp [hone, hnone, Attempt.result]

lemma attempt_result_all : (attempt content newString true search).result =
      if includes search content then some (replaceAllOf content search newString) else none := by
  unfold attempt includes
  cases indexOf search content <;> rfl

lemma forever_eq_none (hne : oldString ≠ []) : ∀ yields ∈ replacers content oldString, yields.forever = none := by
  have htrimmed : (trimmedBoundaryReplacer content oldString).forever = none := by
    unfold trimmedBoundaryReplacer
    dsimp only
    split_ifs <;> rfl
  have hcontext : (contextAwareReplacer content oldString).forever = none := by
    unfold contextAwareReplacer
    dsimp only
    split_ifs <;> rfl
  have hmulti : (multiOccurrenceReplacer content oldString).forever = none := by
    unfold multiOccurrenceReplacer
    rw [if_neg hne]
    rfl
  intro yields hyields
  simp only [replacers, mem_cons, not_mem_nil, or_false] at hyields
  rcases hyields with rfl | rfl | rfl | rfl | rfl | rfl | rfl | rfl
  · rfl
  · rfl
  · rfl
  · rfl
  · rfl
  · exact htrimmed
  · exact hcontext
  · exact hmulti

lemma attemptAll_cases {matchers : List Yields} (hends : ∀ yields ∈ matchers, yields.forever = none)
    (notFound : Bool) :
    (∃ result, (matchers.flatMap Yields.segments).findSome? (fun search =>
        (attempt content newString replaceAll search).result) = some result ∧
        attemptAll content newString replaceAll notFound matchers = some (.ok result)) ∨
      ((matchers.flatMap Yields.segments).findSome? (fun search =>
        (attempt content newString replaceAll search).result) = none ∧
        ∃ message, attemptAll content newString replaceAll notFound matchers = some (.error message)) := by
  induction matchers generalizing notFound with
  | nil => exact Or.inr ⟨rfl, _, rfl⟩
  | cons yields _ ih =>
    obtain ⟨hyields, hrest⟩ := forall_mem_cons.mp hends
    rw [flatMap_cons, findSome?_append]
    unfold attemptAll
    cases hfound : yields.segments.findSome? fun search => (attempt content newString replaceAll search).result with
    | some result => exact Or.inl ⟨result, rfl, rfl⟩
    | none =>
      rw [hyields]
      exact ih hrest _

/-- The matchers of a text that is not empty are asked until a segment will do. -/
lemma replace_cases (replaceAll : Bool) (hne : oldString ≠ newString) (hnonempty : oldString ≠ []) :
    (∃ result, (candidates content oldString).findSome? (fun search =>
        (attempt content newString replaceAll search).result) = some result ∧
        replace content oldString newString replaceAll = some (.ok result)) ∨
      ((candidates content oldString).findSome? (fun search =>
        (attempt content newString replaceAll search).result) = none ∧
        ∃ message, replace content oldString newString replaceAll = some (.error message)) := by
  unfold replace
  rw [if_neg hne]
  exact attemptAll_cases (forever_eq_none hnonempty) true

/-- The text itself is tried first. -/
lemma replace_of_attempt (hne : oldString ≠ newString)
    (h : (attempt content newString replaceAll oldString).result = some r) :
    replace content oldString newString replaceAll = some (.ok r) := by
  unfold replace
  rw [if_neg hne]
  have hsimple : (simpleReplacer content oldString).segments.findSome? (fun search =>
      (attempt content newString replaceAll search).result) = some r := by
    change [oldString].findSome? _ = some r
    rw [findSome?_cons, h]
  unfold replacers attemptAll
  rw [hsimple]

lemma attemptAll_ne_error {matchers : List Yields} (hendless : ∃ yields ∈ matchers, yields.forever ≠ none)
    (notFound : Bool) (message : String) :
    attemptAll content newString replaceAll notFound matchers ≠ some (.error message) := by
  induction matchers generalizing notFound with
  | nil =>
    obtain ⟨_, hmem, -⟩ := hendless
    exact absurd hmem not_mem_nil
  | cons yields _ ih =>
    unfold attemptAll
    split
    · simp
    · dsimp only
      cases hforever : yields.forever with
      | some search => cases hresult : (attempt content newString replaceAll search).result <;> simp [hresult]
      | none =>
        obtain ⟨other, hmem, hother⟩ := hendless
        rcases mem_cons.mp hmem with rfl | hrest
        · exact absurd hforever hother
        · exact ih ⟨other, hrest, hother⟩ _

/-- The edit of the empty text is not refused. -/
lemma replace_nil_ne_error (hne : [] ≠ newString) (message : String) :
    replace content [] newString replaceAll ≠ some (.error message) := by
  unfold replace
  rw [if_neg hne]
  refine attemptAll_ne_error ⟨multiOccurrenceReplacer content [], by simp [replacers], ?_⟩ true message
  simp [multiOccurrenceReplacer]

lemma replaceAllOf_of_once (h : positions search content = [i]) : replaceAllOf content search newString =
      content.take i ++ getSubstitution search content i newString ++ content.drop (i + search.length) := by
  unfold replaceAllOf matchesOf
  rw [h]
  simp [leftmost, spliceMatches]

/-- A text that occurs more than once is refused unless all occurrences are to be replaced, and the
only occurrence of a text is replaced by the new text as it stands. -/
def RefusesAmbiguous (content oldString newString : Units) (replaceAll : Bool) : Prop :=
  (2 ≤ (positions oldString content).length → replaceAll = false →
      ∃ message, replace content oldString newString replaceAll = some (.error message)) ∧
    ∀ i, positions oldString content = [i] → replace content oldString newString replaceAll =
      some (.ok (content.take i ++ newString ++ content.drop (i + oldString.length)))

/-- When the edit is as it should be: the new text differs from a text that occurs once and stands for
itself there, and no matcher proposes a segment that occurs once for a text that occurs more than once. -/
structure Unambiguous (content oldString newString : Units) (replaceAll : Bool) : Prop where
  once : ∀ i, positions oldString content = [i] → oldString ≠ newString ∧
    (replaceAll = true → getSubstitution oldString content i newString = newString)
  several : 2 ≤ (positions oldString content).length → replaceAll = false → oldString = newString ∨
    (oldString ≠ [] ∧ ∀ search ∈ candidates content oldString, (positions search content).length ≠ 1)

/-- A text that occurs more than once is refused exactly if it is the new text, or it is not empty and
no matcher proposes a segment that occurs once. -/
lemma refused_iff (hseveral : 2 ≤ (positions oldString content).length) :
    (∃ message, replace content oldString newString false = some (.error message)) ↔ oldString = newString ∨
      (oldString ≠ [] ∧ ∀ search ∈ candidates content oldString, (positions search content).length ≠ 1) := by
  by_cases hsame : oldString = newString
  · refine ⟨fun _ => Or.inl hsame, fun _ => ⟨_, if_pos hsame⟩⟩
  rw [or_iff_right hsame]
  by_cases hempty : oldString = []
  · subst hempty
    refine ⟨fun ⟨message, hrefused⟩ => absurd hrefused (replace_nil_ne_error hsame message), fun h => absurd rfl h.1⟩
  have hnone : (candidates content oldString).findSome? (fun search =>
        (attempt content newString false search).result) = none ↔
      ∀ search ∈ candidates content oldString, (positions search content).length ≠ 1 := by
    rw [findSome?_eq_none_iff]
    refine forall₂_congr fun search _ => ?_
    rw [Ne, length_eq_one_iff, Option.eq_none_iff_forall_ne_some]
    simp only [ne_eq, attempt_result_one, not_exists, not_and]
    exact ⟨fun h i hi => h _ i hi rfl, fun h _ i hi => absurd hi (h i)⟩
  rcases replace_cases false hsame hempty with ⟨_, hfound, hreplace⟩ | ⟨hfound, hrefused⟩
  · constructor
    · rintro ⟨_, hrefused⟩
      rw [hreplace] at hrefused
      cases hrefused
    · rintro ⟨-, hcandidates⟩
      rw [hnone.mpr hcandidates] at hfound
      cases hfound
  · exact ⟨fun _ => ⟨hempty, hnone.mp hfound⟩, fun _ => hrefused⟩

lemma replaced_once_iff (hone : positions oldString content = [i]) :
    replace content oldString newString replaceAll =
        some (.ok (content.take i ++ newString ++ content.drop (i + oldString.length))) ↔
      oldString ≠ newString ∧ (replaceAll = true → getSubstitution oldString content i newString = newString) := by
  by_cases hsame : oldString = newString
  · have hrefused : replace content oldString newString replaceAll = some (.error _) := if_pos hsame
    rw [hrefused]
    simp [hsame]
  rw [and_iff_right hsame]
  cases replaceAll with
  | false =>
    rw [replace_of_attempt hsame (attempt_result_one.mpr ⟨i, hone, rfl⟩)]
    simp
  | true =>
    have hincludes : includes oldString content = true := by
      unfold includes indexOf
      rw [hone]
      rfl
    rw [replace_of_attempt hsame (attempt_result_all.trans (if_pos hincludes)), replaceAllOf_of_once hone]
    simp

/-- An ambiguous edit is refused, and an unambiguous one is made verbatim, exactly if the text is
unambiguous for the matchers too. -/
theorem refusesAmbiguous_iff_unambiguous (content oldString newString : Units) (replaceAll : Bool) :
    RefusesAmbiguous content oldString newString replaceAll ↔
      Unambiguous content oldString newString replaceAll := by
  constructor
  · rintro ⟨hrefuses, honce⟩
    refine ⟨fun i hone => (replaced_once_iff hone).mp (honce i hone), fun hseveral hall => ?_⟩
    subst hall
    exact (refused_iff hseveral).mp (hrefuses hseveral rfl)
  · rintro ⟨honce, hseveral⟩
    refine ⟨fun hlength hall => ?_, fun i hone => (replaced_once_iff hone).mpr (honce i hone)⟩
    subst hall
    exact (refused_iff hlength).mpr (hseveral hlength rfl)

/-- The word occurs on two lines, and the indented one is replaced. -/
theorem not_refusesAmbiguous_indented :
    ¬RefusesAmbiguous (ofString "foo\n  foo") (ofString "foo") (ofString "bar") false := by
  intro hlaw
  have hseveral : 2 ≤ (positions (ofString "foo") (ofString "foo\n  foo")).length := by decide
  obtain ⟨_, hrefused⟩ := hlaw.1 hseveral rfl
  have hreplace : replace (ofString "foo\n  foo") (ofString "foo") (ofString "bar") false =
      some (.ok (ofString "foo\nbar")) := by decide
  rw [hreplace] at hrefused
  cases hrefused

/-- The result has every occurrence of a segment that a matcher proposes replaced by the new text, and
a segment that occurs once is replaced in the same way when only one occurrence is to be. -/
def ReplacesVerbatim (content oldString newString r : Units) : Prop :=
  ∃ search ∈ candidates content oldString, search ≠ [] ∧ positions search content ≠ [] ∧
    ReplacesEvery search newString content r ∧
    ∀ i, positions search content = [i] → replace content oldString newString false = some (.ok r)

def StandsForItself (content oldString newString : Units) : Prop :=
  ∀ search, (candidates content oldString).find? (includes · content) = some search → search ≠ [] ∧
    ∀ i ∈ matchesOf search content, getSubstitution search content i newString = newString

lemma exists_of_replace_all (hnonempty : oldString ≠ [])
    (h : replace content oldString newString true = some (.ok r)) :
    oldString ≠ newString ∧ ∃ search, (candidates content oldString).find? (includes · content) = some search ∧
      r = replaceAllOf content search newString := by
  have hne : oldString ≠ newString := by
    intro hsame
    have hrefused : replace content oldString newString true = some (.error _) := if_pos hsame
    rw [hrefused] at h
    cases h
  refine ⟨hne, ?_⟩
  rcases replace_cases true hne hnonempty with ⟨_, hfound, hreplace⟩ | ⟨-, _, hrefused⟩
  · rw [hreplace] at h
    cases h
    simp only [attempt_result_all] at hfound
    obtain ⟨before, search, after, hsplit, hsearch, hbefore⟩ := findSome?_eq_some_iff.mp hfound
    have hincludes : includes search content = true := by
      by_contra hnone
      rw [if_neg hnone] at hsearch
      cases hsearch
    rw [if_pos hincludes] at hsearch
    refine ⟨search, ?_, (Option.some.inj hsearch).symm⟩
    rw [hsplit]
    refine find?_eq_some_iff_append.mpr ⟨hincludes, before, after, rfl, fun other hother => ?_⟩
    have hnone := hbefore other hother
    by_contra hoccurs
    have hoccurs : includes other content = true := by simpa using hoccurs
    rw [if_pos hoccurs] at hnone
    cases hnone
  · rw [hrefused] at h
    cases h

lemma replace_one_of_find (hne : oldString ≠ newString) (hnonempty : oldString ≠ [])
    (hfind : (candidates content oldString).find? (includes · content) = some search)
    (hone : positions search content = [i]) :
    replace content oldString newString false =
      some (.ok (content.take i ++ newString ++ content.drop (i + search.length))) := by
  have hfound : (candidates content oldString).findSome? (fun search =>
      (attempt content newString false search).result) =
        some (content.take i ++ newString ++ content.drop (i + search.length)) := by
    obtain ⟨-, before, after, hsplit, hbefore⟩ := find?_eq_some_iff_append.mp hfind
    rw [hsplit]
    refine findSome?_eq_some_iff.mpr ⟨before, search, after, rfl, attempt_result_one.mpr ⟨i, hone, rfl⟩,
      fun other hother => ?_⟩
    have habsent : positions other content = [] := by
      have hnone := hbefore other hother
      rw [← indexOf_eq_none_iff]
      unfold includes at hnone
      simpa using hnone
    rw [Option.eq_none_iff_forall_ne_some]
    intro result hresult
    obtain ⟨_, hj, -⟩ := attempt_result_one.mp hresult
    rw [habsent] at hj
    cases hj
  rcases replace_cases false hne hnonempty with ⟨_, hresult, hreplace⟩ | ⟨hnone, -⟩
  · rw [hfound] at hresult
    cases hresult
    exact hreplace
  · rw [hfound] at hnone
    cases hnone

/-- Replacing all occurrences writes the new text verbatim when it stands for itself. -/
theorem replacesVerbatim_of_standsForItself (hnonempty : oldString ≠ [])
    (hreplace : replace content oldString newString true = some (.ok r))
    (hself : StandsForItself content oldString newString) :
    ReplacesVerbatim content oldString newString r := by
  obtain ⟨hne, search, hfind, rfl⟩ := exists_of_replace_all hnonempty hreplace
  obtain ⟨hsearch, hverbatim⟩ := hself search hfind
  have hincludes : includes search content = true := find?_some (p := (includes · content)) hfind
  have hresult : replaceAllOf content search newString =
      spliceMatches search content (fun _ => newString) 0 (matchesOf search content) :=
    spliceMatches_congr hverbatim 0
  refine ⟨search, mem_of_find?_eq_some hfind, hsearch, ?_, ?_, fun i hone => ?_⟩
  · intro habsent
    rw [← indexOf_eq_none_iff] at habsent
    unfold includes at hincludes
    rw [habsent] at hincludes
    cases hincludes
  · rw [hresult]
    exact replacesEvery_spliceMatches hsearch 0 (Nat.zero_le _)
  · have hmem : i ∈ matchesOf search content := by
      unfold matchesOf
      rw [hone]
      simp [leftmost]
    rw [replaceAllOf_of_once hone, hverbatim i hmem]
    exact replace_one_of_find hne hnonempty hfind hone

/-- The word is replaced on both lines. -/
theorem replacesVerbatim_word : (ofString "foo" ≠ [] ∧
      replace (ofString "foo\n  foo") (ofString "foo") (ofString "bar") true = some (.ok (ofString "bar\n  bar")) ∧
      StandsForItself (ofString "foo\n  foo") (ofString "foo") (ofString "bar")) ∧
    ReplacesVerbatim (ofString "foo\n  foo") (ofString "foo") (ofString "bar") (ofString "bar\n  bar") := by
  have hnonempty : ofString "foo" ≠ [] := by decide
  have hreplace : replace (ofString "foo\n  foo") (ofString "foo") (ofString "bar") true =
      some (.ok (ofString "bar\n  bar")) := by decide
  have hself : StandsForItself (ofString "foo\n  foo") (ofString "foo") (ofString "bar") := by
    have hfind : (candidates (ofString "foo\n  foo") (ofString "foo")).find? (includes · (ofString "foo\n  foo")) =
        some (ofString "foo") := by decide
    intro search hsearch
    rw [hfind] at hsearch
    cases hsearch
    decide
  exact ⟨⟨hnonempty, hreplace, hself⟩, replacesVerbatim_of_standsForItself hnonempty hreplace hself⟩

/-- Two dollars are written as one. -/
theorem not_replacesVerbatim_dollars : ofString "cost" ≠ [] ∧
      replace (ofString "cost") (ofString "cost") (ofString "$$5") true = some (.ok (ofString "$5")) ∧
      ¬ReplacesVerbatim (ofString "cost") (ofString "cost") (ofString "$$5") (ofString "$5") := by
  refine ⟨by decide, by decide, ?_⟩
  rintro ⟨search, hsearch, -, -, -, honce⟩
  have hone : ∀ search ∈ candidates (ofString "cost") (ofString "cost"),
      positions search (ofString "cost") = [0] := by decide
  have hreplace : replace (ofString "cost") (ofString "cost") (ofString "$$5") false =
      some (.ok (ofString "$$5")) := by decide
  have hresult := honce 0 (hone search hsearch)
  rw [hreplace] at hresult
  exact absurd hresult (by decide)

end OpenCorvus.Tool
