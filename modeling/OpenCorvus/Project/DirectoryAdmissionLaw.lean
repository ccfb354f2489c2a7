import Mathlib.Data.List.Pairwise
import OpenCorvus.Foundation.ExecutableSystem
import OpenCorvus.Project.DirectoryAdmission

/-!
# Admissions that do not overlap

A row whose owner lives is removed by its own settlement only, and a token that has lost its row never passes again.
The rows stay disjoint exactly as long as no acquisition that discards a dead registration overlaps another row: the
transaction looks at one overlapping row, and a directory overlaps the rows of all its children.
-/

namespace OpenCorvus.Project

open Transaction ExecutableSystem List Option

variable {rows rows' : List ProjectDirectoryAdmission} {s s' : AdmissionWorld} {action : AdmissionAction}
  {acquisition : Acquisition} {row current other : ProjectDirectoryAdmission} {token : Token}

lemma Overlaps.symm {left right : DirectoryKey} (h : Overlaps left right) : Overlaps right left := Or.symm h

def Disjoint (rows : List ProjectDirectoryAdmission) : Prop :=
  rows.Pairwise fun left right => ¬Overlaps left.directoryKey right.directoryKey

instance (rows : List ProjectDirectoryAdmission) : Decidable (Disjoint rows) :=
  inferInstanceAs (Decidable (List.Pairwise _ _))

lemma Disjoint.eq_of_overlaps (h : Disjoint rows) (hrow : row ∈ rows) (hother : other ∈ rows)
    (hoverlaps : Overlaps row.directoryKey other.directoryKey) : row = other := by
  by_contra hne
  have hsymm : Std.Symm fun left right : ProjectDirectoryAdmission =>
      ¬Overlaps left.directoryKey right.directoryKey := ⟨fun _ _ hnot hoverlaps => hnot hoverlaps.symm⟩
  exact h.forall hrow hother hne hoverlaps

lemma disjoint_concat : Disjoint (rows ++ [row]) ↔
    Disjoint rows ∧ ∀ other ∈ rows, ¬Overlaps other.directoryKey row.directoryKey := by
  unfold Disjoint
  rw [pairwise_append]
  simp

lemma assertOwned_eq_ok : assertOwned rows token = .ok () ↔
    ∃ row ∈ rows.find? (fun row => token.Selects row), row.kind = token.kind ∧ row.owner = token.owner := by
  unfold assertOwned
  rw [throwWhen_eq_ok]
  simp only [not_forall, not_or, not_not, exists_prop]

/-- What a settlement leaves. -/
lemma settleMany_eq_ok {tokens : List Token} {mutation : Except AdmissionError Unit}
    (h : settleMany rows tokens mutation = .ok rows') :
    rows' = rows.filter fun row => ∀ token ∈ tokens, ¬token.Selects row := by
  replace h := of_check h
  replace h := of_check h
  exact (pure_eq_ok.mp h).symm

lemma insertAdmission_eq_ok : insertAdmission rows row = .ok rows' ↔
    (∀ other ∈ rows, other.directoryKey ≠ row.directoryKey) ∧
      (∀ other ∈ rows, other.generation ≠ row.generation) ∧ rows' = rows ++ [row] := by
  unfold insertAdmission
  rw [throwWhen_bind_eq_ok, throwWhen_bind_eq_ok, pure_eq_ok]
  simp only [not_exists, not_and, eq_comm (a := rows')]

/-- The acquisition discards a row that it found: nobody owns the directory in the registry, and the row is not
its own. -/
def Replaces (acquisition : Acquisition) (hasOwner : Bool) (current : ProjectDirectoryAdmission) : Prop :=
  hasOwner = false ∧ ¬acquisition.IsOwn current ∧ acquisition.MayReplace current

instance (acquisition : Acquisition) (hasOwner : Bool) (current : ProjectDirectoryAdmission) :
    Decidable (Replaces acquisition hasOwner current) := inferInstanceAs (Decidable (_ ∧ _))

inductive AcquireEffect (rows : List ProjectDirectoryAdmission) (acquisition : Acquisition) (hasOwner : Bool)
    (generation : String) (timeCreated : ℤ) :
    Option ProjectDirectoryAdmission → List ProjectDirectoryAdmission → Prop
  | same (current : Option ProjectDirectoryAdmission) : (∀ row ∈ current, Replaces acquisition hasOwner row →
        insertAdmission (without rows row) (acquisition.row generation timeCreated) ≠
          .ok (without rows row ++ [acquisition.row generation timeCreated])) →
      AcquireEffect rows acquisition hasOwner generation timeCreated current rows
  | inserted : AcquireEffect rows acquisition hasOwner generation timeCreated none
      (rows ++ [acquisition.row generation timeCreated])
  | replaced (current : ProjectDirectoryAdmission) : Replaces acquisition hasOwner current →
      AcquireEffect rows acquisition hasOwner generation timeCreated (some current)
        (without rows current ++ [acquisition.row generation timeCreated])

lemma publish_eq_ok {generation : String} {timeCreated : ℤ}
    {answer : AcquireOutcome × List ProjectDirectoryAdmission}
    (h : acquisition.publish rows generation timeCreated = .ok answer) :
    answer.2 = rows ++ [acquisition.row generation timeCreated] := by
  obtain ⟨inserted, hinsert, h⟩ := bind_eq_ok.mp h
  rw [pure_eq_ok] at h
  rw [← h]
  exact (insertAdmission_eq_ok.mp hinsert).2.2

lemma acquireEffect (rows : List ProjectDirectoryAdmission) (acquisition : Acquisition) (hasOwner : Bool)
    (current : Option ProjectDirectoryAdmission) (generation : String) (timeCreated : ℤ) :
    AcquireEffect rows acquisition hasOwner generation timeCreated current
      (rowsAfter rows (acquire rows acquisition hasOwner current generation timeCreated)) := by
  unfold acquire
  split_ifs with hhasOwner
  · refine .same current fun row _ hreplaces => ?_
    rw [hhasOwner] at hreplaces
    cases hreplaces.1
  · cases current with
    | none =>
      dsimp only
      cases hpublish : acquisition.publish rows generation timeCreated with
      | error => exact .same none fun _ h => (nomatch h)
      | ok =>
        have hrows := publish_eq_ok hpublish
        unfold rowsAfter
        dsimp only
        rw [hrows]
        exact .inserted
    | some current =>
      dsimp only
      by_cases hown : acquisition.IsOwn current
      · rw [if_pos hown]
        refine .same (some current) fun row hrow hreplaces => ?_
        rw [← some.inj hrow] at hreplaces
        exact absurd hown hreplaces.2.1
      · rw [if_neg hown]
        by_cases hmay : acquisition.MayReplace current
        · rw [if_pos hmay]
          cases hpublish : acquisition.publish (without rows current) generation timeCreated with
          | error =>
            refine .same (some current) fun row hrow _ hinsert => ?_
            rw [← some.inj hrow] at hinsert
            unfold Acquisition.publish at hpublish
            dsimp only at hpublish
            rw [hinsert] at hpublish
            cases hpublish
          | ok =>
            have hrows := publish_eq_ok hpublish
            unfold rowsAfter
            dsimp only
            rw [hrows]
            exact .replaced current ⟨by simpa using hhasOwner, hown, hmay⟩
        · rw [if_neg hmay]
          refine .same (some current) fun row hrow hreplaces => ?_
          rw [← some.inj hrow] at hreplaces
          exact absurd hreplaces.2.2 hmay

structure AdmissionInv (s : AdmissionWorld) : Prop where
  /-- A generation is that of one row. -/
  unique : ∀ row ∈ s.rows, ∀ other ∈ s.rows, row.generation = other.generation → row = other
  made : ∀ row ∈ s.rows, row.generation ∈ s.generations
  /-- What an acquisition has seen is still there as it was, or gone for good. -/
  observed : ∀ acquisition ∈ s.pending, ∀ seen ∈ acquisition.observed, seen.generation ∈ s.generations ∧
      (∀ row ∈ s.rows, row.generation = seen.generation → row = seen) ∧
      (acquisition.ownerObservation = some .deadOrReused → seen.owner ∈ s.ended)

lemma admissionInv_empty : AdmissionInv .empty where
  unique := fun _ h => (nomatch h)
  made := fun _ h => (nomatch h)
  observed := fun _ h => (nomatch h)

inductive RowEffect (s : AdmissionWorld) : AdmissionAction → List ProjectDirectoryAdmission → Prop
  | observe (owner : RuntimeProcessOccurrenceInfo) (input : AcquireInput)
      (found : Option ProjectDirectoryAdmission) (observation : RuntimeProcessOccurrenceObservation) :
      RowEffect s (.observe owner input found observation) s.rows
  | finish (owner : RuntimeProcessOccurrenceInfo) : RowEffect s (.finish owner) s.rows
  | settle (tokens : List Token) (mutation : Except AdmissionError Unit) :
      RowEffect s (.settleMany tokens mutation) (s.rows.filter fun row => ∀ token ∈ tokens, ¬token.Selects row)
  | notSettled (tokens : List Token) (mutation : Except AdmissionError Unit) :
      RowEffect s (.settleMany tokens mutation) s.rows
  | acquire (acquisition : Acquisition) (hasOwner : Bool) (current : Option ProjectDirectoryAdmission)
      (generation : String) (timeCreated : ℤ) (rows : List ProjectDirectoryAdmission) :
      acquisition ∈ s.pending → Finds s.rows acquisition.input.directoryKey current →
      generation ∉ s.generations →
      AcquireEffect s.rows acquisition hasOwner generation timeCreated current rows →
      RowEffect s (.acquire acquisition hasOwner current generation timeCreated) rows

structure WorldEffect (s s' : AdmissionWorld) (action : AdmissionAction) : Prop where
  rows : RowEffect s action s'.rows
  ended : s.ended ⊆ s'.ended
  generations : s.generations ⊆ s'.generations
  made : ∀ row ∈ s'.rows, row ∈ s.rows ∨ row.generation ∉ s.generations ∧ row.generation ∈ s'.generations
  pending : ∀ acquisition ∈ s'.pending, acquisition ∈ s.pending ∨ ∀ seen ∈ acquisition.observed,
    seen ∈ s.rows ∧ (acquisition.ownerObservation = some .deadOrReused → seen.owner ∈ s.ended)

lemma AcquireEffect.mem {hasOwner : Bool} {generation : String} {timeCreated : ℤ}
    {found : Option ProjectDirectoryAdmission}
    (h : AcquireEffect rows acquisition hasOwner generation timeCreated found rows') (hrow : row ∈ rows') :
    row ∈ rows ∨ row = acquisition.row generation timeCreated := by
  cases h with
  | same => exact Or.inl hrow
  | inserted =>
    rcases mem_concat.mp hrow with hold | hnew
    · exact Or.inl hold
    · exact Or.inr hnew
  | replaced =>
    rcases mem_concat.mp hrow with hold | hnew
    · exact Or.inl (mem_of_mem_filter hold)
    · exact Or.inr hnew

theorem worldEffect_of_step (hstep : admissionStep s action = some s') : WorldEffect s s' action := by
  cases action with unfold admissionStep at hstep
  | observe owner input found observation =>
    rw [ite_none_right_eq_some] at hstep
    obtain ⟨⟨-, -, hfinds, hsound⟩, hs'⟩ := hstep
    rw [← some.inj hs']
    refine ⟨.observe _ _ _ _, Subset.refl _, Subset.refl _, fun _ h => Or.inl h, ?_⟩
    intro acquisition hacquisition
    rcases mem_concat.mp hacquisition with hold | hnew
    · exact Or.inl hold
    · right
      rw [hnew]
      intro seen hseen
      obtain rfl : found = some seen := hseen
      refine ⟨hfinds.1, fun hdead => ?_⟩
      unfold AcquireInput.observe at hdead
      obtain ⟨_, -, hdead⟩ := map_eq_some_iff.mp hdead
      exact hsound hdead seen rfl
  | acquire acquisition hasOwner current generation timeCreated =>
    rw [ite_none_right_eq_some] at hstep
    obtain ⟨⟨hpending, -, hfinds, hfresh⟩, hs'⟩ := hstep
    have heffect := acquireEffect s.rows acquisition hasOwner current generation timeCreated
    rw [← some.inj hs']
    refine ⟨.acquire _ _ _ _ _ _ hpending hfinds hfresh heffect, Subset.refl _,
      subset_cons_of_subset _ (Subset.refl _), ?_, fun _ h => Or.inl (mem_of_mem_erase h)⟩
    intro row hrow
    rcases heffect.mem hrow with hold | rfl
    · exact Or.inl hold
    · exact Or.inr ⟨hfresh, mem_cons_self⟩
  | settleMany tokens mutation =>
    rw [← some.inj hstep]
    cases hsettle : settleMany s.rows tokens mutation with
    | error =>
      exact ⟨.notSettled _ _, Subset.refl _, Subset.refl _, fun _ h => Or.inl h, fun _ h => Or.inl h⟩
    | ok =>
      obtain rfl := settleMany_eq_ok hsettle
      exact ⟨.settle _ _, Subset.refl _, Subset.refl _, fun _ h => Or.inl (mem_of_mem_filter h),
        fun _ h => Or.inl h⟩
  | finish owner =>
    rw [← some.inj hstep]
    exact ⟨.finish _, subset_cons_of_subset _ (Subset.refl _), Subset.refl _,
      fun _ h => Or.inl h, fun _ h => Or.inl h⟩

lemma WorldEffect.eq_or_eq (h : WorldEffect s s' action) (hrow : row ∈ s'.rows) (hother : other ∈ s'.rows)
    (hrow' : row ∉ s.rows) (hother' : other ∉ s.rows) : row = other := by
  have heffect := h.rows
  generalize s'.rows = rows' at heffect hrow hother
  cases heffect with
  | observe | finish | notSettled => exact absurd hrow hrow'
  | settle => exact absurd (mem_of_mem_filter hrow) hrow'
  | acquire _ _ _ _ _ _ _ _ _ heffect =>
    rcases heffect.mem hrow with hold | rfl
    · exact absurd hold hrow'
    · rcases heffect.mem hother with hold | rfl
      · exact absurd hold hother'
      · rfl

theorem admissionInv_preserved : Preserves admissionStep AdmissionInv := by
  intro s action s' h hstep
  have heffect := worldEffect_of_step hstep
  constructor
  · intro row hrow other hother hsame
    rcases heffect.made row hrow with hold | ⟨hfresh, -⟩ <;>
      rcases heffect.made other hother with hold' | ⟨hfresh', -⟩
    · exact h.unique row hold other hold' hsame
    · exact absurd (hsame ▸ h.made row hold) hfresh'
    · exact absurd (hsame ▸ h.made other hold') hfresh
    · exact heffect.eq_or_eq hrow hother (fun hold => hfresh (h.made row hold))
        fun hold => hfresh' (h.made other hold)
  · intro row hrow
    rcases heffect.made row hrow with hold | ⟨-, hmade⟩
    · exact heffect.generations (h.made row hold)
    · exact hmade
  · intro acquisition hacquisition seen hseen
    have hseen' : seen.generation ∈ s.generations ∧
        (∀ row ∈ s.rows, row.generation = seen.generation → row = seen) ∧
        (acquisition.ownerObservation = some .deadOrReused → seen.owner ∈ s.ended) := by
      rcases heffect.pending acquisition hacquisition with hold | hnew
      · exact h.observed acquisition hold seen hseen
      · obtain ⟨hmem, hdead⟩ := hnew seen hseen
        exact ⟨h.made seen hmem, fun row hrow hsame => h.unique row hrow seen hmem hsame, hdead⟩
    obtain ⟨hmade, hsame, hdead⟩ := hseen'
    refine ⟨heffect.generations hmade, fun row hrow hgeneration => ?_, fun hdead' => heffect.ended (hdead hdead')⟩
    rcases heffect.made row hrow with hold | ⟨hfresh, -⟩
    · exact hsame row hold hgeneration
    · exact absurd (hgeneration ▸ hmade) hfresh

def DiscardsAlone (s : AdmissionWorld) : AdmissionAction → Prop
  | .acquire acquisition hasOwner (some current) _ _ => Replaces acquisition hasOwner current →
    ∀ other ∈ s.rows, Overlaps other.directoryKey acquisition.input.directoryKey → other = current
  | _ => True

instance (s : AdmissionWorld) (action : AdmissionAction) : Decidable (DiscardsAlone s action) := by
  unfold DiscardsAlone
  split <;> infer_instance

lemma mem_without (h : AdmissionInv s) (hcurrent : current ∈ s.rows) :
    other ∈ without s.rows current ↔ other ∈ s.rows ∧ other ≠ current := by
  unfold without
  rw [mem_filter, decide_eq_true_eq]
  refine and_congr_right fun hother => ⟨fun hnot heq => hnot (by rw [heq]; exact ⟨rfl, rfl⟩), fun hne hboth => ?_⟩
  exact hne (h.unique other hother current hcurrent hboth.2)

theorem disjoint_step_iff (h : AdmissionInv s) (hdisjoint : Disjoint s.rows)
    (hstep : admissionStep s action = some s') : Disjoint s'.rows ↔ DiscardsAlone s action := by
  have hrows := (worldEffect_of_step hstep).rows
  generalize s'.rows = rows' at hrows
  cases hrows with
  | observe | finish | notSettled => exact ⟨fun _ => trivial, fun _ => hdisjoint⟩
  | settle => exact ⟨fun _ => trivial, fun _ => Pairwise.filter _ hdisjoint⟩
  | acquire _ _ found generation _ _ _ hfinds hfresh heffect =>
    have hnew : ∀ other ∈ s.rows, other.generation ≠ generation :=
      fun other hother hsame => hfresh (hsame ▸ h.made other hother)
    cases heffect with
    | same _ hrefused =>
      refine ⟨fun _ => ?_, fun _ => hdisjoint⟩
      cases found with
      | none => trivial
      | some current =>
        intro hreplaces
        refine absurd (insertAdmission_eq_ok.mpr ⟨?_, ?_, rfl⟩) (hrefused current rfl hreplaces)
        · -- A row under the requested key would overlap the one that was found.
          intro other hother hkey
          obtain ⟨hmem, hne⟩ := (mem_without h hfinds.1).mp hother
          refine hne (hdisjoint.eq_of_overlaps hmem hfinds.1 ?_)
          rw [hkey]
          exact hfinds.2.symm
        · exact fun other hother => hnew other ((mem_without h hfinds.1).mp hother).1
    | inserted =>
      refine ⟨fun _ => trivial, fun _ => ?_⟩
      exact disjoint_concat.mpr ⟨hdisjoint, hfinds⟩
    | replaced _ hreplaces =>
      rw [disjoint_concat]
      constructor
      · rintro ⟨-, hnone⟩ - other hother hoverlaps
        by_contra hne
        exact hnone other ((mem_without h hfinds.1).mpr ⟨hother, hne⟩) hoverlaps
      · intro hall
        refine ⟨Pairwise.filter _ hdisjoint, fun other hother hoverlaps => ?_⟩
        obtain ⟨hmem, hne⟩ := (mem_without h hfinds.1).mp hother
        exact hne (hall hreplaces other hmem hoverlaps)

def SettledBy (row : ProjectDirectoryAdmission) (action : AdmissionAction) : Prop :=
  ∃ tokens mutation, action = .settleMany tokens mutation ∧ ∃ token ∈ tokens, token.Selects row

theorem settledBy_of_removed (h : AdmissionInv s) (hstep : admissionStep s action = some s') (hrow : row ∈ s.rows)
    (hremoved : row ∉ s'.rows) (hlive : row.owner ∉ s.ended) : SettledBy row action := by
  have hrows := (worldEffect_of_step hstep).rows
  generalize s'.rows = rows' at hrows hremoved
  cases hrows with
  | observe | finish | notSettled => exact absurd hrow hremoved
  | settle tokens mutation =>
    have hselected : ∃ token ∈ tokens, token.Selects row := by
      by_contra hnone
      simp only [not_exists, not_and] at hnone
      exact hremoved (mem_filter.mpr ⟨hrow, decide_eq_true hnone⟩)
    exact ⟨tokens, mutation, rfl, hselected⟩
  | acquire acquisition _ _ _ _ _ hpending hfinds _ heffect =>
    cases heffect with
    | same => exact absurd hrow hremoved
    | inserted => exact absurd (mem_append_left _ hrow) hremoved
    | replaced current hreplaces =>
      exfalso
      have hgone : row = current := by
        by_contra hne
        exact hremoved (mem_append_left _ ((mem_without h hfinds.1).mpr ⟨hrow, hne⟩))
      -- The row that is replaced is the one that was seen with a dead owner.
      obtain ⟨hseen, hdead⟩ : acquisition.observed.map ProjectDirectoryAdmission.generation =
          some current.generation ∧ acquisition.ownerObservation = some .deadOrReused := by
        obtain ⟨-, -, hseen, hrecovers | hdiscards⟩ := hreplaces
        · exact ⟨hseen, hrecovers.2⟩
        · exact ⟨hseen, hdiscards.2⟩
      obtain ⟨seen, hobserved, hgeneration⟩ := map_eq_some_iff.mp hseen
      obtain ⟨-, hsame, hended⟩ := h.observed acquisition hpending seen hobserved
      have hcurrent : current = seen := hsame current hfinds.1 hgeneration.symm
      rw [hgone, hcurrent] at hlive
      exact hlive (hended hdead)

variable {actions : List AdmissionAction}

lemma mem_of_made (hrun : exec admissionStep s actions = some s') (hrow : row ∈ s'.rows)
    (hmade : row.generation ∈ s.generations) : row ∈ s.rows := by
  induction actions generalizing s with
  | nil =>
    rw [exec_nil, some.injEq] at hrun
    rwa [hrun]
  | cons _ _ ih =>
    obtain ⟨t, hstep, hrest⟩ := (exec_cons_eq_some admissionStep).mp hrun
    have heffect := worldEffect_of_step hstep
    rcases heffect.made row (ih hrest (heffect.generations hmade)) with hold | ⟨hfresh, -⟩
    · exact hold
    · exact absurd hmade hfresh

lemma generations_subset (hrun : exec admissionStep s actions = some s') : s.generations ⊆ s'.generations := by
  induction actions generalizing s with
  | nil =>
    rw [exec_nil, some.injEq] at hrun
    rw [hrun]
    exact Subset.refl _
  | cons _ _ ih =>
    obtain ⟨t, hstep, hrest⟩ := (exec_cons_eq_some admissionStep).mp hrun
    exact Subset.trans (worldEffect_of_step hstep).generations (ih hrest)

lemma assertOwned_iff (h : AdmissionInv s) : assertOwned s.rows token = .ok () ↔
    ∃ row ∈ s.rows, token.Selects row ∧ row.kind = token.kind ∧ row.owner = token.owner := by
  rw [assertOwned_eq_ok]
  constructor
  · rintro ⟨row, hfound, hkind, howner⟩
    exact ⟨row, mem_of_find?_eq_some hfound, of_decide_eq_true (find?_some (p := fun row => decide (token.Selects row)) hfound), hkind, howner⟩
  · rintro ⟨row, hrow, hselects, hkind, howner⟩
    obtain ⟨found, hfound⟩ : ∃ found, s.rows.find? (fun row => token.Selects row) = some found :=
      isSome_iff_exists.mp (find?_isSome.mpr ⟨row, hrow, decide_eq_true hselects⟩)
    have hselects' : token.Selects found :=
      of_decide_eq_true (find?_some (p := fun row => decide (token.Selects row)) hfound)
    obtain rfl : found = row := h.unique found (mem_of_find?_eq_some hfound) row hrow
      (hselects'.2.1.trans hselects.2.1.symm)
    exact ⟨found, hfound, hkind, howner⟩

theorem not_assertOwned_of_lost {t u : AdmissionWorld} {middle after : List AdmissionAction} (h : AdmissionInv s)
    (hmiddle : exec admissionStep s middle = some t) (hafter : exec admissionStep t after = some u)
    (howned : assertOwned s.rows token = .ok ()) (hlost : assertOwned t.rows token ≠ .ok ()) :
    assertOwned u.rows token ≠ .ok () := by
  have ht : AdmissionInv t := admissionInv_preserved.exec h hmiddle
  have hu : AdmissionInv u := admissionInv_preserved.exec ht hafter
  intro hagain
  obtain ⟨row, hrow, hselects, -⟩ := (assertOwned_iff h).mp howned
  obtain ⟨row', hrow', hselects', hrest⟩ := (assertOwned_iff hu).mp hagain
  have hmade : row'.generation ∈ t.generations := by
    rw [hselects'.2.1, ← hselects.2.1]
    exact generations_subset hmiddle (h.made row hrow)
  exact hlost ((assertOwned_iff ht).mpr ⟨row', mem_of_made hafter hrow' hmade, hselects', hrest⟩)

structure AdmissionLaw (actions : List AdmissionAction) : Prop where
  disjoint : Within admissionStep (fun s action => ∀ s' ∈ admissionStep s action, Disjoint s'.rows) .empty actions
  settled : Within admissionStep (fun s action => ∀ s', admissionStep s action = some s' →
    ∀ row ∈ s.rows, row ∉ s'.rows → row.owner ∉ s.ended → SettledBy row action) .empty actions
  fenced : ∀ before middle after s t u, actions = before ++ middle ++ after →
    exec admissionStep .empty before = some s → exec admissionStep s middle = some t →
    exec admissionStep t after = some u → ∀ token, assertOwned s.rows token = .ok () →
    assertOwned t.rows token ≠ .ok () → assertOwned u.rows token ≠ .ok ()

lemma within_disjoint_iff (h : AdmissionInv s) (hdisjoint : Disjoint s.rows)
    (hrun : exec admissionStep s actions = some s') :
    Within admissionStep (fun s action => ∀ s' ∈ admissionStep s action, Disjoint s'.rows) s actions ↔
      Within admissionStep DiscardsAlone s actions := by
  induction actions generalizing s with
  | nil => exact Iff.rfl
  | cons action _ ih =>
    obtain ⟨t, hstep, hrest⟩ := (exec_cons_eq_some admissionStep).mp hrun
    have hkept : (∀ s' ∈ admissionStep s action, Disjoint s'.rows) ↔ DiscardsAlone s action := by
      rw [← disjoint_step_iff h hdisjoint hstep]
      exact ⟨fun hall => hall t hstep, fun ht s' hs' => some.inj (hstep.symm.trans hs') ▸ ht⟩
    unfold Within
    rw [hkept]
    refine and_congr_right fun halone => forall_congr' fun next => forall_congr' fun hnext => ?_
    obtain rfl : t = next := some.inj (hstep.symm.trans hnext)
    exact ih (admissionInv_preserved h hstep) ((disjoint_step_iff h hdisjoint hstep).mpr halone) hrest

/-- A run keeps its promises exactly when every acquisition that discards a row overlaps no other row. -/
theorem admissionLaw_iff {actions : List AdmissionAction} (hrun : exec admissionStep .empty actions = some s) :
    AdmissionLaw actions ↔ Within admissionStep DiscardsAlone .empty actions := by
  constructor
  · intro h
    exact (within_disjoint_iff admissionInv_empty List.Pairwise.nil hrun).mp h.disjoint
  · intro h
    refine ⟨(within_disjoint_iff admissionInv_empty List.Pairwise.nil hrun).mpr h, ?_, ?_⟩
    · have htrue : Within admissionStep (fun _ _ => True) .empty actions := by
        have hkept : ∀ ⦃s action s'⦄, True → DiscardsAlone s action → admissionStep s action = some s' → True :=
          fun _ _ _ _ _ _ => trivial
        exact Within.of_invariant hkept (fun _ _ _ _ => trivial) trivial h
      have hkept : ∀ ⦃s action s'⦄, AdmissionInv s → True → admissionStep s action = some s' → AdmissionInv s' :=
        fun _ _ _ hs _ hstep => admissionInv_preserved hs hstep
      refine Within.of_invariant hkept (fun s action hs _ s' hstep row hrow hremoved hlive => ?_)
        admissionInv_empty htrue
      exact settledBy_of_removed hs hstep hrow hremoved hlive
    · intro before middle after s t u _ hbefore hmiddle hafter token howned hlost
      exact not_assertOwned_of_lost (admissionInv_preserved.exec admissionInv_empty hbefore) hmiddle hafter
        howned hlost

/-- Three processes. -/
def processNumber (pid : ℕ) : RuntimeProcessOccurrenceInfo := ⟨pid, "linux:" ++ toString pid, "occurrence"⟩

def registrationOf (directory operationID : String) (directoryKey : DirectoryKey) : AcquireInput :=
  ⟨directory, directoryKey, operationID, .registration, none, none⟩

/-- The acquisition of a directory that no row overlaps. -/
def firstAcquisition (pid : ℕ) (input : AcquireInput) : Acquisition :=
  input.observe (processNumber pid) none .exactLive

def firstChildRow : ProjectDirectoryAdmission :=
  (firstAcquisition 1 (registrationOf "/work/first" "operation_1" ["work", "first"])).row "generation_1" 1

def discardedBy (directory : String) (directoryKey : DirectoryKey) : List AdmissionAction := [
  .observe (processNumber 3) (registrationOf directory "operation_3" directoryKey) (some firstChildRow)
    .deadOrReused,
  .acquire ((registrationOf directory "operation_3" directoryKey).observe (processNumber 3) (some firstChildRow)
    .deadOrReused) false (some firstChildRow) "generation_3" 3]

/-- Two children of a directory are admitted, and the first one is abandoned. -/
def abandonedChild : List AdmissionAction := [
  .observe (processNumber 1) (registrationOf "/work/first" "operation_1" ["work", "first"]) none .exactLive,
  .acquire (firstAcquisition 1 (registrationOf "/work/first" "operation_1" ["work", "first"])) false none
    "generation_1" 1,
  .observe (processNumber 2) (registrationOf "/work/second" "operation_2" ["work", "second"]) none .exactLive,
  .acquire (firstAcquisition 2 (registrationOf "/work/second" "operation_2" ["work", "second"])) false none
    "generation_2" 2,
  .finish (processNumber 1)]

/-- The abandoned child may be registered again. -/
theorem admissionLaw_of_child : AdmissionLaw (abandonedChild ++ discardedBy "/work/first" ["work", "first"]) := by
  obtain ⟨s, hrun⟩ := isSome_iff_exists.mp (show (exec admissionStep .empty
    (abandonedChild ++ discardedBy "/work/first" ["work", "first"])).isSome by decide)
  exact (admissionLaw_iff hrun).mpr (by decide)

/-- When the parent is registered, its row overlaps that of the child that lives. -/
theorem not_admissionLaw_of_parent :
    (exec admissionStep .empty (abandonedChild ++ discardedBy "/work" ["work"])).isSome ∧
      ¬AdmissionLaw (abandonedChild ++ discardedBy "/work" ["work"]) := by
  refine ⟨by decide, fun h => absurd h.disjoint ?_⟩
  decide

/-- Also where rows overlap, a row leaves by its settlement or after its owner, and a token that has lost its row has
lost it for good. -/
theorem admissions_fenced {actions : List AdmissionAction} (hrun : exec admissionStep .empty actions = some s) :
    (∀ action s', admissionStep s action = some s' → ∀ row ∈ s.rows, row ∉ s'.rows →
      row.owner ∈ s.ended ∨ SettledBy row action) ∧
    ∀ middle after t u, exec admissionStep s middle = some t → exec admissionStep t after = some u →
      ∀ token, assertOwned s.rows token = .ok () → assertOwned t.rows token ≠ .ok () →
        assertOwned u.rows token ≠ .ok () := by
  have h : AdmissionInv s := admissionInv_preserved.exec admissionInv_empty hrun
  refine ⟨fun action s' hstep row hrow hremoved => ?_, fun middle after t u hmiddle hafter token => ?_⟩
  · by_contra hkept
    obtain ⟨hlive, hsettled⟩ := not_or.mp hkept
    exact hsettled (settledBy_of_removed h hstep hrow hremoved hlive)
  · exact not_assertOwned_of_lost h hmiddle hafter

/-- The rows of the parent and of the child that lives overlap. -/
theorem admissions_fenced_of_parent :
    ∃ s, exec admissionStep .empty (abandonedChild ++ discardedBy "/work" ["work"]) = some s ∧
      ∀ action s', admissionStep s action = some s' → ∀ row ∈ s.rows, row ∉ s'.rows →
        row.owner ∈ s.ended ∨ SettledBy row action := by
  obtain ⟨s, hrun⟩ := isSome_iff_exists.mp (show (exec admissionStep .empty
    (abandonedChild ++ discardedBy "/work" ["work"])).isSome by decide)
  exact ⟨s, hrun, (admissions_fenced hrun).1⟩

end OpenCorvus.Project
