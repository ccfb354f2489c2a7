import OpenCorvus.Foundation.UniqueIndex
import OpenCorvus.Session.PromptOwner

/-!
# Prompt ownership is exclusive

The generation of an acquisition is minted once, so it identifies the row of the acquisition for ever.
From this and from the soundness of observations it follows that a row leaves the table only by a step
of its own process or after its process has ended, whatever the other processes do in between.
-/

namespace OpenCorvus.Session

open Engine Transaction ExecutableSystem UniqueIndex List Option

variable {db db' : PromptDatabase} {row authority : PromptAuthority} {host : PromptHost}
  {world : PromptWorld} {process : RuntimeProcessOccurrenceInfo}

lemma mem_of_currentInTransaction {sessionID : String} (h : currentInTransaction db sessionID = some row) :
    row ∈ db.owners ∧ row.sessionID = sessionID := by
  have hfound := find?_some h
  exact ⟨mem_of_find?_eq_some h, by simpa using hfound⟩

lemma sameAuthority_some {left right : PromptAuthority}
    (h : sameAuthority (some left) (some right) = true) :
    left.sessionID = right.sessionID ∧ left.generation = right.generation ∧ left.owner = right.owner := by
  simpa [sameAuthority] using h

/-- What a deletion leaves. -/
lemma mem_deleteAuthority {sessionID generation : String} :
    row ∈ (deleteAuthority db sessionID generation).owners ↔
      row ∈ db.owners ∧ ¬(row.sessionID = sessionID ∧ row.generation = generation) := by
  unfold deleteAuthority
  rw [mem_filter, decide_eq_true_eq]

lemma insertAuthority_eq_ok (h : insertAuthority db authority = .ok db') :
    (∀ row ∈ db.owners, row.sessionID ≠ authority.sessionID) ∧
      db' = { db with owners := db.owners ++ [authority] } := by
  unfold insertAuthority at h
  obtain ⟨hfree, h⟩ := throwWhen_bind_eq_ok.mp h
  rw [pure_eq_ok] at h
  exact ⟨fun row hrow heq => hfree ⟨row, hrow, heq⟩, h.symm⟩

theorem acquireInTransaction_spec {owner : RuntimeProcessOccurrenceInfo} {input : AcquirePromptInput}
    {priorObservation : Option ObservedAuthority} {generation : String} {now : ℤ}
    {admission : PromptAdmission}
    (h : acquireInTransaction host db owner input priorObservation generation now = .ok (db', admission)) :
    (db' = db ∧ ∀ authority, admission ≠ .acquired authority) ∨
      ∃ base, admission = .acquired (input.authority host owner generation now) ∧
        (∀ row ∈ base.owners, row.sessionID ≠ input.sessionID) ∧
        db' = { base with owners := base.owners ++ [input.authority host owner generation now] } ∧
        (base = db ∨ ∃ row observed, currentInTransaction db input.sessionID = some row ∧
          priorObservation = some observed ∧ sameAuthority (some row) (some observed.authority) = true ∧
          (row.owner = owner ∨ observed.observation = .deadOrReused) ∧
          base = deleteAuthority db row.sessionID row.generation) := by
  unfold acquireInTransaction at h
  dsimp only at h
  split_ifs at h with hsame
  · obtain ⟨session, -, h⟩ := bind_eq_ok.mp h
    replace h := of_throwWhen h
    replace h := of_check h
    replace h := of_check h
    replace h := of_check h
    match hrow : currentInTransaction db input.sessionID, hprior : priorObservation with
    | some row, some observed =>
      simp only [hrow] at h hsame
      split_ifs at h with hlive
      · rw [pure_eq_ok, Prod.mk.injEq] at h
        obtain ⟨rfl, rfl⟩ := h
        exact Or.inl ⟨rfl, fun _ heq => nomatch heq⟩
      · obtain ⟨inserted, hinserted, h⟩ := bind_eq_ok.mp h
        rw [pure_eq_ok, Prod.mk.injEq] at h
        obtain ⟨rfl, rfl⟩ := h
        obtain ⟨hfree, hdb⟩ := insertAuthority_eq_ok hinserted
        refine Or.inr ⟨_, rfl, hfree, hdb, Or.inr ⟨row, observed, rfl, rfl, hsame, ?_, rfl⟩⟩
        by_contra hneither
        rw [not_or] at hneither
        exact hlive hneither
    | none, _ =>
      simp only [hrow] at h
      obtain ⟨inserted, hinserted, h⟩ := bind_eq_ok.mp h
      rw [pure_eq_ok, Prod.mk.injEq] at h
      obtain ⟨rfl, rfl⟩ := h
      obtain ⟨hfree, hdb⟩ := insertAuthority_eq_ok hinserted
      exact Or.inr ⟨db, rfl, hfree, hdb, Or.inl rfl⟩
    | some row, none =>
      rw [hrow] at hsame
      cases hsame
  · rw [pure_eq_ok, Prod.mk.injEq] at h
    obtain ⟨rfl, rfl⟩ := h
    exact Or.inl ⟨rfl, fun _ heq => nomatch heq⟩

lemma release_cases (db : PromptDatabase) (authority : PromptAuthority) : (release db authority).1 = db ∨
      (release db authority).1 = deleteAuthority db authority.sessionID authority.generation := by
  unfold release
  split
  · exact Or.inl rfl
  · split_ifs
    · exact Or.inl rfl
    · exact Or.inr rfl

variable {observed : ObservedAuthority}

lemma releaseDeadInTransaction_eq_ok {removed : PromptAuthority}
    (h : releaseDeadInTransaction db observed = .ok (db', removed)) : observed.observation = .deadOrReused ∧
      currentInTransaction db observed.authority.sessionID = some removed ∧
      sameAuthority (some removed) (some observed.authority) = true ∧
      db' = deleteAuthority db removed.sessionID removed.generation := by
  unfold releaseDeadInTransaction at h
  obtain ⟨hdead, h⟩ := throwWhen_bind_eq_ok.mp h
  obtain ⟨current, hcurrent, h⟩ := bind_eq_ok.mp h
  rw [getOrThrow_eq_ok] at hcurrent
  obtain ⟨hsame, h⟩ := throwWhen_bind_eq_ok.mp h
  rw [pure_eq_ok, Prod.mk.injEq] at h
  obtain ⟨rfl, rfl⟩ := h
  exact ⟨not_not.mp hdead, hcurrent, not_not.mp hsame, rfl⟩

/-- The rows and the memories of the processes are sound. -/
structure PromptInv (world : PromptWorld) : Prop where
  /-- One row per Session. -/
  unique : PrimaryKey PromptAuthority.sessionID world.db.owners
  /-- Every row was acquired by its owner. -/
  issued : ∀ row ∈ world.db.owners, (row.owner, row) ∈ world.acquired
  /-- An acquisition names its process. -/
  named : ∀ held ∈ world.acquired, held.2.owner = held.1
  /-- A generation belongs to one acquisition. -/
  minted : ∀ held ∈ world.acquired, ∀ held' ∈ world.acquired, held.2.generation = held'.2.generation → held = held'
  /-- What was read was acquired. -/
  read : ∀ known ∈ world.reads, (known.2.owner, known.2) ∈ world.acquired
  /-- What was observed was acquired, and is dead if so observed. -/
  observed : ∀ known ∈ world.observations, (known.2.authority.owner, known.2.authority) ∈ world.acquired ∧
      (known.2.observation = .deadOrReused → known.2.authority.owner ∈ world.ended)

lemma promptInv_initial (surroundings : PromptSurroundings) : PromptInv (.initial surroundings) := by
  constructor <;> simp [PromptWorld.initial]

section

variable (h : PromptInv world)

include h

lemma PromptInv.eq_of_generation (hrow : row ∈ world.db.owners)
    (hauthority : (authority.owner, authority) ∈ world.acquired)
    (hgeneration : row.generation = authority.generation) : row = authority :=
  congrArg Prod.snd (h.minted _ (h.issued row hrow) _ hauthority hgeneration)

lemma PromptInv.mayRelease (hmay : world.MayRelease process authority) :
    (authority.owner, authority) ∈ world.acquired ∧
      (process = authority.owner ∨ authority.owner ∈ world.ended) := by
  rcases hmay with hheld | hdead
  · have hnamed : authority.owner = process := h.named _ hheld
    exact ⟨hnamed ▸ hheld, Or.inl hnamed.symm⟩
  · obtain ⟨hacquired, hended⟩ := h.observed _ hdead
    exact ⟨hacquired, Or.inr (hended rfl)⟩

lemma PromptInv.mayReplace (hmay : world.MayObserve process (some observed))
    (hsame : sameAuthority (some row) (some observed.authority) = true)
    (hreplace : row.owner = process ∨ observed.observation = .deadOrReused) :
    process = row.owner ∨ row.owner ∈ world.ended := by
  obtain ⟨-, -, howner⟩ := sameAuthority_some hsame
  rcases hreplace with hself | hdead
  · exact Or.inl hself.symm
  · have hobserved := hmay observed rfl
    split_ifs at hobserved with hown
    · rw [hdead] at hobserved
      exact nomatch hobserved.1
    · rw [howner]
      exact Or.inr ((h.observed _ hobserved).2 hdead)

theorem PromptInv.row_kept {world' : PromptWorld} {action : PromptAction}
    (hstep : promptStep host world action = some world') (hrow : row ∈ world.db.owners)
    (hlive : row.owner ∉ world.ended) (hother : action.process ≠ some row.owner) : row ∈ world'.db.owners := by
  cases action with
  | read =>
    simp only [promptStep] at hstep
    split_ifs at hstep
    split at hstep <;> obtain rfl := some.inj hstep <;> exact hrow
  | observe =>
    simp only [promptStep] at hstep
    split_ifs at hstep
    obtain rfl := some.inj hstep
    exact hrow
  | acquire process =>
    simp only [promptStep] at hstep
    split_ifs at hstep with hmay
    split at hstep
    · next db admission hok =>
      have hdb : world'.db = db := by
        obtain rfl := some.inj hstep
        cases admission <;> rfl
      rw [hdb]
      rcases acquireInTransaction_spec hok with ⟨rfl, -⟩ | ⟨base, -, -, rfl, hbase⟩
      · exact hrow
      · refine mem_append_left _ ?_
        rcases hbase with rfl | ⟨prior, observed, hprior, rfl, hsame, hreplace, rfl⟩
        · exact hrow
        · -- The deleted row is of this process or of an occurrence that has ended.
          refine mem_deleteAuthority.mpr ⟨hrow, fun hdeleted => ?_⟩
          have heq : row = prior :=
            h.unique.eq_of_id hrow (mem_of_currentInTransaction hprior).1 hdeleted.1
          rcases h.mayReplace hmay.2.1 hsame hreplace with hself | hended
          · exact hother (congrArg some (hself.trans (congrArg PromptAuthority.owner heq.symm)))
          · exact hlive (heq ▸ hended)
    · cases hstep
  | release _ authority =>
    simp only [promptStep] at hstep
    split_ifs at hstep with hmay
    obtain rfl := some.inj hstep
    obtain ⟨hacquired, hwho⟩ := h.mayRelease hmay.2
    rcases release_cases world.db authority with hsame | hdeleted
    · rw [hsame]
      exact hrow
    · rw [hdeleted]
      refine mem_deleteAuthority.mpr ⟨hrow, fun hmatch => ?_⟩
      have heq : row = authority := h.eq_of_generation hrow hacquired hmatch.2
      rcases hwho with hself | hended
      · exact hother (congrArg some (hself.trans (congrArg PromptAuthority.owner heq.symm)))
      · exact hlive (heq ▸ hended)
  | releaseDead =>
    simp only [promptStep] at hstep
    split_ifs at hstep with hmay
    split at hstep
    · next db removed hok =>
      obtain rfl := some.inj hstep
      obtain ⟨hdead, hremoved, hsame, rfl⟩ := releaseDeadInTransaction_eq_ok hok
      refine mem_deleteAuthority.mpr ⟨hrow, fun hmatch => ?_⟩
      have heq : row = removed :=
        h.unique.eq_of_id hrow (mem_of_currentInTransaction hremoved).1 hmatch.1
      obtain ⟨-, -, howner⟩ := sameAuthority_some hsame
      have hended := (h.observed _ hmay.2).2 hdead
      rw [← howner, ← heq] at hended
      exact hlive hended
    · cases hstep
  | finish | surround =>
    obtain rfl := some.inj hstep
    exact hrow

theorem PromptInv.release_keeps {world' : PromptWorld}
    (hstep : promptStep host world (.release process authority) = some world') (hrow : row ∈ world.db.owners)
    (hne : row ≠ authority) : row ∈ world'.db.owners := by
  simp only [promptStep] at hstep
  split_ifs at hstep with hmay
  obtain rfl := some.inj hstep
  rcases release_cases world.db authority with hsame | hdeleted
  · rw [hsame]
    exact hrow
  · rw [hdeleted]
    refine mem_deleteAuthority.mpr ⟨hrow, fun hmatch => hne ?_⟩
    exact h.eq_of_generation hrow (h.mayRelease hmay.2).1 hmatch.2

lemma PromptInv.of_sublist (hsub : db.owners.Sublist world.db.owners) : PromptInv { world with db := db } where
  unique := h.unique.sublist (hsub.map _)
  issued := fun row hrow => h.issued row (hsub.subset hrow)
  named := h.named
  minted := h.minted
  read := h.read
  observed := h.observed

lemma PromptInv.acquired {base : PromptDatabase} (hsub : base.owners.Sublist world.db.owners)
    (hfree : ∀ row ∈ base.owners, row.sessionID ≠ authority.sessionID) (howner : authority.owner = process)
    (hfresh : ∀ held ∈ world.acquired, held.2.generation ≠ authority.generation) : PromptInv { world with
      db := { base with owners := base.owners ++ [authority] }
      acquired := (process, authority) :: world.acquired } where
  unique := PrimaryKey.concat (Nodup.sublist (hsub.map _) h.unique) hfree
  issued := by
    intro row hrow
    rcases mem_concat.mp hrow with hold | hnew
    · exact mem_cons_of_mem _ (h.issued row (hsub.subset hold))
    · rw [hnew, howner]
      exact mem_cons_self
  named := by
    intro held hheld
    rcases mem_cons.mp hheld with rfl | hold
    · exact howner
    · exact h.named held hold
  minted := by
    intro held hheld held' hheld' heq
    rcases mem_cons.mp hheld with rfl | hold <;>
      rcases mem_cons.mp hheld' with rfl | hold'
    · rfl
    · exact absurd heq.symm (hfresh held' hold')
    · exact absurd heq (hfresh held hold)
    · exact h.minted held hold held' hold' heq
  read := fun known hknown => mem_cons_of_mem _ (h.read known hknown)
  observed := fun known hknown =>
    ⟨mem_cons_of_mem _ (h.observed known hknown).1, (h.observed known hknown).2⟩

end

/-- A deletion leaves a part of the table. -/
lemma deleteAuthority_sublist (db : PromptDatabase) (sessionID generation : String) :
    (deleteAuthority db sessionID generation).owners.Sublist db.owners :=
  filter_sublist

theorem promptStep_preserves (host : PromptHost) : Preserves (promptStep host) PromptInv := by
  intro world action world' h hstep
  cases action with
  | read =>
    simp only [promptStep] at hstep
    split_ifs at hstep
    split at hstep
    · exact some.inj hstep ▸ h
    · next authority hcurrent =>
      obtain rfl := some.inj hstep
      refine { h with read := fun known hknown => ?_ }
      rcases mem_cons.mp hknown with rfl | hold
      · exact h.issued authority (mem_of_currentInTransaction hcurrent).1
      · exact h.read known hold
  | observe _ observed =>
    simp only [promptStep] at hstep
    split_ifs at hstep with hmay
    obtain rfl := some.inj hstep
    refine { h with observed := fun known hknown => ?_ }
    rcases mem_cons.mp hknown with rfl | hold
    · exact ⟨h.read _ hmay.2.1, hmay.2.2⟩
    · exact h.observed known hold
  | acquire =>
    simp only [promptStep] at hstep
    split_ifs at hstep with hmay
    split at hstep
    · next db admission hok =>
      obtain rfl := some.inj hstep
      rcases acquireInTransaction_spec hok with ⟨rfl, hnone⟩ | ⟨base, rfl, hfree, rfl, hbase⟩
      · cases admission with
        | acquired authority => exact absurd rfl (hnone authority)
        | refused | retry => exact h
      · have hsub : base.owners.Sublist world.db.owners := by
          rcases hbase with rfl | ⟨prior, _, -, -, -, -, rfl⟩
          · exact Sublist.refl _
          · exact deleteAuthority_sublist _ _ _
        exact h.acquired hsub hfree rfl hmay.2.2
    · cases hstep
  | release _ authority =>
    simp only [promptStep] at hstep
    split_ifs at hstep
    obtain rfl := some.inj hstep
    refine h.of_sublist ?_
    rcases release_cases world.db authority with hsame | hdeleted
    · rw [hsame]
    · rw [hdeleted]
      exact deleteAuthority_sublist _ _ _
  | releaseDead =>
    simp only [promptStep] at hstep
    split_ifs at hstep
    split at hstep
    · next db removed hok =>
      obtain rfl := some.inj hstep
      obtain ⟨-, -, -, rfl⟩ := releaseDeadInTransaction_eq_ok hok
      exact h.of_sublist (deleteAuthority_sublist _ _ _)
    · cases hstep
  | finish =>
    obtain rfl := some.inj hstep
    exact { h with observed := fun known hknown =>
      ⟨(h.observed known hknown).1, fun hdead =>
        mem_cons_of_mem _ ((h.observed known hknown).2 hdead)⟩ }
  | surround =>
    obtain rfl := some.inj hstep
    exact { h with }

/-- Prompt ownership is exclusive: in every state that any interleaving reaches, a Session has at most
one owner row; a row of a process that has not ended outlives every step of other processes; and a
release, of whatever generation, takes no row but the one it names. -/
theorem promptOwnership_exclusive {host : PromptHost} {surroundings : PromptSurroundings}
    {actions : List PromptAction} {world : PromptWorld}
    (hrun : exec (promptStep host) (.initial surroundings) actions = some world) :
    (∀ row ∈ world.db.owners, ∀ row' ∈ world.db.owners, row.sessionID = row'.sessionID → row = row') ∧
      ∀ action world', promptStep host world action = some world' → ∀ row ∈ world.db.owners,
        (row.owner ∉ world.ended → action.process ≠ some row.owner → row ∈ world'.db.owners) ∧
        ∀ process authority, action = .release process authority → row ≠ authority →
          row ∈ world'.db.owners := by
  have hinv : PromptInv world :=
    (promptStep_preserves host).exec (promptInv_initial surroundings) hrun
  refine ⟨fun row hrow row' hrow' heq => hinv.unique.eq_of_id hrow hrow' heq, ?_⟩
  intro action world' hstep row hrow
  refine ⟨fun hlive hother => hinv.row_kept hstep hrow hlive hother, ?_⟩
  rintro process authority rfl hne
  exact hinv.release_keeps hstep hrow hne

/-! ### A dead owner is replaced, a stale release comes late -/

/-- A host without symbolic paths. -/
def plainHost : PromptHost := { resolve := id, decodeFenceOwner := .ok }

/-- Two processes. -/
def firstProcess : RuntimeProcessOccurrenceInfo :=
  { pid := 1, processInstanceID := "linux:1", occurrenceID := "first" }

/-- The other of the two. -/
def secondProcess : RuntimeProcessOccurrenceInfo :=
  { pid := 2, processInstanceID := "linux:2", occurrenceID := "second" }

def oneSession : PromptSurroundings :=
  { sessions := [{ id := "ses", projectID := "prj", directory := "/work" }],
    leases := { leases := [], grants := [] }, tombstones := [], closures := [], messages := [] }

def oneSessionInput : AcquirePromptInput :=
  { sessionID := "ses", projectID := "prj", directory := "/work", preflight := none }

/-- The first process acquires twice, the second observes the later row; the first releases its earlier
generation and ends; the second observes this and takes over. -/
def takeover : List PromptAction :=
  let row := oneSessionInput.authority plainHost firstProcess "cal_2" 2
  [.acquire firstProcess oneSessionInput none "cal_1" 1,
    .read firstProcess "ses",
    .acquire firstProcess oneSessionInput
      (some { authority := oneSessionInput.authority plainHost firstProcess "cal_1" 1,
              observation := .exactLive }) "cal_2" 2,
    .release firstProcess (oneSessionInput.authority plainHost firstProcess "cal_1" 1),
    .read secondProcess "ses",
    .finish firstProcess,
    .observe secondProcess { authority := row, observation := .deadOrReused },
    .acquire secondProcess oneSessionInput (some { authority := row, observation := .deadOrReused }) "cal_3" 3]

/-- The takeover goes through, and leaves the second process as the only owner. -/
theorem promptOwnership_exclusive_of_takeover :
    ∃ world, exec (promptStep plainHost) (.initial oneSession) takeover = some world ∧
      world.db.owners.map (·.generation) = ["cal_3"] ∧
      (∀ row ∈ world.db.owners, ∀ row' ∈ world.db.owners,
        row.sessionID = row'.sessionID → row = row') ∧
      ∀ action world', promptStep plainHost world action = some world' → ∀ row ∈ world.db.owners,
        (row.owner ∉ world.ended → action.process ≠ some row.owner → row ∈ world'.db.owners) ∧
        ∀ process authority, action = .release process authority → row ≠ authority →
          row ∈ world'.db.owners := by
  have hgenerations : (exec (promptStep plainHost) (.initial oneSession) takeover).map
      (fun world => world.db.owners.map (·.generation)) = some ["cal_3"] := by decide +kernel
  obtain ⟨world, hrun, howners⟩ := map_eq_some_iff.mp hgenerations
  exact ⟨world, hrun, howners, promptOwnership_exclusive hrun⟩

end OpenCorvus.Session
