import OpenCorvus.Memory.MemoryWorld

/-!
# What a transaction changes

Every transaction on the project memory leaves the pending entries and the counters of the documents as they are,
or stores one more entry, or takes a first part of the pending entries of one Project away and counts it.  A lease
that is there after a transaction was there before it, or was begun by it.
-/

namespace OpenCorvus.Memory

open Transaction Tables

namespace Tables

variable {m : Tables} {projectID other : String} {time now : ℕ} {envelope : Envelope}

@[simp] lemma envelope_deleteFiles {ids : List String} :
    (m.deleteFiles projectID ids).envelope other now = m.envelope other now := rfl

@[simp] lemma envelope_writeEnvelope_self : (m.writeEnvelope projectID envelope).envelope projectID now = envelope := by
  simp [Tables.envelope, writeEnvelope]

lemma envelope_writeEnvelope_of_ne (h : other ≠ projectID) :
    (m.writeEnvelope projectID envelope).envelope other now = m.envelope other now := by
  simp [Tables.envelope, writeEnvelope, h]

lemma envelope_at (m : Tables) (projectID : String) (time now : ℕ) :
    m.envelope projectID time = { m.envelope projectID now with
      timeCreated := (m.envelope projectID time).timeCreated
      timeUpdated := (m.envelope projectID time).timeUpdated } := by
  unfold envelope
  cases m.envelopes projectID <;> rfl

def SameDocuments (m m' : Tables) : Prop :=
  ∀ projectID now, (m'.envelope projectID now).revision = (m.envelope projectID now).revision ∧
    (m'.envelope projectID now).droppedPendingCount = (m.envelope projectID now).droppedPendingCount

lemma SameDocuments.refl (m : Tables) : m.SameDocuments m := fun _ _ => ⟨rfl, rfl⟩

lemma sameDocuments_writeEnvelope (time : ℕ) (hrevision : envelope.revision = (m.envelope projectID time).revision)
    (hdropped : envelope.droppedPendingCount = (m.envelope projectID time).droppedPendingCount) :
    m.SameDocuments (m.writeEnvelope projectID envelope) := by
  intro other now
  by_cases h : other = projectID
  · subst h
    rw [envelope_writeEnvelope_self, hrevision, hdropped, envelope_at m other time now]
    exact ⟨rfl, rfl⟩
  · rw [envelope_writeEnvelope_of_ne h]
    exact ⟨rfl, rfl⟩

structure Rewritten (m : Tables) (projectID : String) (m' : Tables) (lease : Option Lease) : Prop where
  files : m'.files = m.files
  documents : m.SameDocuments m'
  lease : ∀ now, (m'.envelope projectID now).organizerLease = lease
  others : ∀ other ≠ projectID, ∀ now, m'.envelope other now = m.envelope other now

lemma rewritten_writeEnvelope (time : ℕ) (hrevision : envelope.revision = (m.envelope projectID time).revision)
    (hdropped : envelope.droppedPendingCount = (m.envelope projectID time).droppedPendingCount) :
    m.Rewritten projectID (m.writeEnvelope projectID envelope) envelope.organizerLease where
  files := rfl
  documents := sameDocuments_writeEnvelope time hrevision hdropped
  lease := fun _ => by rw [envelope_writeEnvelope_self]
  others := fun _ h _ => envelope_writeEnvelope_of_ne h

lemma rewritten_openEnvelope (time : ℕ) :
    m.Rewritten projectID (m.openEnvelope projectID time) (m.envelope projectID time).organizerLease :=
  rewritten_writeEnvelope time rfl rfl

section Calls

variable [TextRules]

lemma setStatus_rewritten {input : StatusInput} {answer : Bool}
    (h : m.setStatus projectID time input = .ok (answer, m')) :
    m.Rewritten projectID m' (if answer then none else (m.envelope projectID time).organizerLease) := by
  unfold setStatus at h
  dsimp only at h
  split_ifs at h with hadmitted
  · have hreturn := of_throwWhen h
    obtain ⟨rfl, rfl⟩ := Prod.mk.inj (Except.ok.inj hreturn)
    exact rewritten_writeEnvelope time rfl rfl
  · obtain ⟨rfl, rfl⟩ := Prod.mk.inj (Except.ok.inj h)
    exact rewritten_openEnvelope time

variable {leaseID : String}

omit [TextRules] in
lemma leaseFor_eq_some {answer : Option Lease} (h : envelope.leaseFor leaseID time = some answer) :
    answer = none ∨ ∃ lease, answer = some lease ∧ envelope.organizerLease = some lease ∧ lease.id = leaseID := by
  obtain ⟨lease, hlease, h⟩ := Option.bind_eq_some_iff.mp h
  split_ifs at h with hown hlive
  · exact .inr ⟨lease, (Option.some.inj h).symm, hlease, hown.1⟩
  · exact .inl (Option.some.inj h).symm

omit [TextRules] in
lemma beginOrganizerAttempt_rewritten {revision : ℕ} {ttl : Option ℕ} {answer : Option Lease}
    (h : m.beginOrganizerAttempt projectID time leaseID revision ttl = .ok (answer, m')) :
    (m.Rewritten projectID m' (m.envelope projectID time).organizerLease ∧
        (answer = none ∨ ∃ lease, answer = some lease ∧ (m.envelope projectID time).organizerLease = some lease ∧
          lease.id = leaseID)) ∨
      ∃ lease, answer = some lease ∧ lease.id = leaseID ∧ m.Rewritten projectID m' (some lease) := by
  unfold beginOrganizerAttempt at h
  dsimp only at h
  split_ifs at h with hrevision
  · obtain ⟨rfl, rfl⟩ := Prod.mk.inj (Except.ok.inj h)
    exact .inl ⟨rewritten_openEnvelope time, .inl rfl⟩
  · cases hfor : (m.envelope projectID time).leaseFor leaseID time with
    | some =>
      rw [hfor] at h
      obtain ⟨rfl, rfl⟩ := Prod.mk.inj (Except.ok.inj h)
      exact .inl ⟨rewritten_openEnvelope time, leaseFor_eq_some hfor⟩
    | none =>
      rw [hfor] at h
      have hreturn := of_throwWhen h
      obtain ⟨rfl, rfl⟩ := Prod.mk.inj (Except.ok.inj hreturn)
      exact .inr ⟨_, rfl, rfl, rewritten_writeEnvelope time rfl rfl⟩

omit [TextRules] in
lemma releaseOrganizerAttempt_rewritten :
    m.Rewritten projectID (m.releaseOrganizerAttempt projectID time leaseID).2
      (if (m.releaseOrganizerAttempt projectID time leaseID).1 then none
        else (m.envelope projectID time).organizerLease) := by
  unfold releaseOrganizerAttempt
  by_cases howns : (m.envelope projectID time).OwnsOrganizerLease leaseID (m.envelope projectID time).revision time
  · rw [if_pos howns]
    exact rewritten_writeEnvelope time rfl rfl
  · rw [if_neg howns]
    exact rewritten_openEnvelope time

omit [TextRules] in
lemma invalidateOrganizerAvailability_rewritten :
    m.Rewritten projectID (m.invalidateOrganizerAvailability projectID time).2 none :=
  rewritten_writeEnvelope time rfl rfl

omit [TextRules] in
lemma acknowledgeNotice_rewritten {generation : String} :
    m.Rewritten projectID (m.acknowledgeNotice projectID time generation).2
      (m.envelope projectID time).organizerLease := by
  unfold acknowledgeNotice
  dsimp only
  split
  · exact rewritten_openEnvelope time
  · split_ifs
    · exact rewritten_openEnvelope time
    · exact rewritten_writeEnvelope time rfl rfl

end Calls

structure Taken (m : Tables) (projectID : String) (n : ℕ) (m' : Tables) (document : Envelope) : Prop where
  files : m'.files = (m.deleteFiles projectID (((m.pendingRows projectID).take n).map FileRow.id)).files
  document : ∀ now, m'.envelope projectID now = document
  others : ∀ other ≠ projectID, ∀ now, m'.envelope other now = m.envelope other now

lemma taken_deleteFiles {n : ℕ} : m.Taken projectID n ((m.writeEnvelope projectID envelope).deleteFiles projectID
      (((m.pendingRows projectID).take n).map FileRow.id)) envelope where
  files := rfl
  document := fun _ => by rw [envelope_deleteFiles, envelope_writeEnvelope_self]
  others := fun _ h _ => by rw [envelope_deleteFiles, envelope_writeEnvelope_of_ne h]

section Taking

variable [TextRules]

lemma markUnavailableAndTrim_cases {input : UnavailableInput} {answer : Bool × List String}
    (h : m.markUnavailableAndTrim projectID time input = .ok (answer, m')) :
    (answer.1 = false ∧ m.Rewritten projectID m' (m.envelope projectID time).organizerLease) ∨
      (answer.1 = true ∧ ∃ n document, n ≤ (m.pendingRows projectID).length ∧ m.Taken projectID n m' document ∧
        document.revision = (m.envelope projectID time).revision ∧
        document.droppedPendingCount = (m.envelope projectID time).droppedPendingCount + n ∧
        document.organizerLease = none) := by
  unfold markUnavailableAndTrim at h
  dsimp only at h
  split_ifs at h with hadmitted
  · have hreturn := of_throwWhen h
    obtain ⟨rfl, rfl⟩ := Prod.mk.inj (Except.ok.inj hreturn)
    refine .inr ⟨rfl, input.excess (m.pendingRows projectID), _, ?_, taken_deleteFiles, rfl, rfl, rfl⟩
    unfold UnavailableInput.excess
    split_ifs with htrim
    · omega
    · exact Nat.zero_le _
  · obtain ⟨rfl, rfl⟩ := Prod.mk.inj (Except.ok.inj h)
    exact .inl ⟨rfl, rewritten_openEnvelope time⟩

lemma commitOrganization_cases {input : CommitInput} {result : Organized}
    (h : m.commitOrganization projectID time input = .ok (result, m')) :
    m.Rewritten projectID m' (m.envelope projectID time).organizerLease ∨
      ∃ n document, (m.envelope projectID time).OwnsOrganizerLease input.leaseID input.baseRevision time ∧
        m.Taken projectID n m' document ∧
        result.revision = (m.envelope projectID time).revision + 1 ∧
        document.revision = (m.envelope projectID time).revision + 1 ∧
        document.droppedPendingCount = (m.envelope projectID time).droppedPendingCount ∧
        document.organizerLease = none := by
  unfold commitOrganization at h
  dsimp only at h
  split_ifs at h with hreplays
  · obtain ⟨rfl, rfl⟩ := Prod.mk.inj (Except.ok.inj h)
    exact .inl (rewritten_openEnvelope time)
  · obtain ⟨howns, h⟩ := throwWhen_bind_eq_ok.mp h
    replace h := of_throwWhen h
    replace h := of_throwWhen h
    replace h := of_throwWhen h
    obtain ⟨rfl, rfl⟩ := Prod.mk.inj (Except.ok.inj h)
    exact .inr ⟨_, _, not_not.mp howns, taken_deleteFiles, rfl, rfl, rfl, rfl⟩

end Taking

end Tables

section Changes

variable [TextRules] [FileIdentity]

def Transcript.captures (t : Transcript) (time : ℕ) : Action → Except MemoryError (Option Entry)
  | .persistMessage info parts _ =>
    let persisted := t.persistRows info parts time
    persisted.2.messageEntry persisted.1 parts
  | .captureOccurrence input => (t.occurrenceEntry input).map some
  | _ => .ok none

/-- What a transaction changes: nothing that counts (`quiet`), one more entry, or a first part of the entries. -/
inductive Change (t : Transcript) (m : Tables) (time : ℕ) : Action → Outcome → Tables → Prop
  | quiet {action : Action} {outcome : Outcome} {m' : Tables} (files : m'.files = m.files)
      (documents : m.SameDocuments m') (captured : ∀ captured, capturedOf captured outcome = [])
      (settlements : settlementsOf m m' action outcome = []) : Change t m time action outcome m'
  | again {action : Action} {entry : Entry} {row : FileRow} (captures : t.captures time action = .ok (some entry))
      (mem : row ∈ m.files) (id : row.id = fileID entry.key) (key : row.key = entry.key) (content : row.content = entry) : Change t m time action (.recorded entry.key) m
  | inserted {action : Action} {entry : Entry} (captures : t.captures time action = .ok (some entry))
      (new : ∀ row ∈ m.files, row.id ≠ fileID entry.key) :
      Change t m time action (.recorded entry.key)
        { m with files := m.files ++ [⟨fileID entry.key, entry.key, entry.timeCreated, entry⟩] }
  | covered {projectID : String} {input : CommitInput} {result : Organized} {m' : Tables} {n : ℕ} {document : Envelope}
      (owned : (m.envelope projectID time).OwnsOrganizerLease input.leaseID input.baseRevision time)
      (taken : m.Taken projectID n m' document)
      (number : result.revision = (m.envelope projectID time).revision + 1)
      (revision : document.revision = (m.envelope projectID time).revision + 1)
      (dropped : document.droppedPendingCount = (m.envelope projectID time).droppedPendingCount) :
      Change t m time (.commit projectID input) (.organized result true) m'
  | trimmed {projectID : String} {input : UnavailableInput} {ids : List String} {m' : Tables} {n : ℕ}
      {document : Envelope} (le : n ≤ (m.pendingRows projectID).length) (taken : m.Taken projectID n m' document)
      (revision : document.revision = (m.envelope projectID time).revision)
      (dropped : document.droppedPendingCount = (m.envelope projectID time).droppedPendingCount + n) :
      Change t m time (.markUnavailable projectID input) (.unavailable true ids) m'

variable {m m' : Tables} {t t' written : Transcript} {time : ℕ} {action : Action} {outcome : Outcome}

omit [TextRules] in
lemma insert_cases {entry : Entry} (h : m.insert entry = .ok m') :
    ((∃ row ∈ m.files, row.id = fileID entry.key ∧ row.key = entry.key ∧ row.content = entry) ∧ m' = m) ∨
      ((∀ row ∈ m.files, row.id ≠ fileID entry.key) ∧
        m' = { m with files := m.files ++ [⟨fileID entry.key, entry.key, entry.timeCreated, entry⟩] }) := by
  unfold Tables.insert at h
  cases hfind : m.files.find? fun row => row.id = fileID entry.key with
  | none =>
    rw [hfind] at h
    exact .inr ⟨fun row hrow => by simpa using List.find?_eq_none.mp hfind row hrow, (Except.ok.inj h).symm⟩
  | some row =>
    rw [hfind] at h
    obtain ⟨hkey, h⟩ := throwWhen_bind_eq_ok.mp h
    obtain ⟨hcontent, h⟩ := throwWhen_bind_eq_ok.mp h
    have hid : row.id = fileID entry.key := by simpa using List.find?_some hfind
    exact .inl ⟨⟨row, List.mem_of_find?_eq_some hfind, hid, not_not.mp hkey, not_not.mp hcontent⟩,
      (Except.ok.inj h).symm⟩

lemma record_change {entry : Entry} (hcaptures : t.captures time action = .ok (some entry))
    (h : record m written entry = .ok (outcome, t', m')) : Change t m time action outcome m' := by
  obtain ⟨_, hinsert, hreturn⟩ := bind_eq_ok.mp h
  obtain ⟨rfl, hrest⟩ := Prod.mk.inj (Except.ok.inj hreturn)
  obtain ⟨rfl, rfl⟩ := Prod.mk.inj hrest
  rcases insert_cases hinsert with ⟨⟨_, hrow, hid, hkey, hcontent⟩, rfl⟩ | ⟨hnew, rfl⟩
  · exact .again hcaptures hrow hid hkey hcontent
  · exact .inserted hcaptures hnew

lemma Tables.Rewritten.change {projectID : String} {lease : Option Lease} (h : m.Rewritten projectID m' lease)
    (hcaptured : ∀ captured, capturedOf captured outcome = []) (hsettlements : settlementsOf m m' action outcome = []) :
    Change t m time action outcome m' :=
  .quiet h.files h.documents hcaptured hsettlements

theorem perform_change (h : perform t m time action = .ok (outcome, t', m')) : Change t m time action outcome m' := by
  cases action with
  | persistMessage =>
    replace h := of_throwWhen h
    obtain ⟨entry, hentry, h⟩ := bind_eq_ok.mp h
    cases entry with
    | none =>
      obtain ⟨rfl, rfl⟩ := answer_inj h
      exact .quiet rfl (.refl m) (fun _ => rfl) rfl
    | some => exact record_change hentry h
  | captureOccurrence =>
    obtain ⟨entry, hentry, h⟩ := bind_eq_ok.mp h
    exact record_change (map_eq_ok.mpr ⟨entry, hentry, rfl⟩) h
  | setStatus =>
    obtain ⟨⟨_, _⟩, hcall, h⟩ := bind_eq_ok.mp h
    obtain ⟨rfl, rfl⟩ := answer_inj h
    exact (setStatus_rewritten hcall).change (fun _ => rfl) rfl
  | begin =>
    obtain ⟨⟨_, _⟩, hcall, h⟩ := bind_eq_ok.mp h
    obtain ⟨rfl, rfl⟩ := answer_inj h
    rcases beginOrganizerAttempt_rewritten hcall with ⟨hsame, -⟩ | ⟨_, -, -, hnew⟩
    · exact hsame.change (fun _ => rfl) rfl
    · exact hnew.change (fun _ => rfl) rfl
  | release =>
    obtain ⟨rfl, rfl⟩ := answer_inj h
    exact releaseOrganizerAttempt_rewritten.change (fun _ => rfl) rfl
  | invalidate =>
    obtain ⟨rfl, rfl⟩ := answer_inj h
    exact invalidateOrganizerAvailability_rewritten.change (fun _ => rfl) rfl
  | acknowledge =>
    obtain ⟨rfl, rfl⟩ := answer_inj h
    exact acknowledgeNotice_rewritten.change (fun _ => rfl) rfl
  | markUnavailable =>
    obtain ⟨⟨⟨_, _⟩, _⟩, hcall, h⟩ := bind_eq_ok.mp h
    obtain ⟨rfl, rfl⟩ := answer_inj h
    rcases markUnavailableAndTrim_cases hcall with
      ⟨rfl, hsame⟩ | ⟨rfl, n, document, hle, htaken, hrevision, hdropped, -⟩
    · exact hsame.change (fun _ => rfl) rfl
    · exact .trimmed hle htaken hrevision hdropped
  | commit projectID =>
    obtain ⟨⟨_, memory⟩, hcall, h⟩ := bind_eq_ok.mp h
    obtain ⟨rfl, rfl⟩ := answer_inj h
    rcases commitOrganization_cases hcall with
      hsame | ⟨n, document, howned, htaken, hnumber, hrevision, hdropped, -⟩
    · have hkept := (hsame.documents projectID time).1
      rw [decide_eq_false (not_not.mpr hkept)]
      exact hsame.change (fun _ => rfl) rfl
    · have hrevised : (memory.envelope projectID time).revision ≠ (m.envelope projectID time).revision := by
        rw [htaken.document, hrevision]
        omega
      rw [decide_eq_true hrevised]
      exact .covered howned htaken hnumber hrevision hdropped
  | read =>
    obtain ⟨rfl, rfl⟩ := answer_inj h
    exact (rewritten_openEnvelope time).change (fun _ => rfl) rfl
  | write =>
    obtain ⟨rfl, rfl⟩ := answer_inj h
    exact .quiet rfl (.refl m) (fun _ => rfl) rfl

end Changes

end OpenCorvus.Memory
