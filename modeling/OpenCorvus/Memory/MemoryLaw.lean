import OpenCorvus.Memory.MemoryQueue

/-!
# The conservation of evidence

Along every run whose captures meet `Allowed`, every captured occurrence is pending once, covered by one revision or
counted as dropped; the revisions of a Project are numbered from one on, and each covers a first part of what was
pending, in the order of capture, under a lease that its organizer held.
-/

namespace OpenCorvus.Memory

open ExecutableSystem Transaction List Option Tables

/-! ## Leases in a history -/

def Ends (projectID leaseID : String) (call : Event × Outcome) : Prop :=
  match call.1.action, call.2 with
  | .begin project holder _ _, .leased (some _) => project = projectID ∧ holder ≠ leaseID
  | .release project _, .answered true => project = projectID
  | .setStatus project _, .answered true => project = projectID
  | .invalidate project, .generation _ => project = projectID
  | .markUnavailable project _, .unavailable true _ => project = projectID
  | .commit project _, .organized _ true => project = projectID
  | _, _ => False

def Given (history : List (Event × Outcome)) (projectID : String) (lease : Lease) : Prop :=
  ∃ before call after revision ttl, history = before ++ call :: after ∧
    call.1.action = .begin projectID lease.id revision ttl ∧ call.2 = .leased (some lease) ∧
    ∀ later ∈ after, ¬Ends projectID lease.id later

def Holds (history : List (Event × Outcome)) (projectID leaseID : String) (time : ℕ) : Prop :=
  ∃ lease, Given history projectID lease ∧ lease.id = leaseID ∧ time < lease.expiresAt

/-! ## Leases are given -/

section Leases

variable [TextRules] [FileIdentity]

variable {m m' : Tables} {t t' : Transcript} {projectID other : String} {time now : ℕ} {action : Action}
  {outcome : Outcome} {lease : Lease} {held : Option Lease}

omit [TextRules] [FileIdentity] in
lemma organizerLease_at (m : Tables) (projectID : String) (time now : ℕ) :
    (m.envelope projectID time).organizerLease = (m.envelope projectID now).organizerLease := by
  rw [m.envelope_at projectID time now]

omit [TextRules] [FileIdentity] in
lemma Tables.Rewritten.lease_cases (time : ℕ) (h : m.Rewritten projectID m' held)
    (hlease : (m'.envelope other now).organizerLease = some lease) :
    (other = projectID ∧ held = some lease) ∨
      (projectID ≠ other ∧ (m.envelope other time).organizerLease = some lease) := by
  by_cases hother : other = projectID
  · subst hother
    exact .inl ⟨rfl, (h.lease now).symm.trans hlease⟩
  · rw [h.others other hother, organizerLease_at m other now time] at hlease
    exact .inr ⟨Ne.symm hother, hlease⟩

omit [TextRules] [FileIdentity] in
lemma Tables.Taken.lease_of_other (time : ℕ) {n : ℕ} {document : Envelope} (h : m.Taken projectID n m' document)
    (hnone : document.organizerLease = none) (hlease : (m'.envelope other now).organizerLease = some lease) :
    projectID ≠ other ∧ (m.envelope other time).organizerLease = some lease := by
  have hother : other ≠ projectID := by
    rintro rfl
    rw [h.document, hnone] at hlease
    cases hlease
  rw [h.others other hother, organizerLease_at m other now time] at hlease
  exact ⟨hother.symm, hlease⟩

omit [TextRules] in
lemma record_lease {entry : Entry} {written : Transcript} (h : record m written entry = .ok (outcome, t', m'))
    (hlease : (m'.envelope projectID now).organizerLease = some lease) :
    (m.envelope projectID time).organizerLease = some lease := by
  rw [organizerLease_at m projectID time now]
  obtain ⟨_, hinsert, hreturn⟩ := bind_eq_ok.mp h
  obtain ⟨-, hrest⟩ := Prod.mk.inj (Except.ok.inj hreturn)
  obtain ⟨-, rfl⟩ := Prod.mk.inj hrest
  rcases insert_cases hinsert with ⟨-, rfl⟩ | ⟨-, rfl⟩
  · exact hlease
  · exact hlease

lemma perform_lease (h : perform t m time action = .ok (outcome, t', m'))
    (hlease : (m'.envelope projectID now).organizerLease = some lease) :
    ((m.envelope projectID time).organizerLease = some lease ∧ ¬Ends projectID lease.id (⟨time, action⟩, outcome)) ∨
      ∃ revision ttl, action = .begin projectID lease.id revision ttl ∧ outcome = .leased (some lease) := by
  cases action with
  | persistMessage =>
    replace h := of_throwWhen h
    obtain ⟨entry, -, h⟩ := bind_eq_ok.mp h
    cases entry with
    | none =>
      obtain ⟨rfl, rfl⟩ := answer_inj h
      rw [organizerLease_at m projectID now time] at hlease
      exact .inl ⟨hlease, id⟩
    | some => exact .inl ⟨record_lease h hlease, id⟩
  | captureOccurrence =>
    obtain ⟨_, h⟩ := of_bind h
    exact .inl ⟨record_lease h hlease, id⟩
  | setStatus =>
    obtain ⟨⟨answer, _⟩, hcall, h⟩ := bind_eq_ok.mp h
    obtain ⟨rfl, rfl⟩ := answer_inj h
    rcases (setStatus_rewritten hcall).lease_cases time hlease with ⟨rfl, hheld⟩ | ⟨hne, hold⟩
    · cases answer with
      | true => cases hheld
      | false => exact .inl ⟨hheld, id⟩
    · refine .inl ⟨hold, ?_⟩
      cases answer
      · exact id
      · exact hne
  | begin _ _ revision ttl =>
    obtain ⟨⟨answer, _⟩, hcall, h⟩ := bind_eq_ok.mp h
    obtain ⟨rfl, rfl⟩ := answer_inj h
    rcases beginOrganizerAttempt_rewritten hcall with ⟨hsame, hanswer⟩ | ⟨_, rfl, rfl, hnew⟩
    · rcases hsame.lease_cases time hlease with ⟨rfl, hheld⟩ | ⟨hne, hold⟩
      · refine .inl ⟨hheld, ?_⟩
        rcases hanswer with rfl | ⟨found, rfl, hfound, rfl⟩
        · exact id
        · obtain rfl : found = lease := some.inj (hfound.symm.trans hheld)
          exact fun hends => hends.2 rfl
      · refine .inl ⟨hold, ?_⟩
        cases answer
        · exact id
        · exact fun hends => hne hends.1
    · rcases hnew.lease_cases time hlease with ⟨rfl, hheld⟩ | ⟨hne, hold⟩
      · obtain rfl := some.inj hheld
        exact .inr ⟨revision, ttl, rfl, rfl⟩
      · exact .inl ⟨hold, fun hends => hne hends.1⟩
  | release project leaseID =>
    obtain ⟨rfl, rfl⟩ := answer_inj h
    rcases releaseOrganizerAttempt_rewritten.lease_cases time hlease with ⟨rfl, hheld⟩ | ⟨hne, hold⟩
    · cases hanswer : (m.releaseOrganizerAttempt projectID time leaseID).1 with
      | true =>
        rw [hanswer] at hheld
        cases hheld
      | false =>
        rw [hanswer] at hheld
        exact .inl ⟨hheld, id⟩
    · refine .inl ⟨hold, ?_⟩
      cases (m.releaseOrganizerAttempt project time leaseID).1
      · exact id
      · exact hne
  | invalidate =>
    obtain ⟨rfl, rfl⟩ := answer_inj h
    rcases invalidateOrganizerAvailability_rewritten.lease_cases time hlease with
      ⟨-, hheld⟩ | ⟨hne, hold⟩
    · cases hheld
    · exact .inl ⟨hold, hne⟩
  | acknowledge =>
    obtain ⟨rfl, rfl⟩ := answer_inj h
    rcases acknowledgeNotice_rewritten.lease_cases time hlease with ⟨rfl, hheld⟩ | ⟨-, hold⟩
    · exact .inl ⟨hheld, id⟩
    · exact .inl ⟨hold, id⟩
  | markUnavailable =>
    obtain ⟨⟨⟨_, _⟩, _⟩, hcall, h⟩ := bind_eq_ok.mp h
    obtain ⟨rfl, rfl⟩ := answer_inj h
    rcases markUnavailableAndTrim_cases hcall with
      ⟨rfl, hsame⟩ | ⟨rfl, n, document, -, htaken, -, -, hnone⟩
    · rcases hsame.lease_cases time hlease with ⟨rfl, hheld⟩ | ⟨-, hold⟩
      · exact .inl ⟨hheld, id⟩
      · exact .inl ⟨hold, id⟩
    · obtain ⟨hne, hold⟩ := htaken.lease_of_other time hnone hlease
      exact .inl ⟨hold, hne⟩
  | commit project =>
    obtain ⟨⟨_, memory⟩, hcall, h⟩ := bind_eq_ok.mp h
    obtain ⟨rfl, rfl⟩ := answer_inj h
    rcases commitOrganization_cases hcall with hsame | ⟨_, _, -, htaken, -, -, -, hnone⟩
    · have hkept := (hsame.documents project time).1
      rw [decide_eq_false (not_not.mpr hkept)]
      rcases hsame.lease_cases time hlease with ⟨rfl, hheld⟩ | ⟨-, hold⟩
      · exact .inl ⟨hheld, id⟩
      · exact .inl ⟨hold, id⟩
    · obtain ⟨hne, hold⟩ := htaken.lease_of_other time hnone hlease
      refine .inl ⟨hold, ?_⟩
      cases decide ((memory.envelope project time).revision ≠ (m.envelope project time).revision)
      · exact id
      · exact hne
  | read =>
    obtain ⟨rfl, rfl⟩ := answer_inj h
    rcases (rewritten_openEnvelope time).lease_cases time hlease with
      ⟨rfl, hheld⟩ | ⟨-, hold⟩
    · exact .inl ⟨hheld, id⟩
    · exact .inl ⟨hold, id⟩
  | write =>
    obtain ⟨rfl, rfl⟩ := answer_inj h
    rw [organizerLease_at m projectID now time] at hlease
    exact .inl ⟨hlease, id⟩

end Leases

/-! ## Statement -/

namespace World

def coveredKeys (s : World) (projectID : String) : List Key :=
  ((s.settledIn projectID).filter fun settlement => settlement.revision ≠ none).flatMap Settlement.keys

def Captured (s : World) (messageID : String) : Prop :=
  ∃ key ∈ s.captured, key.kind = .message ∧ key.occurrenceID = messageID

structure Conserved (s : World) : Prop where
  once : ∀ projectID, ∀ key ∈ s.capturedIn projectID,
    (s.pendingKeys projectID).count key + (s.coveredKeys projectID).count key +
      (s.droppedKeys projectID).count key = 1
  counted : ∀ projectID,
    (s.memory.envelope projectID s.clock).droppedPendingCount = (s.droppedKeys projectID).length
  numbered : ∀ projectID, s.revisions projectID = List.range' 1 (s.memory.envelope projectID s.clock).revision

end World

section Law

variable [TextRules] [FileIdentity] (s : World)

/-- A commit covers a first part of what is pending, in the order of capture, and its organizer holds the lease. -/
def CommitsInOrder (event : Event) : Prop :=
  ∀ s' projectID input result, step s event = some s' → event.action = .commit projectID input →
    s'.history = s.history ++ [(event, .organized result true)] →
    Holds s.history projectID input.leaseID event.time ∧
      ∃ keys, s'.settlements = s.settlements ++ [.covered projectID result.revision keys] ∧
        keys <+: (s.capturedIn projectID).filter fun key => key ∈ s.pendingKeys projectID

def PersistsAgain (event : Event) : Prop :=
  ∀ s' info parts, step s event = some s' → event.action = .persistMessage info parts true → s.Captured info.id →
    (∀ error, s'.history ≠ s.history ++ [(event, .failed error)]) ∧ s'.memory.files = s.memory.files

def SortsLast (entry : Entry) : Prop :=
  ∀ row ∈ s.memory.pendingRows entry.projectID, row.orderKey < toLex (entry.timeCreated, fileID entry.key)

def StillPending (entry : Entry) : Prop := ∃ row ∈ s.memory.files, row.id = fileID entry.key

/-- What a capture must meet: an occurrence is captured again only while its entry is pending, a Message moreover
only while it makes the same entry, and for the first time only after all pending entries. -/
def Allowed (event : Event) : Prop :=
  match event.action with
  | .persistMessage info parts _ =>
    let persisted := s.transcript.persistRows info parts event.time
    match persisted.2.messageEntry persisted.1 parts with
    | .error _ => ¬s.Captured info.id
    | .ok none => True
    | .ok (some entry) =>
      (s.Captured info.id → ∃ row ∈ s.memory.files, row.id = fileID entry.key ∧ row.content = entry) ∧
        (entry.key ∉ s.captured → SortsLast s entry)
  | .captureOccurrence input =>
    match s.transcript.occurrenceEntry input with
    | .error _ => True
    | .ok entry => (entry.key ∈ s.captured → StillPending s entry) ∧ (entry.key ∉ s.captured → SortsLast s entry)
  | _ => True

end Law

/-! ## One step -/

section Steps

variable [TextRules] [FileIdentity] {s s' : World} {event : Event}

lemma step_cases (h : step s event = some s') : s'.clock = event.time ∧
    ((∃ error, perform s.transcript s.memory event.time event.action = .error error ∧
        s' = { s with clock := event.time, history := s.history ++ [(event, .failed error)] }) ∨
      ∃ outcome transcript memory,
        perform s.transcript s.memory event.time event.action = .ok (outcome, transcript, memory) ∧
        s' = { clock := event.time, transcript, memory
               captured := s.captured ++ capturedOf s.captured outcome
               settlements := s.settlements ++ settlementsOf s.memory memory event.action outcome
               history := s.history ++ [(event, outcome)] }) := by
  unfold step at h
  split_ifs at h
  cases hperform : perform s.transcript s.memory event.time event.action with
  | error error =>
    rw [hperform] at h
    obtain rfl := some.inj h
    exact ⟨rfl, .inl ⟨error, rfl, rfl⟩⟩
  | ok answer =>
    obtain ⟨outcome, transcript, memory⟩ := answer
    rw [hperform] at h
    obtain rfl := some.inj h
    exact ⟨rfl, .inr ⟨outcome, transcript, memory, rfl, rfl⟩⟩

omit [FileIdentity] in
lemma key_of_messageEntry {t : Transcript} {info : Info} {parts : List Part} {entry : Entry}
    (h : t.messageEntry info parts = .ok (some entry)) :
    entry.key.kind = .message ∧ entry.key.occurrenceID = info.id := by
  unfold Transcript.messageEntry at h
  cases hmarker : if info.role = .user then info.extra else none with
  | none =>
    rw [hmarker] at h
    cases h
  | some =>
    rw [hmarker] at h
    obtain ⟨_, h⟩ := of_bind h
    obtain ⟨_, h⟩ := of_bind h
    obtain rfl := some.inj (Except.ok.inj h)
    exact ⟨rfl, rfl⟩

lemma allowed_of_captures (hallowed : Allowed s event) {entry : Entry}
    (hcaptures : s.transcript.captures event.time event.action = .ok (some entry)) :
    (entry.key ∈ s.captured → StillPending s entry) ∧ (entry.key ∉ s.captured → SortsLast s entry) := by
  obtain ⟨_, action⟩ := event
  cases action with
  | persistMessage =>
    unfold Transcript.captures at hcaptures
    dsimp only at hcaptures
    unfold Allowed at hallowed
    dsimp only at hallowed
    rw [hcaptures] at hallowed
    refine ⟨fun hcaptured => ?_, hallowed.2⟩
    obtain ⟨hkind, hid⟩ := key_of_messageEntry hcaptures
    obtain ⟨row, hrow, hrowid, -⟩ := hallowed.1 ⟨entry.key, hcaptured, hkind, hid⟩
    exact ⟨row, hrow, hrowid⟩
  | captureOccurrence =>
    obtain ⟨_, hfound, hsome⟩ := map_eq_ok.mp hcaptures
    obtain rfl := some.inj hsome
    unfold Allowed at hallowed
    dsimp only at hallowed
    rwa [hfound] at hallowed
  | _ => cases hcaptures

end Steps

/-! ## The invariant -/

section Invariant

variable [TextRules] [FileIdentity] {s s' : World} {event : Event} {projectID : String}

/-- What holds in every world that a run of allowed steps reaches. -/
structure MemoryInv (s : World) : Prop where
  rows : s.memory.WellFormed
  nodup : s.captured.Nodup
  queue : ∀ projectID, s.capturedIn projectID = s.settledKeys projectID ++ s.pendingKeys projectID
  counted : ∀ projectID now,
    (s.memory.envelope projectID now).droppedPendingCount = (s.droppedKeys projectID).length
  numbered : ∀ projectID now, s.revisions projectID = List.range' 1 (s.memory.envelope projectID now).revision
  given : ∀ projectID now lease, (s.memory.envelope projectID now).organizerLease = some lease →
    Given s.history projectID lease

omit [TextRules] in
lemma MemoryInv.captured_of_mem (h : MemoryInv s) {row : FileRow} (hrow : row ∈ s.memory.files) :
    row.key ∈ s.captured := by
  have hpending : row.key ∈ s.pendingKeys row.key.projectID :=
    List.mem_map_of_mem (mem_pendingRows.mpr ⟨hrow, rfl⟩)
  have hcaptured : row.key ∈ s.capturedIn row.key.projectID := by
    rw [h.queue]
    exact mem_append_right _ hpending
  exact (mem_filter.mp hcaptured).1

omit [TextRules] [FileIdentity] in
lemma Given.append {history : List (Event × Outcome)} {lease : Lease} {call : Event × Outcome}
    (h : Given history projectID lease) (hcall : ¬Ends projectID lease.id call) :
    Given (history ++ [call]) projectID lease := by
  obtain ⟨before, given, after, revision, ttl, rfl, hbegin, hanswer, hlater⟩ := h
  refine ⟨before, given, after ++ [call], revision, ttl, ?_, hbegin, hanswer, fun later hmem => ?_⟩
  · rw [append_assoc, cons_append]
  · rcases mem_append.mp hmem with hmem | hmem
    · exact hlater later hmem
    · rwa [mem_singleton.mp hmem]

lemma given_of_perform {outcome : Outcome} {transcript : Transcript} {memory : Tables}
    (hinv : MemoryInv s) (hperform : perform s.transcript s.memory event.time event.action = .ok (outcome, transcript, memory))
    {now : ℕ} {lease : Lease} (hlease : (memory.envelope projectID now).organizerLease = some lease) :
    Given (s.history ++ [(event, outcome)]) projectID lease := by
  rcases perform_lease hperform hlease with ⟨hold, hends⟩ | ⟨revision, ttl, haction, rfl⟩
  · exact (hinv.given projectID event.time lease hold).append hends
  · exact ⟨s.history, (event, .leased (some lease)), [], revision, ttl, rfl, haction, rfl, fun _ h => by cases h⟩

omit [TextRules] in
lemma Tables.WellFormed.insert_of_mem {m : Tables} {entry : Entry} {row : FileRow} (h : m.WellFormed)
    (hrow : row ∈ m.files) (hid : row.id = fileID entry.key) (hcontent : row.content = entry) :
    m.insert entry = .ok m := by
  have hkey : row.key = entry.key := by rw [← h.key row hrow, hcontent]
  have hfind : m.files.find? (fun row => row.id = fileID entry.key) = some row := by
    cases hfound : m.files.find? fun row => row.id = fileID entry.key with
    | none => exact absurd hid (by simpa using find?_eq_none.mp hfound row hrow)
    | some found =>
      have hfoundid : found.id = fileID entry.key := by simpa using find?_some hfound
      rw [inj_on_of_nodup_map h.nodup (mem_of_find?_eq_some hfound) hrow (hfoundid.trans hid.symm)]
  unfold Tables.insert
  rw [hfind]
  exact throwWhen_bind_eq_ok.mpr ⟨not_not.mpr hkey, throwWhen_bind_eq_ok.mpr ⟨not_not.mpr hcontent, rfl⟩⟩

/-! ### What is observed after a settlement -/

section Settled

variable {settlement : Settlement} {settled : World}

section

variable (h : settled.settlements = s.settlements ++ [settlement])

include h

omit [TextRules] [FileIdentity] in
lemma settledIn_append : settled.settledIn projectID =
      if settlement.projectID = projectID then s.settledIn projectID ++ [settlement] else s.settledIn projectID := by
  unfold World.settledIn
  rw [h, filter_append, filter_singleton]
  by_cases hproject : settlement.projectID = projectID
  · rw [decide_eq_true hproject, if_pos hproject, cond_true]
  · rw [decide_eq_false hproject, if_neg hproject, cond_false, List.append_nil]

omit [TextRules] [FileIdentity] in
lemma settledKeys_append : settled.settledKeys projectID =
      if settlement.projectID = projectID then s.settledKeys projectID ++ settlement.keys
      else s.settledKeys projectID := by
  unfold World.settledKeys
  rw [settledIn_append h]
  split_ifs
  · rw [flatMap_append, flatMap_singleton]
  · rfl

omit [TextRules] [FileIdentity] in
lemma revisions_append : settled.revisions projectID =
      if settlement.projectID = projectID then s.revisions projectID ++ settlement.revision.toList
      else s.revisions projectID := by
  unfold World.revisions
  rw [settledIn_append h]
  split_ifs
  · rw [filterMap_append]
    cases hrevision : settlement.revision <;> simp [hrevision]
  · rfl

omit [TextRules] [FileIdentity] in
lemma droppedKeys_append : settled.droppedKeys projectID =
      if settlement.projectID = projectID ∧ settlement.revision = none then s.droppedKeys projectID ++ settlement.keys
      else s.droppedKeys projectID := by
  unfold World.droppedKeys
  rw [settledIn_append h]
  by_cases hproject : settlement.projectID = projectID
  · rw [if_pos hproject, filter_append, flatMap_append, filter_singleton]
    by_cases hrevision : settlement.revision = none <;> simp [hproject, hrevision]
  · rw [if_neg hproject, if_neg fun h => hproject h.1]

end

end Settled

/-! ### The steps keep the invariant -/

omit [TextRules] in
/-- The invariant holds before anything is captured. -/
lemma memoryInv_initial (transcript : Transcript) : MemoryInv (World.initial transcript) where
  rows :=
    { nodup := nodup_nil
      id := fun _ h => absurd h not_mem_nil
      key := fun _ h => absurd h not_mem_nil }
  nodup := nodup_nil
  queue := fun _ => rfl
  counted := fun _ _ => rfl
  numbered := fun _ _ => rfl
  given := fun _ _ _ h => by cases h

omit [TextRules] in
lemma Tables.WellFormed.deleteFiles {m m' : Tables} {ids : List String} (h : m.WellFormed)
    (hfiles : m'.files = (m.deleteFiles projectID ids).files) : m'.WellFormed where
  nodup := hfiles ▸ h.nodup.sublist (List.Sublist.map _ filter_sublist)
  id := fun row hrow => h.id row (mem_of_mem_filter (hfiles ▸ hrow : row ∈ (m.deleteFiles projectID ids).files))
  key := fun row hrow => h.key row (mem_of_mem_filter (hfiles ▸ hrow : row ∈ (m.deleteFiles projectID ids).files))

omit [TextRules] in
lemma memoryInv_taken (hinv : MemoryInv s) {n : ℕ} {document : Envelope} {settlement : Settlement}
    (htaken : s.memory.Taken projectID n s'.memory document) (hcaptured : s'.captured = s.captured)
    (hsettlements : s'.settlements = s.settlements ++ [settlement]) (hproject : settlement.projectID = projectID)
    (hkeys : settlement.keys = removedKeys projectID s.memory s'.memory)
    (hnumbered : s.revisions projectID ++ settlement.revision.toList = List.range' 1 document.revision)
    (hcounted : document.droppedPendingCount =
      (s.droppedKeys projectID).length + if settlement.revision = none then settlement.keys.length else 0)
    (hgiven : ∀ projectID now lease, (s'.memory.envelope projectID now).organizerLease = some lease →
      Given s'.history projectID lease) : MemoryInv s' := by
  obtain ⟨hself, hothers⟩ := hinv.rows.pendingRows_taken htaken
  refine ⟨hinv.rows.deleteFiles htaken.files, hcaptured ▸ hinv.nodup, ?_, ?_, ?_, hgiven⟩
  · intro other
    rw [World.capturedIn, hcaptured, ← World.capturedIn, hinv.queue other, settledKeys_append hsettlements, hproject]
    split_ifs with h
    · subst h
      rw [hkeys, hinv.rows.removedKeys_taken htaken, append_assoc, World.pendingKeys, World.pendingKeys, hself,
        ← map_append, take_append_drop]
    · rw [World.pendingKeys, World.pendingKeys, hothers other (Ne.symm h)]
  · intro other now
    rw [droppedKeys_append hsettlements, hproject]
    by_cases h : projectID = other
    · subst h
      rw [htaken.document, hcounted]
      by_cases hrevision : settlement.revision = none
      · rw [if_pos hrevision, if_pos ⟨rfl, hrevision⟩, length_append]
      · rw [if_neg hrevision, if_neg fun h => hrevision h.2, Nat.add_zero]
    · rw [if_neg fun h' => h h'.1, htaken.others other (Ne.symm h), hinv.counted]
  · intro other now
    rw [revisions_append hsettlements, hproject]
    split_ifs with h
    · subst h
      rw [htaken.document, hnumbered]
    · rw [htaken.others other (Ne.symm h), hinv.numbered other now]

omit [TextRules] in
lemma memoryInv_inserted (hinv : MemoryInv s) {entry : Entry}
    (hnew : ∀ row ∈ s.memory.files, row.id ≠ fileID entry.key) (hcaptured : entry.key ∉ s.captured)
    (hlast : SortsLast s entry)
    (hmemory : s'.memory =
      { s.memory with files := s.memory.files ++ [⟨fileID entry.key, entry.key, entry.timeCreated, entry⟩] })
    (hcaptured' : s'.captured = s.captured ++ [entry.key]) (hsettlements : s'.settlements = s.settlements)
    (hgiven : ∀ projectID now lease, (s'.memory.envelope projectID now).organizerLease = some lease →
      Given s'.history projectID lease) : MemoryInv s' := by
  have hfiles : s'.memory.files = s.memory.files ++ [⟨fileID entry.key, entry.key, entry.timeCreated, entry⟩] := by
    rw [hmemory]
  have hpending : ∀ other, s'.memory.pendingRows other =
      if other = entry.key.projectID then
        s.memory.pendingRows other ++ [⟨fileID entry.key, entry.key, entry.timeCreated, entry⟩]
      else s.memory.pendingRows other := by
    have hlast' : ∀ old ∈ s.memory.pendingRows entry.key.projectID,
        old.orderKey < (⟨fileID entry.key, entry.key, entry.timeCreated, entry⟩ : FileRow).orderKey := hlast
    exact fun other => hinv.rows.pendingRows_append hlast' hfiles
  have henvelope : ∀ other now, s'.memory.envelope other now = s.memory.envelope other now := by
    intro other now
    rw [hmemory]
    rfl
  have hsettled : ∀ other, s'.settledIn other = s.settledIn other := fun other => by
    rw [World.settledIn, hsettlements, World.settledIn]
  refine ⟨⟨?_, ?_, ?_⟩, ?_, ?_, ?_, ?_, hgiven⟩
  · rw [hfiles, map_append, map_singleton]
    refine nodup_append_comm.mp (nodup_cons.mpr ⟨fun hmem => ?_, hinv.rows.nodup⟩)
    obtain ⟨row, hrow, hid⟩ := List.mem_map.mp hmem
    exact hnew row hrow hid
  · intro row hrow
    rw [hfiles] at hrow
    rcases mem_append.mp hrow with hrow | hrow
    · exact hinv.rows.id row hrow
    · rw [mem_singleton.mp hrow]
  · intro row hrow
    rw [hfiles] at hrow
    rcases mem_append.mp hrow with hrow | hrow
    · exact hinv.rows.key row hrow
    · rw [mem_singleton.mp hrow]
  · rw [hcaptured']
    exact nodup_append_comm.mp (nodup_cons.mpr ⟨hcaptured, hinv.nodup⟩)
  · intro other
    rw [World.capturedIn, hcaptured', filter_append, ← World.capturedIn, hinv.queue other, World.pendingKeys,
      World.pendingKeys, hpending, filter_singleton, append_assoc,
      World.settledKeys, World.settledKeys, hsettled]
    by_cases hother : other = entry.key.projectID
    · rw [if_pos hother, decide_eq_true hother.symm, cond_true, map_append, map_singleton]
    · rw [if_neg hother, decide_eq_false (Ne.symm hother), cond_false, List.append_nil]
  · intro other now
    rw [henvelope, World.droppedKeys, hsettled]
    exact hinv.counted other now
  · intro other now
    rw [henvelope, World.revisions, hsettled]
    exact hinv.numbered other now

omit [TextRules] [FileIdentity] in
/-- A capture settles nothing. -/
@[simp] lemma settlementsOf_recorded {before after : Tables} {action : Action} {key : Key} :
    settlementsOf before after action (.recorded key) = [] := by
  cases action <;> rfl

theorem memoryInv_step (hinv : MemoryInv s) (hallowed : Allowed s event) (hstep : step s event = some s') :
    MemoryInv s' := by
  obtain ⟨time, action⟩ := event
  obtain ⟨-, ⟨_, -, rfl⟩ | ⟨_, _, memory, hperform, rfl⟩⟩ := step_cases hstep
  · refine ⟨hinv.rows, hinv.nodup, hinv.queue, hinv.counted, hinv.numbered, fun project now lease hlease => ?_⟩
    refine (hinv.given project now lease hlease).append fun hends => ?_
    cases action <;> exact hends
  · have hgiven := fun project now lease (hlease : (memory.envelope project now).organizerLease = some lease) =>
      given_of_perform hinv hperform hlease
    have hchange := perform_change hperform
    cases hchange with
    | quiet files documents captured settlements =>
      rw [captured, settlements, List.append_nil, List.append_nil]
      have hpending : ∀ project, memory.pendingRows project = s.memory.pendingRows project := fun project => by
        rw [pendingRows, files, pendingRows]
      refine ⟨⟨files ▸ hinv.rows.nodup, files ▸ hinv.rows.id, files ▸ hinv.rows.key⟩, hinv.nodup, ?_, ?_, ?_, hgiven⟩
      · intro project
        rw [World.pendingKeys, hpending]
        exact hinv.queue project
      · intro project now
        exact (documents project now).2.trans (hinv.counted project now)
      · intro project now
        rw [(documents project now).1]
        exact hinv.numbered project now
    | again _ mem _ key =>
      have hcaptured : capturedOf s.captured (.recorded _) = [] := if_pos (key ▸ hinv.captured_of_mem mem)
      rw [hcaptured, settlementsOf_recorded, List.append_nil, List.append_nil]
      exact ⟨hinv.rows, hinv.nodup, hinv.queue, hinv.counted, hinv.numbered, hgiven⟩
    | inserted captures new =>
      obtain ⟨hstill, hlast⟩ := allowed_of_captures hallowed captures
      have hnew : _ ∉ s.captured := fun hmem =>
        (hstill hmem).elim fun row hrow => new row hrow.1 hrow.2
      have hcaptured : capturedOf s.captured (.recorded _) = [_] := if_neg hnew
      rw [hcaptured, settlementsOf_recorded, List.append_nil]
      exact memoryInv_inserted hinv new hnew (hlast hnew) rfl rfl rfl hgiven
    | covered _ taken number revision dropped =>
      refine memoryInv_taken hinv taken (List.append_nil _) rfl rfl rfl ?_ ?_ hgiven
      · rw [hinv.numbered _ time, revision, range'_1_concat, Nat.add_comm 1, ← number]
        rfl
      · rw [dropped, hinv.counted]
        rfl
    | trimmed le taken revision dropped =>
      have hkeys := hinv.rows.removedKeys_taken taken
      refine memoryInv_taken hinv taken (List.append_nil _) rfl rfl rfl ?_ ?_ hgiven
      · rw [hinv.numbered _ time, revision]
        exact List.append_nil _
      · rw [dropped, hinv.counted, Settlement.keys, hkeys, length_map, length_take, Nat.min_eq_left le]
        rfl

/-! ## The law -/

omit [TextRules] [FileIdentity] in
lemma count_settled (settlements : List Settlement) (key : Key) :
    ((settlements.filter fun settlement => settlement.revision ≠ none).flatMap Settlement.keys).count key +
      ((settlements.filter fun settlement => settlement.revision = none).flatMap Settlement.keys).count key =
      (settlements.flatMap Settlement.keys).count key := by
  induction settlements with
  | nil => rfl
  | cons settlement _ ih =>
    rw [flatMap_cons, count_append, ← ih, filter_cons, filter_cons]
    by_cases hrevision : settlement.revision = none
    · simp only [hrevision, ne_eq, not_true_eq_false, decide_false, decide_true, if_true, Bool.false_eq_true, if_false,
        flatMap_cons, count_append]
      omega
    · simp only [hrevision, ne_eq, not_false_eq_true, decide_false, decide_true, if_true, Bool.false_eq_true, if_false,
        flatMap_cons, count_append]
      omega

omit [TextRules] in
/-- The invariant accounts for every captured occurrence. -/
lemma MemoryInv.conserved (h : MemoryInv s) : s.Conserved where
  once := by
    intro project key hkey
    have hnodup : (s.capturedIn project).Nodup := h.nodup.filter _
    have hcount := count_eq_one_of_mem hnodup hkey
    rw [h.queue, count_append, World.settledKeys, ← count_settled] at hcount
    rw [← hcount, World.coveredKeys, World.droppedKeys]
    omega
  counted := fun project => h.counted project s.clock
  numbered := fun project => h.numbered project s.clock

omit [TextRules] in
lemma MemoryInv.filter_capturedIn (h : MemoryInv s) :
    ((s.capturedIn projectID).filter fun key => key ∈ s.pendingKeys projectID) = s.pendingKeys projectID := by
  have hnodup : (s.settledKeys projectID ++ s.pendingKeys projectID).Nodup := h.queue projectID ▸ h.nodup.filter _
  have hdisjoint := (nodup_append.mp hnodup).2.2
  have hsettled : ((s.settledKeys projectID).filter fun key => key ∈ s.pendingKeys projectID) = [] :=
    filter_eq_nil_iff.mpr fun key hkey hmem => hdisjoint key hkey key (of_decide_eq_true hmem) rfl
  rw [h.queue, filter_append, hsettled, nil_append]
  exact filter_eq_self.mpr fun key hkey => decide_eq_true hkey

lemma MemoryInv.commitsInOrder (h : MemoryInv s) : CommitsInOrder s event := by
  intro s' project input result hstep haction hhistory
  obtain ⟨time, action⟩ := event
  obtain rfl : action = .commit project input := haction
  obtain ⟨-, ⟨_, -, rfl⟩ | ⟨outcome, _, _, hperform, rfl⟩⟩ := step_cases hstep
  · have hlast := append_cancel_left hhistory
    cases hlast
  · have hlast := append_cancel_left hhistory
    obtain rfl : outcome = .organized result true := congrArg Prod.snd (cons.inj hlast).1
    have hchange := perform_change hperform
    cases hchange with
    | quiet _ _ _ settlements => cases settlements
    | covered owned taken =>
      obtain ⟨lease, hlease, hid, -, -, hlive⟩ := owned
      refine ⟨⟨lease, h.given project time lease hlease, hid, hlive⟩, _, rfl, ?_⟩
      rw [h.filter_capturedIn, h.rows.removedKeys_taken taken]
      exact ( take_prefix _ _).map FileRow.key

lemma MemoryInv.persistsAgain (h : MemoryInv s) (hallowed : Allowed s event) : PersistsAgain s event := by
  intro s' info parts hstep haction hcaptured
  obtain ⟨time, action⟩ := event
  obtain rfl : action = .persistMessage info parts true := haction
  have hsuccess : ∃ outcome transcript,
      perform s.transcript s.memory time (.persistMessage info parts true) = .ok (outcome, transcript, s.memory) ∧
        ∀ error, outcome ≠ .failed error := by
    unfold Allowed at hallowed
    dsimp only at hallowed
    cases hentry : (s.transcript.persistRows info parts time).2.messageEntry
        (s.transcript.persistRows info parts time).1 parts with
    | error error =>
      rw [hentry] at hallowed
      exact absurd hcaptured hallowed
    | ok found =>
      rw [hentry] at hallowed
      cases found with
      | none =>
        refine ⟨.runtimeInternal, (s.transcript.persistRows info parts time).2,
          throwWhen_bind_eq_ok.mpr ⟨Bool.false_ne_true ∘ Eq.symm, ?_⟩, fun _ h => by cases h⟩
        exact bind_eq_ok.mpr ⟨none, hentry, rfl⟩
      | some entry =>
        obtain ⟨_, hrow, hid, hcontent⟩ := hallowed.1 hcaptured
        have hinsert := h.rows.insert_of_mem hrow hid hcontent
        refine ⟨.recorded entry.key, (s.transcript.persistRows info parts time).2,
          throwWhen_bind_eq_ok.mpr ⟨Bool.false_ne_true ∘ Eq.symm, ?_⟩, fun _ h => by cases h⟩
        exact bind_eq_ok.mpr ⟨some entry, hentry, bind_eq_ok.mpr ⟨_, hinsert, rfl⟩⟩
  obtain ⟨_, _, hperform, hanswered⟩ := hsuccess
  obtain ⟨-, ⟨error, herror, rfl⟩ | ⟨_, _, _, hperform', rfl⟩⟩ := step_cases hstep
  · rw [hperform] at herror
    cases herror
  · rw [hperform] at hperform'
    cases hperform'
    exact ⟨fun error hhistory => hanswered error (congrArg Prod.snd (cons.inj (append_cancel_left hhistory)).1),
      rfl⟩

/-- Along every run whose captures are allowed the project memory conserves evidence: every captured occurrence is
pending once, covered by one revision or counted as dropped; commits cover what is pending in the order of capture,
under a lease that is held; and a captured Message is persisted again without a new entry. -/
theorem memory_conserves_evidence {transcript : Transcript} {events : List Event}
    (hallowed : Within step Allowed (World.initial transcript) events)
    (hrun : exec step (World.initial transcript) events = some s) :
    s.Conserved ∧
      Within step (fun s event => CommitsInOrder s event ∧ PersistsAgain s event) (World.initial transcript) events := by
  have hstep : ∀ ⦃s event s'⦄, MemoryInv s → Allowed s event → step s event = some s' → MemoryInv s' :=
    fun _ _ _ hinv hok hstep => memoryInv_step hinv hok hstep
  have hinitial := memoryInv_initial transcript
  refine ⟨(Within.exec hstep hinitial hallowed hrun).conserved, ?_⟩
  exact Within.of_invariant hstep (fun _ _ hinv hok => ⟨hinv.commitsInOrder, hinv.persistsAgain hok⟩) hinitial hallowed

/-- The occurrences of a Project leave its pending entries in the order in which they were captured. -/
theorem memory_queues {transcript : Transcript} {events : List Event}
    (hallowed : Within step Allowed (World.initial transcript) events)
    (hrun : exec step (World.initial transcript) events = some s) (projectID : String) :
    s.capturedIn projectID = s.settledKeys projectID ++ s.pendingKeys projectID := by
  have hstep : ∀ ⦃s event s'⦄, MemoryInv s → Allowed s event → step s event = some s' → MemoryInv s' :=
    fun _ _ _ hinv hok hstep => memoryInv_step hinv hok hstep
  exact (Within.exec hstep (memoryInv_initial transcript) hallowed hrun).queue projectID

end Invariant

/-! ## Two runs -/

instance plainTexts : TextRules where
  sanitizeText := id
  sanitizeJSON := id
  deriveTitle := id
  displayFilename := fun filename _ _ => filename.getD "attachment"
  nameFromUrl := fun _ => none
  estimate := String.length

instance occurrenceIdentity : FileIdentity where
  fileID := fun key => key.projectID ++ "/" ++ key.occurrenceID

def oneSession (title : String) : Transcript where
  sessions := [⟨"ses_1", "prj_1", none, title⟩]
  tasks := []
  messages := []
  parts := []

def request : Info := ⟨"msg_1", "ses_1", .user, "user", 10, some ⟨"prompt", "Ship it"⟩, ""⟩

def organizedRun : List Event :=
  [⟨10, .persistMessage request [] true⟩, ⟨11, .begin "prj_1" "lease_1" 0 none⟩,
    ⟨12, .commit "prj_1" ⟨"lease_1", 0, ["msg_1"], "Ship it", none⟩⟩]

lemma allowed_initial [TextRules] [FileIdentity] (transcript : Transcript) (event : Event) :
    Allowed (World.initial transcript) event := by
  have hnone : ∀ id, ¬(World.initial transcript).Captured id := fun id ⟨_, h, _⟩ => not_mem_nil h
  have hlast : ∀ entry, SortsLast (World.initial transcript) entry := fun entry row hrow =>
    absurd (mem_pendingRows.mp hrow).1 not_mem_nil
  unfold Allowed
  split
  · dsimp only
    split
    · exact hnone _
    · trivial
    · exact ⟨fun h => absurd h (hnone _), fun _ => hlast _⟩
  · split
    · trivial
    · exact ⟨fun h => absurd h not_mem_nil, fun _ => hlast _⟩
  · trivial

/-- A Message is captured and organised, and its evidence is conserved. -/
theorem memory_conserves_organized :
    ∃ s, exec step (World.initial (oneSession "Alpha")) organizedRun = some s ∧ s.revisions "prj_1" = [1] ∧ s.Conserved := by
  have hrun : (exec step (World.initial (oneSession "Alpha")) organizedRun).map (fun s => s.revisions "prj_1") = some [1] := by
    decide +kernel
  obtain ⟨s, hs, hrevisions⟩ := map_eq_some_iff.mp hrun
  have hallowed : Within step Allowed (World.initial (oneSession "Alpha")) organizedRun :=
    ⟨allowed_initial _ _, fun _ _ => ⟨trivial, fun _ _ => ⟨trivial, fun _ _ => trivial⟩⟩⟩
  exact ⟨s, hs, hrevisions, (memory_conserves_evidence hallowed hs).1⟩

theorem memory_queues_organized : ∃ s, exec step (World.initial (oneSession "Alpha")) organizedRun = some s ∧
    s.capturedIn "prj_1" = s.settledKeys "prj_1" ++ s.pendingKeys "prj_1" := by
  obtain ⟨s, hs⟩ := Option.isSome_iff_exists.mp
    (show (exec step (World.initial (oneSession "Alpha")) organizedRun).isSome by decide +kernel)
  have hallowed : Within step Allowed (World.initial (oneSession "Alpha")) organizedRun :=
    ⟨allowed_initial _ _, fun _ _ => ⟨trivial, fun _ _ => ⟨trivial, fun _ _ => trivial⟩⟩⟩
  exact ⟨s, hs, memory_queues hallowed hs _⟩

def renamedRun : List Event :=
  [⟨10, .persistMessage request [] true⟩, ⟨11, .write { oneSession "Beta" with messages := [request] }⟩]

/-- A captured Message cannot be persisted again after its Session was renamed. -/
theorem not_persistsAgain_renamed : ∃ s, exec step (World.initial (oneSession "Alpha")) renamedRun = some s ∧
      ¬PersistsAgain s ⟨12, .persistMessage request [] true⟩ := by
  have hrun : ((exec step (World.initial (oneSession "Alpha")) renamedRun).bind fun s =>
      (step s ⟨12, .persistMessage request [] true⟩).map fun s' => (s.captured, s'.history.getLast?.map Prod.snd)) =
      some ([⟨"prj_1", .message, "msg_1"⟩], some (.failed (.invariant "msg_1"))) := by
    decide +kernel
  obtain ⟨s, hs, hnext⟩ := bind_eq_some_iff.mp hrun
  obtain ⟨s', hstep, hfacts⟩ := map_eq_some_iff.mp hnext
  obtain ⟨hcaptured, hlast⟩ := Prod.mk.inj hfacts
  refine ⟨s, hs, fun hagain => ?_⟩
  have hkey : s.Captured "msg_1" := ⟨⟨"prj_1", .message, "msg_1"⟩, hcaptured ▸ mem_cons_self, rfl, rfl⟩
  obtain ⟨outcome, hhistory⟩ : ∃ outcome, s'.history =
      s.history ++ [(⟨12, .persistMessage request [] true⟩, outcome)] := by
    obtain ⟨-, ⟨_, -, rfl⟩ | ⟨_, _, _, -, rfl⟩⟩ := step_cases hstep
    · exact ⟨_, rfl⟩
    · exact ⟨_, rfl⟩
  rw [hhistory, getLast?_concat, map_some, some.injEq] at hlast
  obtain rfl : outcome = .failed (.invariant "msg_1") := hlast
  exact (hagain s' request [] hstep rfl hkey).1 _ hhistory

end OpenCorvus.Memory
