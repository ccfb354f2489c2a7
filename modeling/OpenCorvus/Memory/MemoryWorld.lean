import OpenCorvus.Foundation.ExecutableSystem
import OpenCorvus.Memory.ProjectMemory

/-!
# Runs of the project memory

Messages are persisted and occurrences captured while organizers begin, commit and release their attempts and other
services write the transcript, each in a transaction and under one clock.  A world keeps the tables and what an
observer sees: which occurrences were captured, how they left the pending entries, and what each call answered.
-/

namespace OpenCorvus.Memory

open OrderBy Transaction

namespace Transcript

variable (t : Transcript)

/-- The creation time under which a Message is stored. -/
def persistedCreated (info : Info) : ℕ :=
  match t.messages.find? fun row => row.id = info.id with
  | some row => row.created
  | none =>
    match (orderBy Info.orderKey (t.messages.filter fun row => row.sessionID = info.sessionID)).getLast? with
    | some latest => max info.created (latest.created + 1)
    | none => info.created

def upsertMessageRow (info : Info) : Transcript :=
  if t.messages.any fun row => row.id = info.id then
    { t with messages := t.messages.map fun row =>
        if row.id = info.id then { info with sessionID := row.sessionID, created := row.created } else row }
  else { t with messages := t.messages ++ [{ info with created := t.persistedCreated info }] }

def updatePartRow (messageID : String) (time : ℕ) (part : Part) : Transcript :=
  if t.parts.any fun row => row.part.id = part.id then
    { t with parts := t.parts.map fun row => if row.part.id = part.id then { row with part } else row }
  else { t with parts := t.parts ++ [⟨part, messageID, time⟩] }

/-- `persistMessageBundleRows`, before the capture: the Message as it is stored, and the transcript. -/
def persistRows (info : Info) (parts : List Part) (time : ℕ) : Info × Transcript :=
  let persisted := { info with created := t.persistedCreated info }
  (persisted, parts.foldl (fun t part => t.updatePartRow info.id (max time persisted.created) part)
    (t.upsertMessageRow info))

end Transcript

/-- One transaction.  Of persisting a Message, `admitted` says that its other checks pass; `write` is any write of
other services. -/
inductive Action where
  | persistMessage (info : Info) (parts : List Part) (admitted : Bool)
  | captureOccurrence (input : Transcript.OccurrenceInput)
  | setStatus (projectID : String) (input : StatusInput)
  | begin (projectID leaseID : String) (expectedRevision : ℕ) (leaseTtl : Option ℕ)
  | release (projectID leaseID : String)
  | invalidate (projectID : String)
  | acknowledge (projectID generation : String)
  | markUnavailable (projectID : String) (input : UnavailableInput)
  | commit (projectID : String) (input : CommitInput)
  | read (projectID : String)
  | write (transcript : Transcript)

/-- What a transaction answers.  Of a commit, `revised` says that it made a new revision. -/
inductive Outcome where
  | failed (error : MemoryError)
  | runtimeInternal
  | recorded (key : Key)
  | answered (value : Bool)
  | leased (lease : Option Lease)
  | generation (value : ℕ)
  | unavailable (applied : Bool) (droppedOccurrenceIDs : List String)
  | organized (result : Organized) (revised : Bool)
  | done
deriving DecidableEq

structure Event where
  time : ℕ
  action : Action

/-- How occurrences leave the pending entries. -/
inductive Settlement where
  | covered (projectID : String) (revision : ℕ) (keys : List Key)
  | dropped (projectID : String) (keys : List Key)

structure World where
  clock : ℕ
  transcript : Transcript
  memory : Tables
  captured : List Key
  settlements : List Settlement
  history : List (Event × Outcome)

section Step

variable [TextRules] [FileIdentity]

/-- Capture what a Message or an occurrence makes of the transcript. -/
def record (memory : Tables) (transcript : Transcript) (entry : Entry) :
    Except MemoryError (Outcome × Transcript × Tables) := do
  let memory ← memory.insert entry
  return (.recorded entry.key, transcript, memory)

def perform (transcript : Transcript) (memory : Tables) (time : ℕ) :
    Action → Except MemoryError (Outcome × Transcript × Tables)
  | .persistMessage info parts admitted => do
    throwWhen (admitted = false) .refused
    let persisted := transcript.persistRows info parts time
    let entry ← persisted.2.messageEntry persisted.1 parts
    match entry with
    | none => return (.runtimeInternal, persisted.2, memory)
    | some entry => record memory persisted.2 entry
  | .captureOccurrence input => do
    let entry ← transcript.occurrenceEntry input
    record memory transcript entry
  | .setStatus projectID input => do
    let answer ← memory.setStatus projectID time input
    return (.answered answer.1, transcript, answer.2)
  | .begin projectID leaseID expectedRevision leaseTtl => do
    let answer ← memory.beginOrganizerAttempt projectID time leaseID expectedRevision leaseTtl
    return (.leased answer.1, transcript, answer.2)
  | .release projectID leaseID =>
    let answer := memory.releaseOrganizerAttempt projectID time leaseID
    .ok (.answered answer.1, transcript, answer.2)
  | .invalidate projectID =>
    let answer := memory.invalidateOrganizerAvailability projectID time
    .ok (.generation answer.1, transcript, answer.2)
  | .acknowledge projectID generation =>
    let answer := memory.acknowledgeNotice projectID time generation
    .ok (.answered answer.1, transcript, answer.2)
  | .markUnavailable projectID input => do
    let answer ← memory.markUnavailableAndTrim projectID time input
    return (.unavailable answer.1.1 answer.1.2, transcript, answer.2)
  | .commit projectID input => do
    let answer ← memory.commitOrganization projectID time input
    return (.organized answer.1
      (decide ((answer.2.envelope projectID time).revision ≠ (memory.envelope projectID time).revision)),
      transcript, answer.2)
  | .read projectID => .ok (.done, transcript, memory.openEnvelope projectID time)
  | .write transcript => .ok (.done, transcript, memory)

omit [TextRules] [FileIdentity] in
lemma answer_inj {outcome outcome' : Outcome} {t t' : Transcript} {m m' : Tables}
    (h : (.ok (outcome, t, m) : Except MemoryError _) = .ok (outcome', t', m')) : outcome = outcome' ∧ m = m' := by
  obtain ⟨rfl, hrest⟩ := Prod.mk.inj (Except.ok.inj h)
  exact ⟨rfl, (Prod.mk.inj hrest).2⟩

def removedKeys (projectID : String) (before after : Tables) : List Key :=
  ((before.pendingRows projectID).filter fun row => row ∉ after.pendingRows projectID).map FileRow.key

/-- What an observer notes of occurrences that left the pending entries. -/
def settlementsOf (before after : Tables) : Action → Outcome → List Settlement
  | .commit projectID _, .organized result true =>
    [.covered projectID result.revision (removedKeys projectID before after)]
  | .markUnavailable projectID _, .unavailable true _ => [.dropped projectID (removedKeys projectID before after)]
  | _, _ => []

/-- What an observer notes of captured occurrences. -/
def capturedOf (captured : List Key) : Outcome → List Key
  | .recorded key => if key ∈ captured then [] else [key]
  | _ => []

/-- One transaction; the clock does not go back. -/
def step (s : World) (event : Event) : Option World :=
  if event.time < s.clock then none
  else
    match perform s.transcript s.memory event.time event.action with
    | .error error => some { s with clock := event.time, history := s.history ++ [(event, .failed error)] }
    | .ok (outcome, transcript, memory) => some {
        clock := event.time
        transcript
        memory
        captured := s.captured ++ capturedOf s.captured outcome
        settlements := s.settlements ++ settlementsOf s.memory memory event.action outcome
        history := s.history ++ [(event, outcome)] }

end Step

def World.initial (transcript : Transcript) : World where
  clock := 0
  transcript
  memory := ⟨[], fun _ => none⟩
  captured := []
  settlements := []
  history := []

namespace Settlement

def projectID : Settlement → String
  | covered projectID _ _ => projectID
  | dropped projectID _ => projectID

/-- The occurrences that were settled. -/
def keys : Settlement → List Key
  | covered _ _ keys => keys
  | dropped _ keys => keys

def revision : Settlement → Option ℕ
  | covered _ revision _ => some revision
  | dropped _ _ => none

end Settlement

namespace World

variable (s : World) (projectID : String)

def capturedIn : List Key := s.captured.filter fun key => key.projectID = projectID

def pendingKeys : List Key := (s.memory.pendingRows projectID).map FileRow.key

def settledIn : List Settlement :=
  s.settlements.filter fun settlement => settlement.projectID = projectID

/-- The occurrences that left the pending entries of a Project. -/
def settledKeys : List Key := (s.settledIn projectID).flatMap Settlement.keys

def revisions : List ℕ := (s.settledIn projectID).filterMap Settlement.revision

def droppedKeys : List Key :=
  ((s.settledIn projectID).filter fun settlement => settlement.revision = none).flatMap Settlement.keys

end World

end OpenCorvus.Memory
