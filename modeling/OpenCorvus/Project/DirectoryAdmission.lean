import Mathlib.Data.List.Infix
import OpenCorvus.Foundation.Transaction
import OpenCorvus.Foundation.UniqueIndex

/-!
# Admissions to project directories

An operation on a directory first takes a row of the table of admissions, under the key of the directory and a
fresh generation.  No other operation is admitted to a directory that overlaps the directory of a row, until the
row is settled or the process that owns it has ended.
-/

namespace OpenCorvus.Project

open Transaction UniqueIndex

abbrev DirectoryKey := List String

def contains (parent child : DirectoryKey) : Prop := parent <+: child

instance (parent child : DirectoryKey) : Decidable (contains parent child) :=
  inferInstanceAs (Decidable (parent <+: child))

/-- A recursive change of one directory meets the other one. -/
def Overlaps (left right : DirectoryKey) : Prop := contains left right ∨ contains right left

instance (left right : DirectoryKey) : Decidable (Overlaps left right) := inferInstanceAs (Decidable (_ ∨ _))

structure RuntimeProcessOccurrenceInfo where
  pid : ℕ
  processInstanceID : String
  occurrenceID : String
deriving DecidableEq

/-- What an operation does with its directory. -/
inductive AdmissionKind where
  | registration
  | reclamation
  | promotionRestore
  | promotionPublish
  | promotionWorkspace
deriving DecidableEq

def AdmissionKind.text : AdmissionKind → String
  | registration => "registration"
  | reclamation => "reclamation"
  | promotionRestore => "promotion_restore"
  | promotionPublish => "promotion_publish"
  | promotionWorkspace => "promotion_workspace"

/-- A row of the table. -/
structure ProjectDirectoryAdmission where
  /-- Primary key. -/
  directoryKey : DirectoryKey
  directory : String
  /-- Unique. -/
  generation : String
  operationID : String
  kind : AdmissionKind
  owner : RuntimeProcessOccurrenceInfo
  timeCreated : ℤ
deriving DecidableEq

structure DirectoryOccurrence where
  device : String
  inode : String
  birthtimeNs : String
  directoryKey : DirectoryKey
deriving DecidableEq

/-- What an acquisition answers with. -/
structure Token where
  directoryKey : DirectoryKey
  directory : String
  generation : String
  operationID : String
  kind : AdmissionKind
  owner : RuntimeProcessOccurrenceInfo
  occurrence : Option DirectoryOccurrence

def tokenOf (row : ProjectDirectoryAdmission) (occurrence : Option DirectoryOccurrence) : Token :=
  ⟨row.directoryKey, row.directory, row.generation, row.operationID, row.kind, row.owner, occurrence⟩

inductive AdmissionError where
  /-- Another operation owns the directory. -/
  | closed (directory operationID : String) (kind : AdmissionKind) (message : String)
  | error (message : String)
  | database (message : String)
deriving DecidableEq

def closed (row : ProjectDirectoryAdmission) : AdmissionError :=
  .closed row.directory row.operationID row.kind ("Project directory " ++ row.directory ++ " is owned by " ++
    row.kind.text ++ " operation " ++ row.operationID)

def Token.Selects (token : Token) (row : ProjectDirectoryAdmission) : Prop :=
  row.directoryKey = token.directoryKey ∧ row.generation = token.generation ∧ row.operationID = token.operationID

instance (token : Token) (row : ProjectDirectoryAdmission) : Decidable (token.Selects row) :=
  inferInstanceAs (Decidable (_ ∧ _))

def assertOwned (rows : List ProjectDirectoryAdmission) (token : Token) : Except AdmissionError Unit :=
  throwWhen (∀ row ∈ rows.find? fun row => token.Selects row, row.kind ≠ token.kind ∨ row.owner ≠ token.owner)
    (.error ("Project directory admission " ++ token.operationID ++ "/" ++ token.generation ++
      " is no longer authoritative"))

def settleMany (rows : List ProjectDirectoryAdmission) (tokens : List Token)
    (mutation : Except AdmissionError Unit) : Except AdmissionError (List ProjectDirectoryAdmission) := do
  tokens.forM (assertOwned rows)
  mutation
  return rows.filter fun row => ∀ token ∈ tokens, ¬token.Selects row

structure AcquireInput where
  /-- The resolved path. -/
  directory : String
  /-- The key that it has when the acquisition begins. -/
  directoryKey : DirectoryKey
  operationID : String
  kind : AdmissionKind
  occurrence : Option DirectoryOccurrence
  expectedDirectoryKey : Option DirectoryKey
deriving DecidableEq

inductive RuntimeProcessOccurrenceObservation where
  | exactLive
  | deadOrReused
  | unknownLive
deriving DecidableEq

structure Acquisition where
  owner : RuntimeProcessOccurrenceInfo
  input : AcquireInput
  /-- The overlapping row that was seen. -/
  observed : Option ProjectDirectoryAdmission
  /-- What was seen of its owner, if this is another process. -/
  ownerObservation : Option RuntimeProcessOccurrenceObservation
deriving DecidableEq

/-- The key of the directory has not changed. -/
def AcquireInput.check (input : AcquireInput) : Except AdmissionError Unit := do
  throwWhen (∃ expected ∈ input.expectedDirectoryKey, expected ≠ input.directoryKey)
    (.closed input.directory input.operationID input.kind
      ("Project directory key changed before admission: " ++ input.directory))
  throwWhen (∃ occurrence ∈ input.occurrence, occurrence.directoryKey ≠ input.directoryKey)
    (.error ("Project directory occurrence does not match admission key: " ++ input.directory))

def AcquireInput.observe (input : AcquireInput) (owner : RuntimeProcessOccurrenceInfo)
    (found : Option ProjectDirectoryAdmission) (observation : RuntimeProcessOccurrenceObservation) :
    Acquisition where
  owner := owner
  input := input
  observed := found
  ownerObservation := (found.filter fun row => row.owner ≠ owner).map fun _ => observation

namespace Acquisition

variable (acquisition : Acquisition)

def RecoversExactOperation : Prop :=
  (∃ row ∈ acquisition.observed, row.directoryKey = acquisition.input.directoryKey ∧
    row.operationID = acquisition.input.operationID ∧ row.kind = acquisition.input.kind) ∧
    acquisition.ownerObservation = some .deadOrReused

instance : Decidable acquisition.RecoversExactOperation := inferInstanceAs (Decidable (_ ∧ _))

def DiscardsDeadRegistration : Prop :=
  (∃ row ∈ acquisition.observed, row.kind = .registration) ∧ acquisition.ownerObservation = some .deadOrReused

instance : Decidable acquisition.DiscardsDeadRegistration := inferInstanceAs (Decidable (_ ∧ _))

def IsOwn (current : ProjectDirectoryAdmission) : Prop :=
  current.directoryKey = acquisition.input.directoryKey ∧
    current.operationID = acquisition.input.operationID ∧ current.kind = acquisition.input.kind ∧
    current.owner = acquisition.owner

instance (current : ProjectDirectoryAdmission) : Decidable (acquisition.IsOwn current) :=
  inferInstanceAs (Decidable (_ ∧ _))

def MayReplace (current : ProjectDirectoryAdmission) : Prop :=
  acquisition.observed.map ProjectDirectoryAdmission.generation = some current.generation ∧
    (acquisition.RecoversExactOperation ∨ acquisition.DiscardsDeadRegistration)

instance (current : ProjectDirectoryAdmission) : Decidable (acquisition.MayReplace current) :=
  inferInstanceAs (Decidable (_ ∧ _))

def row (generation : String) (timeCreated : ℤ) : ProjectDirectoryAdmission where
  directoryKey := acquisition.input.directoryKey
  directory := acquisition.input.directory
  generation := generation
  operationID := acquisition.input.operationID
  kind := acquisition.input.kind
  owner := acquisition.owner
  timeCreated := timeCreated

end Acquisition

def insertAdmission (rows : List ProjectDirectoryAdmission) (row : ProjectDirectoryAdmission) :
    Except AdmissionError (List ProjectDirectoryAdmission) := do
  throwWhen (∃ other ∈ rows, other.directoryKey = row.directoryKey)
    (.database "UNIQUE constraint failed: project_directory_admission.directory_key")
  throwWhen (∃ other ∈ rows, other.generation = row.generation)
    (.database "UNIQUE constraint failed: project_directory_admission.generation")
  return rows ++ [row]

/-- The answer to an acquisition. -/
inductive AcquireOutcome where
  /-- The caller found an owner in the registry. -/
  | owned
  | acquired (token : Token)

def without (rows : List ProjectDirectoryAdmission) (current : ProjectDirectoryAdmission) :
    List ProjectDirectoryAdmission :=
  rows.filter fun other => ¬(other.directoryKey = current.directoryKey ∧ other.generation = current.generation)

def Acquisition.publish (acquisition : Acquisition) (rows : List ProjectDirectoryAdmission)
    (generation : String) (timeCreated : ℤ) :
    Except AdmissionError (AcquireOutcome × List ProjectDirectoryAdmission) := do
  let row := acquisition.row generation timeCreated
  let inserted ← insertAdmission rows row
  return (.acquired (tokenOf row acquisition.input.occurrence), inserted)

/-- The transaction of an acquisition; `current` is the overlapping row that it finds. -/
def acquire (rows : List ProjectDirectoryAdmission) (acquisition : Acquisition) (hasOwner : Bool)
    (current : Option ProjectDirectoryAdmission) (generation : String) (timeCreated : ℤ) :
    Except AdmissionError (AcquireOutcome × List ProjectDirectoryAdmission) :=
  if hasOwner then .ok (.owned, rows)
  else
    match current with
    | none => acquisition.publish rows generation timeCreated
    | some current =>
      if acquisition.IsOwn current then
        .ok (.acquired (tokenOf current acquisition.input.occurrence), rows)
      else if acquisition.MayReplace current then
        acquisition.publish (without rows current) generation timeCreated
      else .error (closed current)

def rowsAfter (rows : List ProjectDirectoryAdmission)
    (answer : Except AdmissionError (AcquireOutcome × List ProjectDirectoryAdmission)) :
    List ProjectDirectoryAdmission :=
  match answer with
  | .ok answer => answer.2
  | .error _ => rows

structure AdmissionWorld where
  rows : List ProjectDirectoryAdmission
  ended : List RuntimeProcessOccurrenceInfo
  pending : List Acquisition
  /-- The generations that were made; none is made twice. -/
  generations : List String

def AdmissionWorld.empty : AdmissionWorld := ⟨[], [], [], []⟩

def Finds (rows : List ProjectDirectoryAdmission) (directoryKey : DirectoryKey) :
    Option ProjectDirectoryAdmission → Prop
  | none => ∀ row ∈ rows, ¬Overlaps row.directoryKey directoryKey
  | some row => row ∈ rows ∧ Overlaps row.directoryKey directoryKey

instance (rows : List ProjectDirectoryAdmission) (directoryKey : DirectoryKey)
    (found : Option ProjectDirectoryAdmission) : Decidable (Finds rows directoryKey found) := by
  unfold Finds
  split <;> infer_instance

/-- What processes do. -/
inductive AdmissionAction where
  /-- An acquisition looks for an overlapping row and observes its owner. -/
  | observe (owner : RuntimeProcessOccurrenceInfo) (input : AcquireInput)
      (found : Option ProjectDirectoryAdmission) (observation : RuntimeProcessOccurrenceObservation)
  /-- An acquisition under way runs its transaction. -/
  | acquire (acquisition : Acquisition) (hasOwner : Bool) (current : Option ProjectDirectoryAdmission)
      (generation : String) (timeCreated : ℤ)
  | settleMany (tokens : List Token) (mutation : Except AdmissionError Unit)
  /-- A process ends, in its own time or by a crash. -/
  | finish (owner : RuntimeProcessOccurrenceInfo)

def admissionStep (s : AdmissionWorld) : AdmissionAction → Option AdmissionWorld
  | .observe owner input found observation =>
    if owner ∉ s.ended ∧ input.check = .ok () ∧ Finds s.rows input.directoryKey found ∧
        (observation = .deadOrReused → ∀ row ∈ found, row.owner ∈ s.ended) then
      some { s with pending := s.pending ++ [input.observe owner found observation] }
    else none
  | .acquire acquisition hasOwner current generation timeCreated =>
    if acquisition ∈ s.pending ∧ acquisition.owner ∉ s.ended ∧
        Finds s.rows acquisition.input.directoryKey current ∧ generation ∉ s.generations then
      some { s with
        pending := s.pending.erase acquisition
        generations := generation :: s.generations
        rows := rowsAfter s.rows (acquire s.rows acquisition hasOwner current generation timeCreated) }
    else none
  | .settleMany tokens mutation =>
    some { s with rows := match settleMany s.rows tokens mutation with
      | .ok rows => rows
      | .error _ => s.rows }
  | .finish owner => some { s with ended := owner :: s.ended }

end OpenCorvus.Project
