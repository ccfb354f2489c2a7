import OpenCorvus.Session.Transcript

/-!
# Forking a Session

`fork` clones the Messages of a Session up to a given one into a new Session: it walks the transcript in
chronological order, gives every clone a new id, looks the parent of an assistant up among the Messages cloned
so far, and persists all clones in one transaction.
-/

namespace OpenCorvus.Session

open EcmaScript

variable {δ : Type}

/-- The ids that `Identifier.ascending` hands out for Messages and for Parts, in the order of the calls. -/
structure IdentifierSupply where
  message : ℕ → String
  part : ℕ → String

/-- The clone of an assistant's fields: its parent is replaced where `idMap` has it. -/
def cloneAssistant (idMap : List (String × String)) (assistant : Assistant) : Assistant :=
  let parentID := if assistant.parentID = "" then none else idMap.lookup assistant.parentID
  match parentID.filter (· ≠ "") with
  | some parentID => { assistant with parentID }
  | none => assistant

def cloneMessage (sessionID newID : String) (partIDs : ℕ → String) (idMap : List (String × String))
    (msg : Message δ) : Message δ :=
  { id := newID
    sessionID
    created := msg.created
    assistant := msg.assistant.map (cloneAssistant idMap)
    fields := msg.fields
    parts := msg.parts.mapIdx fun j part => { part with id := partIDs j } }

/-- The loop of `fork` over the Messages, with the numbers of ids handed out so far. -/
def cloneLoop (supply : IdentifierSupply) (sessionID : String) (messageID : Option String) :
    ℕ → ℕ → List (String × String) → List (Message δ) → List (Message δ)
  | _, _, _, [] => []
  | n, k, idMap, msg :: rest =>
    if messageID.any fun cut => (codeUnitCompare msg.id cut).isGE then []
    else
      let newID := supply.message n
      let idMap := (msg.id, newID) :: idMap
      cloneMessage sessionID newID (fun j => supply.part (k + j)) idMap msg ::
        cloneLoop supply sessionID messageID (n + 1) (k + msg.parts.length) idMap rest

/-- The clones are persisted one after the other; `clock` are the readings of the clock, one for each Part. -/
def persistClones (clock : ℕ → ℕ) :
    ℕ → List (MessageRow δ) → List (Message δ) → Except PersistError (List (MessageRow δ))
  | _, rows, [] => .ok rows
  | k, rows, msg :: rest => do
    let rows ← persistNewMessage rows msg fun j => clock (k + j)
    persistClones clock (k + msg.parts.length) rows rest

def fork [Collation] (supply : IdentifierSupply) (clock : ℕ → ℕ) (sessionID : String)
    (original : List (MessageRow δ)) (messageID : Option String) : Except PersistError (List (MessageRow δ)) :=
  persistClones clock 0 [] (cloneLoop supply sessionID messageID 0 0 [] (messages original))

end OpenCorvus.Session
