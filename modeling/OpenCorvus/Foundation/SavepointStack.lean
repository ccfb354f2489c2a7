import Mathlib.Data.List.Basic

/-!
# Connections with savepoints

A connection to a database that serialises its writers: what it has written and not committed stands in layers, one
for the transaction and one for every open savepoint.  A write goes to the top layer, and to the database itself when
no transaction is open.  The release of a savepoint adds its layer to the one below, and commits when there is none.
-/

namespace SavepointStack

variable {ρ : Type*}

structure Connection (ρ : Type*) where
  durable : List ρ
  layers : List (List ρ)

namespace Connection

variable (c : Connection ρ)

/-- No transaction is open. -/
def Idle : Prop := c.layers = []

variable (rows : List ρ)

def append : Connection ρ :=
  match c.layers with
  | [] => { c with durable := c.durable ++ rows }
  | top :: below => { c with layers := (top ++ rows) :: below }

/-- Open a layer: that of a transaction when none is open, and of a savepoint. -/
def push : Connection ρ := { c with layers := [] :: c.layers }

def release : Connection ρ :=
  match c.layers with
  | [] => c
  | [top] => ⟨c.durable ++ top, []⟩
  | top :: next :: below => { c with layers := (next ++ top) :: below }

/-- Close the top layer and drop what it holds. -/
def discard : Connection ρ := { c with layers := c.layers.tail }

def rollbackTo : Connection ρ :=
  match c.layers with
  | [] => c
  | _ :: below => { c with layers := [] :: below }

variable {c}

@[simp] lemma append_nil : c.append [] = c := by
  obtain ⟨_, layers⟩ := c
  cases layers <;> simp [append]

@[simp] lemma append_append (rows rows' : List ρ) : (c.append rows).append rows' = c.append (rows ++ rows') := by
  obtain ⟨_, layers⟩ := c
  cases layers <;> simp [append]

@[simp] lemma release_append_push : (c.push.append rows).release = c.append rows := by
  obtain ⟨_, layers⟩ := c
  cases layers <;> simp [append, push, release]

@[simp] lemma discard_append_push : (c.push.append rows).discard = c := by
  obtain ⟨_, layers⟩ := c
  cases layers <;> simp [append, push, discard]

@[simp] lemma release_rollbackTo_push : (c.push.append rows).rollbackTo.release = c := by
  obtain ⟨_, layers⟩ := c
  cases layers <;> simp [append, push, rollbackTo, release]

lemma append_of_idle (h : c.Idle) (rows : List ρ) : c.append rows = ⟨c.durable ++ rows, []⟩ := by
  obtain ⟨_, _⟩ := c
  unfold Idle at h
  simp only at h
  subst h
  rfl

end Connection

end SavepointStack
