import Mathlib.Order.Nat
import OpenCorvus.Foundation.ExecutableSystem

/-!
# The reader and writer lock

The state of `Lock` for one key.  Acquisitions are numbered as they come, and which of them hold a lease is kept for
the statements.
-/

namespace OpenCorvus.Util

open ExecutableSystem

/-- A waiting reader, and whether its `onAcquire` throws. -/
structure ReadWaiter where
  acquisition : ℕ
  throws : Bool

structure Lock where
  readers : ℕ
  writer : Bool
  waitingReaders : List ReadWaiter
  waitingWriters : List ℕ
  acquisitions : ℕ
  readLeases : List ℕ
  writeLeases : List ℕ

namespace Lock

def initial : Lock := ⟨0, false, [], [], 0, [], []⟩

variable (s : Lock)

def grantRead (acquisition : ℕ) : Lock :=
  { s with readers := s.readers + 1, readLeases := acquisition :: s.readLeases }

def grantWrite (acquisition : ℕ) : Lock := { s with writer := true, writeLeases := acquisition :: s.writeLeases }

/-- The loop of `process`.  A reader that throws releases and runs `process` again, which wakes the readers that
the loop would wake. -/
def wakeReaders : List ReadWaiter → Lock → Lock
  | [], s => s
  | reader :: rest, s => wakeReaders rest (if reader.throws then s else s.grantRead reader.acquisition)

def process : Lock :=
  if s.writer = true ∨ 0 < s.readers then s
  else match s.waitingWriters with
    | nextWriter :: rest => grantWrite { s with waitingWriters := rest } nextWriter
    | [] => wakeReaders s.waitingReaders { s with waitingReaders := [] }

inductive Action where
  | read (throws : Bool)
  | write
  | dispose (acquisition : ℕ)
  | cancel (acquisition : ℕ)

/-- The disposal of a lease; there is none to dispose of twice. -/
def dispose (acquisition : ℕ) : Option Lock :=
  if acquisition ∈ s.readLeases then
    some (process { s with readers := s.readers - 1, readLeases := s.readLeases.erase acquisition })
  else if acquisition ∈ s.writeLeases then
    some (process { s with writer := false, writeLeases := s.writeLeases.erase acquisition })
  else none

/-- The state without a waiting acquisition. -/
def withdraw (acquisition : ℕ) : Lock :=
  { s with waitingReaders := s.waitingReaders.eraseP (·.acquisition = acquisition),
           waitingWriters := s.waitingWriters.erase acquisition }

def step : Action → Option Lock
  | .read throws =>
    let next := { s with acquisitions := s.acquisitions + 1 }
    if s.writer = false ∧ s.waitingWriters = [] then
      some (if throws then process next else next.grantRead s.acquisitions)
    else some { next with waitingReaders := s.waitingReaders ++ [⟨s.acquisitions, throws⟩] }
  | .write =>
    let next := { s with acquisitions := s.acquisitions + 1 }
    if s.writer = false ∧ s.readers = 0 then some (next.grantWrite s.acquisitions)
    else some { next with waitingWriters := s.waitingWriters ++ [s.acquisitions] }
  | .dispose acquisition => s.dispose acquisition
  | .cancel acquisition =>
    if acquisition ∈ s.readLeases ++ s.writeLeases then s.dispose acquisition
    else if acquisition ∈ s.waitingReaders.map ReadWaiter.acquisition ++ s.waitingWriters then
      some (s.withdraw acquisition).process
    else some s

/-- There is one writer at most, and no reader beside it. -/
def Excludes : Prop := s.writeLeases.length ≤ 1 ∧ (s.writeLeases ≠ [] → s.readLeases = [])

/-- No reader waits when no writer is held or waiting. -/
def Served : Prop := s.writeLeases = [] → s.waitingWriters = [] → s.waitingReaders = []

/-- The action does not cancel the last waiting writer while readers wait beside readers that hold the lock. -/
def Wakes (action : Action) : Prop :=
  ∀ acquisition, action = .cancel acquisition → s.waitingWriters = [acquisition] → 0 < s.readers → s.waitingReaders = []

structure Counted : Prop where
  readers : s.readers = s.readLeases.length
  writers : s.writeLeases.length = s.writer.toNat
  excludes : s.writer = true → s.readers = 0

/-- Nobody waits for a free lock. -/
def Settled : Prop := s.writer = false → s.readers = 0 → s.waitingWriters = [] ∧ s.waitingReaders = []

variable {s} {s' : Lock}

lemma Counted.writer_eq_false_iff (h : s.Counted) : s.writer = false ↔ s.writeLeases = [] := by
  rw [← List.length_eq_zero_iff, h.writers]
  cases s.writer <;> decide

lemma Counted.excluded (h : s.Counted) : s.Excludes := by
  refine ⟨h.writers ▸ Bool.toNat_le _, fun hwriter => ?_⟩
  have hheld := Bool.of_not_eq_false (mt h.writer_eq_false_iff.mp hwriter)
  exact List.length_eq_zero_iff.mp (h.readers ▸ h.excludes hheld)

lemma Counted.grantRead (h : s.Counted) (hwriter : s.writer = false) (acquisition : ℕ) :
    (s.grantRead acquisition).Counted :=
  ⟨congrArg (· + 1) h.readers, h.writers, fun hheld => absurd (hwriter.symm.trans hheld) Bool.false_ne_true⟩

lemma Counted.grantWrite (h : s.Counted) (hwriter : s.writer = false) (hreaders : s.readers = 0) (acquisition : ℕ) :
    (s.grantWrite acquisition).Counted := by
  refine ⟨h.readers, ?_, fun _ => hreaders⟩
  rw [Lock.grantWrite, h.writer_eq_false_iff.mp hwriter]
  rfl

lemma wakeReaders_spec (waiting : List ReadWaiter) (h : s.Counted) (hwriter : s.writer = false) :
    (wakeReaders waiting s).Counted ∧ (wakeReaders waiting s).writer = false ∧
      (wakeReaders waiting s).waitingWriters = s.waitingWriters ∧
      (wakeReaders waiting s).waitingReaders = s.waitingReaders := by
  induction waiting generalizing s with
  | nil => exact ⟨h, hwriter, rfl, rfl⟩
  | cons reader rest ih =>
    rw [wakeReaders]
    split
    · exact ih h hwriter
    · exact ih (h.grantRead hwriter _) hwriter

/-- What `process` leaves, whoever it wakes. -/
lemma process_spec (h : s.Counted) : s.process.Counted ∧ s.process.Settled ∧
    (s.Served ∨ s.readers = 0 → s.process.Served) := by
  unfold process
  split
  case isTrue hheld =>
    refine ⟨h, fun hwriter hreaders => ?_, fun hserved => ?_⟩
    · simp [hwriter, hreaders] at hheld
    · refine hserved.elim id fun hreaders hwriter => ?_
      simp [h.writer_eq_false_iff.mpr hwriter, hreaders] at hheld
  case isFalse hfree =>
    have hwriter : s.writer = false := Bool.of_not_eq_true fun hheld => hfree (.inl hheld)
    have hreaders : s.readers = 0 := Nat.eq_zero_of_not_pos fun hheld => hfree (.inr hheld)
    split
    case h_1 nextWriter rest _ =>
      have hrest : Counted { s with waitingWriters := rest } := ⟨h.readers, h.writers, h.excludes⟩
      exact ⟨hrest.grantWrite hwriter hreaders nextWriter, nofun, nofun⟩
    case h_2 hwriters =>
      obtain ⟨hcounted, -, hwriters', hreaders'⟩ := wakeReaders_spec (s := { s with waitingReaders := [] }) s.waitingReaders
        ⟨h.readers, h.writers, h.excludes⟩ hwriter
      exact ⟨hcounted, fun _ _ => ⟨hwriters'.trans hwriters, hreaders'⟩, fun _ _ _ => hreaders'⟩

lemma dispose_spec {acquisition : ℕ} (h : s.Counted) (hstep : s.dispose acquisition = some s') :
    s'.Counted ∧ s'.Settled ∧ (s.Served → s'.Served) := by
  unfold dispose at hstep
  split_ifs at hstep with hread hwrite <;> obtain rfl := Option.some.inj hstep
  · have hcounted : Counted { s with readers := s.readers - 1, readLeases := s.readLeases.erase acquisition } := by
      refine ⟨?_, h.writers, fun hwriter => ?_⟩
      · exact h.readers ▸ (List.length_erase_of_mem hread).symm
      · exact Nat.sub_eq_zero_of_le ((h.excludes hwriter).le.trans (Nat.zero_le 1))
    obtain ⟨hcounted', hsettled, hserved⟩ := process_spec hcounted
    exact ⟨hcounted', hsettled, fun h => hserved (.inl h)⟩
  · have hlength := List.length_erase_of_mem hwrite
    have hone := h.excluded.1
    have hcounted : Counted { s with writer := false, writeLeases := s.writeLeases.erase acquisition } :=
      ⟨h.readers, by simp only [Bool.toNat_false]; omega, nofun⟩
    have hreaders : s.readers = 0 := h.readers.trans (by rw [h.excluded.2 (List.ne_nil_of_mem hwrite)]; rfl)
    obtain ⟨hcounted', hsettled, hserved⟩ := process_spec hcounted
    exact ⟨hcounted', hsettled, fun _ => hserved (.inr hreaders)⟩

/-- The step lemma: only a cancellation can leave readers waiting for nothing. -/
lemma step_spec {action : Action} (h : s.Counted) (hsettled : s.Settled) (hstep : step s action = some s') :
    s'.Counted ∧ s'.Settled ∧ (s.Served → s.Wakes action → s'.Served) := by
  have hnext : Counted { s with acquisitions := s.acquisitions + 1 } := ⟨h.readers, h.writers, h.excludes⟩
  cases action with
  | read throws =>
    dsimp only [step] at hstep
    split_ifs at hstep with hfree hthrows <;> obtain rfl := Option.some.inj hstep
    · obtain ⟨hcounted, hsettled', hserved⟩ := process_spec hnext
      exact ⟨hcounted, hsettled', fun h _ => hserved (.inl h)⟩
    · exact ⟨hnext.grantRead hfree.1 _, nofun, fun hserved _ => hserved⟩
    · refine ⟨⟨h.readers, h.writers, h.excludes⟩, fun hwriter hreaders => ?_, fun _ _ hwriter hwriters => ?_⟩
      · exact absurd ⟨hwriter, (hsettled hwriter hreaders).1⟩ hfree
      · exact absurd ⟨h.writer_eq_false_iff.mpr hwriter, hwriters⟩ hfree
  | write =>
    dsimp only [step] at hstep
    split_ifs at hstep with hfree <;> obtain rfl := Option.some.inj hstep
    · exact ⟨hnext.grantWrite hfree.1 hfree.2 _, nofun, nofun⟩
    · refine ⟨⟨h.readers, h.writers, h.excludes⟩, fun hwriter hreaders => absurd ⟨hwriter, hreaders⟩ hfree, ?_⟩
      exact fun _ _ _ hwriters => absurd hwriters (List.concat_ne_nil _ _)
  | dispose acquisition =>
    obtain ⟨hcounted, hsettled', hserved⟩ := dispose_spec h hstep
    exact ⟨hcounted, hsettled', fun h _ => hserved h⟩
  | cancel acquisition =>
    dsimp only [step] at hstep
    split_ifs at hstep with hlease hwaits
    · obtain ⟨hcounted, hsettled', hserved⟩ := dispose_spec h hstep
      exact ⟨hcounted, hsettled', fun h _ => hserved h⟩
    · obtain rfl := Option.some.inj hstep
      have hcounted : (s.withdraw acquisition).Counted := ⟨h.readers, h.writers, h.excludes⟩
      obtain ⟨hcounted', hsettled', hserved⟩ := process_spec hcounted
      refine ⟨hcounted', hsettled', fun hbefore hwakes => hserved ?_⟩
      refine (Nat.eq_zero_or_pos s.readers).elim .inr fun hreaders => .inl fun hwriter hwriters => ?_
      have hempty : s.waitingReaders = [] := by
        rcases List.erase_eq_nil_iff.mp hwriters with hnone | hlast
        · exact hbefore hwriter hnone
        · exact hwakes acquisition rfl hlast hreaders
      rw [withdraw, hempty]
      rfl
    · obtain rfl := Option.some.inj hstep
      exact ⟨h, hsettled, fun hserved _ => hserved⟩

theorem excludes_of_exec {actions : List Action} (hrun : exec step initial actions = some s) :
    s.Excludes ∧ (Within step Wakes initial actions → s.Served) := by
  have hinitial : initial.Counted ∧ initial.Settled := ⟨⟨rfl, rfl, nofun⟩, fun _ _ => ⟨rfl, rfl⟩⟩
  have hpreserves : Preserves step fun s => s.Counted ∧ s.Settled := fun s action s' h hstep =>
    ⟨(step_spec h.1 h.2 hstep).1, (step_spec h.1 h.2 hstep).2.1⟩
  refine ⟨(hpreserves.exec hinitial hrun).1.excluded, fun hwithin => ?_⟩
  have hserves : ∀ ⦃s action s'⦄, (s.Counted ∧ s.Settled) ∧ s.Served → s.Wakes action → step s action = some s' →
      (s'.Counted ∧ s'.Settled) ∧ s'.Served := fun s action s' h hwakes hstep =>
    ⟨hpreserves h.1 hstep, (step_spec h.1.1 h.1.2 hstep).2.2 h.2 hwakes⟩
  exact (Within.exec hserves ⟨hinitial, fun _ _ => rfl⟩ hwithin hrun).2

/-- A waiting writer gives up after the reader that it waits for has gone, and another reader is served. -/
theorem excludes_of_exec_write : ∃ s, exec step initial [.read false, .write, .read true, .dispose 0, .dispose 1] = some s ∧
    s.Excludes ∧ s.Served := by
  obtain ⟨s, hrun⟩ := Option.isSome_iff_exists.mp
    (show (exec step initial [.read false, .write, .read true, .dispose 0, .dispose 1]).isSome by decide)
  refine ⟨s, hrun, (excludes_of_exec hrun).1, (excludes_of_exec hrun).2 ?_⟩
  simp [Within, Wakes]

/-- Whatever is cancelled, nobody waits for a lock that nobody holds. -/
theorem unwaited_of_exec {actions : List Action} (hrun : exec step initial actions = some s) (hwriters : s.writeLeases = [])
    (hreaders : s.readLeases = []) : s.waitingWriters = [] ∧ s.waitingReaders = [] := by
  have hpreserves : Preserves step fun s => s.Counted ∧ s.Settled := fun s action s' h hstep =>
    ⟨(step_spec h.1 h.2 hstep).1, (step_spec h.1 h.2 hstep).2.1⟩
  have hinitial : initial.Counted ∧ initial.Settled := ⟨⟨rfl, rfl, nofun⟩, fun _ _ => ⟨rfl, rfl⟩⟩
  obtain ⟨hcounted, hsettled⟩ := hpreserves.exec hinitial hrun
  refine hsettled (hcounted.writer_eq_false_iff.mpr hwriters) ?_
  rw [hcounted.readers, hreaders, List.length_nil]

/-- A reader and a writer wait for a writer; the writer gives up, and the holders go. -/
theorem unwaited_of_exec_gone : ∃ s, exec step initial
    [.write, .read false, .write, .cancel 2, .dispose 0, .dispose 1] = some s ∧
      s.waitingWriters = [] ∧ s.waitingReaders = [] := by
  have hrun : exec step initial [.write, .read false, .write, .cancel 2, .dispose 0, .dispose 1] = some _ := rfl
  exact ⟨_, hrun, unwaited_of_exec hrun rfl rfl⟩

/-- A writer that gives up while a reader holds the lock leaves the reader behind it waiting. -/
theorem not_served_cancel : ∃ s, exec step initial [.read false, .write, .read false, .cancel 1] = some s ∧ ¬s.Served := by
  refine ⟨_, rfl, ?_⟩
  unfold Served
  decide

end Lock

end OpenCorvus.Util
