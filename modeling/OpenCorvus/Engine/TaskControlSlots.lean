import OpenCorvus.Engine.TaskControlEntries

/-!
# The slots and the queue of the Task control driver

The slots that are taken are the owners that hold one, and the queue holds the owners that wait, which
it does only while every slot is taken.  A released slot goes to the first owner in line, and the
disposal refuses all.
-/

namespace OpenCorvus.Engine

open Relation ListUpdate List OwnerPhase TaskControlDriver

def OwnerPhase.isQueued : OwnerPhase → Bool
  | .queued => true
  | _ => false

def OwnerPhase.withinPasses (options : TaskControlDriverOptions) : OwnerPhase → Prop
  | .scanning pass _ _ => pass < options.maxPasses
  | _ => True

lemma OwnerPhase.isQueued_iff {phase : OwnerPhase} : phase.isQueued = true ↔ phase = .queued := by
  cases phase <;> simp [isQueued]

lemma OwnerPhase.isQueued_of_holdsSlot {phase : OwnerPhase} (h : phase.holdsSlot = true) :
    phase.isQueued = false := by
  cases phase <;> first | rfl | cases h

namespace TaskControlDriver

structure SlotsSound (options : TaskControlDriverOptions) (s : TaskControlDriver) : Prop where
  slots : s.activeScans = s.owners.countP fun owner => owner.phase.holdsSlot
  bounded : s.activeScans ≤ options.maximumConcurrentScans
  waiting : ∀ i, i ∈ s.scanWaiters ↔ ∃ owner, s.owners[i]? = some owner ∧ owner.phase.isQueued = true
  nodup : s.scanWaiters.Nodup
  queued : s.owners.countP (fun owner => owner.phase.isQueued) = s.scanWaiters.length
  crowd : s.scanWaiters.length ≤ options.maximumPendingScans
  saturated : s.scanWaiters ≠ [] → s.activeScans = options.maximumConcurrentScans
  closed : s.disposed = true → s.scanWaiters = []
  passes : ∀ owner ∈ s.owners, owner.phase.withinPasses options

section Slots

variable {s t : TaskControlDriver} {options : TaskControlDriverOptions} {i : ℕ} {owner : Owner}

section

variable (h : s.SlotsSound options)

include h

lemma SlotsSound.congr (howners : t.owners = s.owners) (hwaiters : t.scanWaiters = s.scanWaiters)
    (hactive : t.activeScans = s.activeScans) (hdisposed : t.disposed = s.disposed) : t.SlotsSound options where
  slots := by rw [hactive, howners, h.slots]
  bounded := hactive ▸ h.bounded
  waiting i := by rw [hwaiters, howners, h.waiting i]
  nodup := hwaiters ▸ h.nodup
  queued := by rw [howners, hwaiters, h.queued]
  crowd := hwaiters ▸ h.crowd
  saturated hne := hactive ▸ h.saturated (hwaiters ▸ hne)
  closed hclosed := hwaiters ▸ h.closed (hdisposed ▸ hclosed)
  passes := howners ▸ h.passes

lemma SlotsSound.retire (taskID : String) (current : Entry) :
    (s.retire options taskID current).SlotsSound options := by
  rcases retire_eq options s taskID current with heq | ⟨-, heq⟩
  · rwa [heq]
  · rw [heq]
    exact h.congr rfl rfl rfl rfl

lemma SlotsSound.move {phase : OwnerPhase} (hcalled : s.owners[i]? = some owner)
    (hnot : owner.phase.isQueued = false) (hnot' : phase.isQueued = false)
    (hslot : phase.holdsSlot = owner.phase.holdsSlot) (hwithin : phase.withinPasses options) :
    (s.move i owner phase).SlotsSound options := by
  have hslots : (s.owners.set i { owner with phase := phase }).countP (fun owner => owner.phase.holdsSlot) =
      s.owners.countP fun owner => owner.phase.holdsSlot := by
    exact countP_set_same hcalled hslot
  have hqueued : (s.owners.set i { owner with phase := phase }).countP (fun owner => owner.phase.isQueued) =
      s.owners.countP fun owner => owner.phase.isQueued := by
    exact countP_set_same hcalled (hnot'.trans hnot.symm)
  refine ⟨h.slots.trans hslots.symm, h.bounded, fun k => ?_, h.nodup, hqueued.trans h.queued, h.crowd,
    h.saturated, h.closed, fun other hmem => ?_⟩
  · refine (h.waiting k).trans ?_
    change _ ↔ ∃ other, (s.owners.set i { owner with phase := phase })[k]? = some other ∧ _
    by_cases hk : k = i
    · subst hk
      rw [getElem?_set_self (List.getElem?_eq_some_iff.mp hcalled).1, hcalled]
      simp [hnot, hnot']
    · rw [getElem?_set_ne (Ne.symm hk)]
  · rcases mem_or_eq_of_mem_set hmem with hold | rfl
    · exact h.passes other hold
    · exact hwithin

lemma SlotsSound.enroll (hphase : owner.phase = .granted) (hfree : s.activeScans < options.maximumConcurrentScans)
    (howners : t.owners = s.owners ++ [owner]) (hwaiters : t.scanWaiters = s.scanWaiters)
    (hactive : t.activeScans = s.activeScans + 1) (hdisposed : t.disposed = s.disposed) :
    t.SlotsSound options := by
  have hempty : s.scanWaiters = [] := by
    by_contra hne
    have hfull := h.saturated hne
    omega
  refine ⟨?_, by omega, ?_, hwaiters ▸ h.nodup, ?_, hwaiters ▸ h.crowd, ?_, ?_, ?_⟩
  · rw [hactive, howners, h.slots, countP_append]
    simp [hphase, holdsSlot]
  · intro k
    have hnone : ∀ (k : ℕ) (other : Owner), s.owners[k]? = some other → other.phase.isQueued = false := by
      intro k other hother
      by_contra hqueued
      have hmem := (h.waiting k).mpr ⟨other, hother, by simpa using hqueued⟩
      rw [hempty] at hmem
      cases hmem
    rw [hwaiters, hempty, howners]
    refine ⟨nofun, ?_⟩
    rintro ⟨other, hother, hqueued⟩
    rw [getElem?_append] at hother
    split at hother
    · rw [hnone k other hother] at hqueued
      cases hqueued
    · obtain rfl : owner = other := by
        have hmem := mem_of_getElem? hother
        exact (mem_singleton.mp hmem).symm
      rw [hphase] at hqueued
      cases hqueued
  · rw [howners, hwaiters, countP_append, h.queued]
    simp [hphase, isQueued]
  · intro hne
    rw [hwaiters, hempty] at hne
    exact absurd rfl hne
  · intro hclosed
    rw [hwaiters]
    exact h.closed (hdisposed ▸ hclosed)
  · intro other hmem
    rw [howners] at hmem
    rcases mem_append.mp hmem with hold | hnew
    · exact h.passes other hold
    · rw [mem_singleton.mp hnew, hphase]
      trivial

lemma SlotsSound.enqueue (hlive : s.disposed = false) (hphase : owner.phase = .queued)
    (hfull : options.maximumConcurrentScans ≤ s.activeScans)
    (hroom : s.scanWaiters.length < options.maximumPendingScans) (howners : t.owners = s.owners ++ [owner])
    (hwaiters : t.scanWaiters = s.scanWaiters ++ [s.owners.length]) (hactive : t.activeScans = s.activeScans)
    (hdisposed : t.disposed = s.disposed) : t.SlotsSound options := by
  have hbounded := h.bounded
  have hlt : ∀ k ∈ s.scanWaiters, k < s.owners.length := by
    intro k hk
    obtain ⟨_, hother, -⟩ := (h.waiting k).mp hk
    exact (List.getElem?_eq_some_iff.mp hother).1
  refine ⟨?_, by omega, ?_, ?_, ?_, ?_, ?_, ?_, ?_⟩
  · rw [hactive, howners, h.slots, countP_append]
    simp [hphase, holdsSlot]
  · intro k
    rw [hwaiters, howners, mem_append, h.waiting k, mem_singleton]
    constructor
    · rintro (⟨other, hother, hqueued⟩ | rfl)
      · exact ⟨other, (getElem?_append_left (List.getElem?_eq_some_iff.mp hother).1).trans hother, hqueued⟩
      · exact ⟨owner, by simp, by simp [hphase, isQueued]⟩
    · rintro ⟨other, hother, hqueued⟩
      rw [getElem?_append] at hother
      split at hother
      · exact .inl ⟨other, hother, hqueued⟩
      next hge =>
        refine .inr ?_
        have hlast := (List.getElem?_eq_some_iff.mp hother).1
        rw [length_singleton] at hlast
        omega
  · rw [hwaiters, nodup_append]
    refine ⟨h.nodup, nodup_singleton _, ?_⟩
    intro k hk k' hk'
    rw [mem_singleton] at hk'
    have hless := hlt k hk
    omega
  · rw [howners, hwaiters, countP_append, h.queued]
    simp [hphase, isQueued]
  · rw [hwaiters, length_append, length_singleton]
    omega
  · intro _
    omega
  · intro hclosed
    rw [hdisposed, hlive] at hclosed
    cases hclosed
  · intro other hmem
    rw [howners] at hmem
    rcases mem_append.mp hmem with hold | hnew
    · exact h.passes other hold
    · rw [mem_singleton.mp hnew, hphase]
      trivial

end

variable {own : OwnedScan}

lemma withinPasses_of_turn {next observed : ℕ} {phase : OwnerPhase} (hwithin : phase.withinPasses options)
    (hturn : phase.turn options next) :
    (OwnerPhase.scanning next observed own).withinPasses options := by
  cases phase with
  | granted =>
    obtain rfl : next = 0 := hturn
    exact options.maxPasses_pos
  | scanning pass =>
    obtain ⟨rfl, _⟩ := hturn
    have hlt : pass < options.maxPasses := hwithin
    have hlt' : pass + 1 < options.maxPasses := by omega
    exact hlt'
  | _ => cases hturn

lemma SlotsSound.quiet (h : s.SlotsSound options) (hquiet : Quiet options s t) : t.SlotsSound options := by
  cases hquiet with
  | create | coalesce | rejectArmed | fire | requested | tick => exact h.congr rfl rfl rfl rfl
  | pace | rearm =>
    exact h.congr rfl rfl rfl rfl
  | enroll _ _ _ _ _ _ _ _ free =>
    exact h.enroll rfl free rfl rfl rfl rfl
  | enqueue _ _ _ _ _ located _ _ saturated room =>
    exact h.enqueue located.live rfl saturated room rfl rfl rfl rfl
  | rejectUnarmed taskID entry _ current =>
    have hstored : (s.store entry { current with running := false }).SlotsSound options :=
      h.congr rfl rfl rfl rfl
    exact (hstored.retire taskID current).congr rfl rfl rfl rfl
  | leave i owner _ result called inLoop _ left =>
    have hslot := OwnerPhase.holdsSlot_of_inLoop inLoop
    have hnot := OwnerPhase.isQueued_of_holdsSlot hslot
    obtain ⟨_, passEnd⟩ := result
    cases passEnd with
    | scanning pass observed own =>
      have hturn := (left.scanning pass observed own rfl).2
      have hmoved : (s.move i owner (.scanning pass observed own)).SlotsSound options :=
        h.move called hnot rfl hslot.symm
          (withinPasses_of_turn (h.passes owner (mem_of_getElem? called)) hturn)
      exact hmoved.congr rfl rfl rfl rfl
    | stopped own =>
      have hmoved : (s.move i owner (.settled own)).SlotsSound options :=
        h.move called hnot rfl hslot.symm trivial
      exact hmoved.congr (by simp [leavePass, record, TaskControlDriver.move, store])
        (by simp [leavePass, record, TaskControlDriver.move, store])
        (by simp [leavePass, record, TaskControlDriver.move, store])
        (by simp [leavePass, record, TaskControlDriver.move, store])
  | refused i owner _ called refused =>
    have hnot : owner.phase.isQueued = false := by rw [refused]; rfl
    have hslot : OwnerPhase.ended.holdsSlot = owner.phase.holdsSlot := by rw [refused]; rfl
    have hmoved : (s.move i owner .ended).SlotsSound options := h.move called hnot rfl hslot trivial
    exact hmoved.congr (by simp [TaskControlDriver.move, store])
      (by simp [TaskControlDriver.move, store]) (by simp [TaskControlDriver.move, store])
      (by simp [TaskControlDriver.move, store])
  | endReentry k reentry =>
    obtain ⟨_, heq⟩ := endReentry_eq s k reentry
    rw [heq]
    exact h.congr rfl rfl rfl rfl

lemma getElem?_refuseAll (waiters : List ℕ) (k : ℕ) : (s.refuseAll waiters).owners[k]? =
    (s.owners[k]?).map fun owner =>
      if k ∈ waiters then { owner with phase := .refused } else owner := by
  unfold refuseAll
  rw [getElem?_mapIdx]

lemma refuseAll_nil : (s.refuseAll []).owners = s.owners := by
  refine ext_getElem? fun k => ?_
  rw [getElem?_refuseAll]
  simp

lemma modify_eq_set {first : ℕ} {f : Owner → Owner} (hcalled : s.owners[first]? = some owner) :
    s.owners.modify first f = s.owners.set first (f owner) := by
  refine ext_getElem? fun k => ?_
  rw [getElem?_modify, getElem?_set]
  split
  next heq =>
    subst heq
    rw [hcalled, if_pos (List.getElem?_eq_some_iff.mp hcalled).1]
    rfl
  · simp

lemma count_ended (hcalled : s.owners[i]? = some owner) (hphase : owner.phase = .settled own) :
    (s.owners.set i { owner with phase := .ended }).countP (fun owner => owner.phase.holdsSlot) + 1 =
      s.owners.countP (fun owner => owner.phase.holdsSlot) ∧
    (s.owners.set i { owner with phase := .ended }).countP (fun owner => owner.phase.isQueued) =
      s.owners.countP (fun owner => owner.phase.isQueued) := by
  have hslot : owner.phase.holdsSlot = true := by rw [hphase]; rfl
  exact ⟨countP_set_out hcalled hslot rfl, countP_set_same hcalled (isQueued_of_holdsSlot hslot).symm⟩

lemma SlotsSound.free (h : s.SlotsSound options) (hcalled : s.owners[i]? = some owner)
    (hphase : owner.phase = .settled own) (hempty : s.scanWaiters = [])
    (howners : t.owners = s.owners.set i { owner with phase := .ended }) (hwaiters : t.scanWaiters = [])
    (hactive : t.activeScans = s.activeScans - 1) :
    t.SlotsSound options := by
  obtain ⟨_, _⟩ := count_ended hcalled hphase
  have hcounted := h.slots
  have hline := h.queued
  have hbounded := h.bounded
  rw [hempty, length_nil] at hline
  have hzero : t.owners.countP (fun owner => owner.phase.isQueued) = 0 := by
    rw [howners]
    omega
  refine ⟨?_, by omega, ?_, hwaiters ▸ nodup_nil, ?_, ?_, ?_, ?_, ?_⟩
  · rw [hactive, howners]
    omega
  · intro k
    rw [hwaiters]
    refine ⟨nofun, ?_⟩
    rintro ⟨other, hother, hwaits⟩
    exact absurd hwaits (countP_eq_zero.mp hzero other (mem_of_getElem? hother))
  · rw [hzero, hwaiters, length_nil]
  · rw [hwaiters]
    exact Nat.zero_le _
  · intro hne
    exact absurd hwaiters hne
  · intro _
    exact hwaiters
  · intro other hmem
    rw [howners] at hmem
    rcases mem_or_eq_of_mem_set hmem with hold | rfl
    · exact h.passes other hold
    · trivial

lemma SlotsSound.grant (h : s.SlotsSound options) {first : ℕ} {rest : List ℕ}
    (hcalled : s.owners[i]? = some owner) (hphase : owner.phase = .settled own)
    (hline : s.scanWaiters = first :: rest)
    (howners : t.owners = (s.owners.set i { owner with phase := .ended }).modify first
      fun owner => { owner with phase := .granted }) (hwaiters : t.scanWaiters = rest)
    (hactive : t.activeScans = s.activeScans) (hdisposed : t.disposed = s.disposed) :
    t.SlotsSound options := by
  have hsettled : (s.move i owner .ended).owners = s.owners.set i { owner with phase := .ended } := rfl
  obtain ⟨other, hother, hwaits⟩ := (h.waiting first).mp (hline ▸ mem_cons_self)
  have hne : first ≠ i := by
    rintro rfl
    rw [hcalled] at hother
    rw [← Option.some.inj hother, hphase] at hwaits
    cases hwaits
  have hother' : (s.move i owner .ended).owners[first]? = some other :=
    (getElem?_set_ne hne.symm).trans hother
  rw [← hsettled, modify_eq_set hother', hsettled] at howners
  have hotherPhase : other.phase = .queued := isQueued_iff.mp hwaits
  obtain ⟨hslots, hqueued⟩ := count_ended hcalled hphase
  rw [← hsettled] at hslots hqueued
  have hslots' : ((s.move i owner .ended).owners.set first { other with phase := .granted }).countP
      (fun owner => owner.phase.holdsSlot) =
      (s.move i owner .ended).owners.countP (fun owner => owner.phase.holdsSlot) + 1 := by
    refine countP_set_in hother' ?_ rfl
    rw [hotherPhase]
    rfl
  have hqueued' : ((s.move i owner .ended).owners.set first { other with phase := .granted }).countP
      (fun owner => owner.phase.isQueued) + 1 =
      (s.move i owner .ended).owners.countP (fun owner => owner.phase.isQueued) :=
    countP_set_out hother' hwaits rfl
  rw [hsettled] at hslots hslots' hqueued hqueued'
  have hcounted := h.slots
  have hcount := h.queued
  have hnodup := h.nodup
  have hcrowd := h.crowd
  rw [hline, length_cons] at hcount hcrowd
  rw [hline, nodup_cons] at hnodup
  refine ⟨?_, hactive ▸ h.bounded, ?_, hwaiters ▸ hnodup.2, ?_, ?_, ?_, ?_, ?_⟩
  · rw [hactive, howners]
    omega
  · intro k
    rw [hwaiters, howners]
    by_cases hfirst : k = first
    · subst hfirst
      rw [getElem?_set_self (by
        rw [length_set]
        exact (List.getElem?_eq_some_iff.mp hother).1)]
      refine ⟨fun hmem => absurd hmem hnodup.1, ?_⟩
      rintro ⟨_, hgranted, hwaits'⟩
      rw [← Option.some.inj hgranted] at hwaits'
      cases hwaits'
    · rw [getElem?_set_ne (Ne.symm hfirst)]
      have hmem : k ∈ rest ↔ k ∈ s.scanWaiters := by
        rw [hline, mem_cons]
        exact ⟨.inr, fun hor => hor.resolve_left hfirst⟩
      rw [hmem, h.waiting k]
      by_cases hk : k = i
      · subst hk
        rw [getElem?_set_self (List.getElem?_eq_some_iff.mp hcalled).1, hcalled]
        simp [hphase, isQueued]
      · rw [getElem?_set_ne (Ne.symm hk)]
  · rw [howners, hwaiters]
    omega
  · rw [hwaiters]
    omega
  · intro _
    rw [hactive]
    exact h.saturated (hline ▸ cons_ne_nil _ _)
  · intro hclosed
    have hempty := h.closed (hdisposed ▸ hclosed)
    rw [hline] at hempty
    cases hempty
  · intro other' hmem
    rw [howners] at hmem
    rcases mem_or_eq_of_mem_set hmem with hold | rfl
    · rcases mem_or_eq_of_mem_set hold with hold' | rfl
      · exact h.passes other' hold'
      · trivial
    · trivial

lemma SlotsSound.release (h : s.SlotsSound options) (hcalled : s.owners[i]? = some owner)
    (hphase : owner.phase = .settled own) :
    ((s.move i owner .ended).releaseScanSlot).SlotsSound options := by
  unfold releaseScanSlot
  split
  next hclosed =>
    have hempty : s.scanWaiters = [] := h.closed hclosed
    refine h.free hcalled hphase hempty ?_ rfl rfl
    change ((s.move i owner .ended).refuseAll s.scanWaiters).owners = _
    rw [hempty, refuseAll_nil]
    rfl
  · split
    next hempty => exact h.free hcalled hphase hempty rfl hempty rfl
    next first rest hline => exact h.grant hcalled hphase hline rfl rfl rfl rfl

/-- The disposal refuses every owner in line. -/
lemma SlotsSound.dispose (h : s.SlotsSound options) : s.dispose.SlotsSound options := by
  have hrefused : ∀ (k : ℕ) (other : Owner), s.dispose.owners[k]? = some other →
      ∃ owner, s.owners[k]? = some owner ∧
        (k ∈ s.scanWaiters ∧ other.phase = .refused ∨ k ∉ s.scanWaiters ∧ other = owner) := by
    intro k other hother
    have hmapped : (s.refuseAll s.scanWaiters).owners[k]? = some other := hother
    rw [getElem?_refuseAll] at hmapped
    obtain ⟨owner, howner, rfl⟩ := Option.map_eq_some_iff.mp hmapped
    refine ⟨owner, howner, ?_⟩
    split
    next hmem => exact .inl ⟨hmem, rfl⟩
    next hmem => exact .inr ⟨hmem, rfl⟩
  have hnone : ∀ (k : ℕ) (other : Owner), s.dispose.owners[k]? = some other → other.phase.isQueued = false := by
    intro k other hother
    obtain ⟨_, howner, ⟨-, hphase⟩ | ⟨hmem, rfl⟩⟩ := hrefused k other hother
    · rw [hphase]
      rfl
    · by_contra hwaits
      exact hmem ((h.waiting k).mpr ⟨other, howner, by simpa using hwaits⟩)
  refine ⟨?_, h.bounded, fun k => ⟨nofun, ?_⟩, nodup_nil, ?_, Nat.zero_le _, fun hne => absurd rfl hne,
    fun _ => rfl, ?_⟩
  · refine h.slots.trans (countP_mapIdx_eq fun k owner howner => ?_).symm
    split
    next hmem =>
      obtain ⟨_, howner', hwaits⟩ := (h.waiting k).mp hmem
      rw [howner] at howner'
      rw [Option.some.inj howner', isQueued_iff.mp hwaits]
      rfl
    · rfl
  · rintro ⟨other, hother, hwaits⟩
    rw [hnone k other hother] at hwaits
    cases hwaits
  · refine countP_eq_zero.mpr fun other hmem => ?_
    obtain ⟨k, hk⟩ := mem_iff_getElem?.mp hmem
    rw [hnone k other hk]
    exact Bool.false_ne_true
  · intro other hmem
    obtain ⟨k, hk⟩ := mem_iff_getElem?.mp hmem
    obtain ⟨_, howner, ⟨-, hphase⟩ | ⟨-, rfl⟩⟩ := hrefused k other hk
    · rw [hphase]
      trivial
    · exact h.passes other (mem_of_getElem? howner)

end Slots

end TaskControlDriver

end OpenCorvus.Engine
