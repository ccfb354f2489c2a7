import Mathlib.Data.List.Nodup
import OpenCorvus.Engine.TaskControlTransitions
import OpenCorvus.Foundation.ListUpdate

/-!
# The entries and the owners of the Task control driver

An entry is running exactly while its Task has an active owner, and a Task has one active owner at
most.  The slots that are taken are the owners that hold one, and the queue holds the owners that wait,
which it does only while every slot is taken.
-/

namespace OpenCorvus.Engine

open Relation ListUpdate List

namespace TaskControlDriver

def activity (owner : Owner) : Option (String × ℕ) :=
  if owner.phase.active then some (owner.taskID, owner.entry) else none

def active (s : TaskControlDriver) : List (String × ℕ) := s.owners.filterMap activity

structure EntriesSound (s : TaskControlDriver) : Prop where
  refs : ∀ taskID entry, s.entries.lookup taskID = some entry → entry < s.heap.length
  distinct : ∀ taskID taskID' entry, s.entries.lookup taskID = some entry →
    s.entries.lookup taskID' = some entry → taskID = taskID'
  single : (s.active.map Prod.fst).Nodup
  owned : s.disposed = false → ∀ taskID entry, (taskID, entry) ∈ s.active →
    ∃ current, s.Located taskID entry current ∧ current.running = true
  running : ∀ taskID entry current, s.Located taskID entry current → current.running = true →
    (taskID, entry) ∈ s.active
  refused : ∀ owner ∈ s.owners, owner.phase = .refused → s.disposed = true

section Entries

variable {s t : TaskControlDriver} {options : TaskControlDriverOptions} {taskID : String}
  {entry : ℕ} {found current : Entry}

lemma retire_eq (options : TaskControlDriverOptions) (s : TaskControlDriver) (taskID : String)
    (current : Entry) : s.retire options taskID current = s ∨
    current.timer = none ∧
      s.retire options taskID current = { s with entries := s.entries.filter fun row => row.1 ≠ taskID } := by
  unfold retire
  split
  next h => exact .inr ⟨h.2, rfl⟩
  · exact .inl rfl

section Retired

variable (options) (s) (taskID) (current)

@[simp] lemma retire_heap : (s.retire options taskID current).heap = s.heap := by
  unfold retire
  split <;> rfl

@[simp] lemma retire_owners : (s.retire options taskID current).owners = s.owners := by
  unfold retire
  split <;> rfl

@[simp] lemma retire_scanWaiters : (s.retire options taskID current).scanWaiters = s.scanWaiters := by
  unfold retire
  split <;> rfl

@[simp] lemma retire_activeScans : (s.retire options taskID current).activeScans = s.activeScans := by
  unfold retire
  split <;> rfl

@[simp] lemma retire_reentries : (s.retire options taskID current).reentries = s.reentries := by
  unfold retire
  split <;> rfl

@[simp] lemma retire_disposed : (s.retire options taskID current).disposed = s.disposed := by
  unfold retire
  split <;> rfl

@[simp] lemma retire_events : (s.retire options taskID current).events = s.events := by
  unfold retire
  split <;> rfl

end Retired

variable {owner : Owner}

lemma mem_active {i : ℕ} (hcalled : s.owners[i]? = some owner) (hactive : owner.phase.active = true) :
    (owner.taskID, owner.entry) ∈ s.active :=
  mem_filterMap.mpr ⟨owner, mem_of_getElem? hcalled, by simp [activity, hactive]⟩

lemma running_set (hstored : s.heap[entry]? = some found) (hrunning : current.running = found.running)
    (e : ℕ) : ((s.heap.set entry current)[e]?).map Entry.running = (s.heap[e]?).map Entry.running := by
  rw [getElem?_set]
  split
  next heq =>
    subst heq
    rw [hstored, if_pos (List.getElem?_eq_some_iff.mp hstored).1]
    exact congrArg some hrunning
  · rfl

section

variable (h : s.EntriesSound)

include h

lemma EntriesSound.congr (hheap : ∀ e : ℕ, (t.heap[e]?).map Entry.running = (s.heap[e]?).map Entry.running)
    (hentries : t.entries = s.entries) (hactive : t.active = s.active) (hdisposed : t.disposed = s.disposed)
    (hrefused : ∀ owner ∈ t.owners, owner.phase = .refused → t.disposed = true) : t.EntriesSound where
  refs taskID entry hmapped := by
    have hlt : entry < s.heap.length := h.refs taskID entry (hentries ▸ hmapped)
    have hsome : ((s.heap[entry]?).map Entry.running).isSome := by simp [hlt]
    rw [← hheap entry] at hsome
    by_contra hge
    simp [getElem?_eq_none (Nat.le_of_not_lt hge)] at hsome
  distinct taskID taskID' entry h₁ h₂ := h.distinct taskID taskID' entry (hentries ▸ h₁) (hentries ▸ h₂)
  single := hactive ▸ h.single
  owned hlive taskID entry hmem := by
    obtain ⟨current, hlocated, hrunning⟩ := h.owned (hdisposed ▸ hlive) taskID entry (hactive ▸ hmem)
    have hmap := hheap entry
    rw [hlocated.stored] at hmap
    obtain ⟨current', hstored, hrunning'⟩ := Option.map_eq_some_iff.mp hmap
    exact ⟨current', ⟨hlive, hentries ▸ hlocated.mapped, hstored⟩, hrunning'.trans hrunning⟩
  running taskID entry current hlocated hrunning := by
    have hmap := hheap entry
    rw [hlocated.stored] at hmap
    obtain ⟨current', hstored, hrunning'⟩ := Option.map_eq_some_iff.mp hmap.symm
    rw [hactive]
    exact h.running taskID entry current'
      ⟨hdisposed ▸ hlocated.live, hentries ▸ hlocated.mapped, hstored⟩ (hrunning'.trans hrunning)
  refused := hrefused

lemma EntriesSound.record (event : DriverEvent) : (s.record event).EntriesSound :=
  h.congr (fun _ => rfl) rfl rfl rfl h.refused

lemma EntriesSound.entry_ne {taskID' : String} {entry' : ℕ} (hmapped : s.entries.lookup taskID = some entry)
    (hmapped' : s.entries.lookup taskID' = some entry') (hne : taskID' ≠ taskID) : entry' ≠ entry := by
  rintro rfl
  exact hne (h.distinct _ _ _ hmapped' hmapped)

lemma EntriesSound.not_active (hlocated : s.Located taskID entry found) (hidle : found.running = false)
    (entry' : ℕ) : (taskID, entry') ∉ s.active := by
  intro hmem
  obtain ⟨current, hlocated', hrunning⟩ := h.owned hlocated.live taskID entry' hmem
  have hentry : entry' = entry := Option.some.inj (hlocated'.mapped.symm.trans hlocated.mapped)
  have hcurrent : current = found :=
    Option.some.inj (hlocated'.stored.symm.trans (hentry ▸ hlocated.stored))
  rw [hcurrent, hidle] at hrunning
  cases hrunning

lemma EntriesSound.enlist (hlocated : s.Located taskID entry found) (hidle : found.running = false)
    (hphase : owner.phase.active = true) (hrefused : owner.phase ≠ .refused) (htask : owner.taskID = taskID)
    (hentry : owner.entry = entry) (hrunning : current.running = true) (hheap : t.heap = s.heap.set entry current)
    (hentries : t.entries = s.entries) (howners : t.owners = s.owners ++ [owner])
    (hdisposed : t.disposed = s.disposed) : t.EntriesSound := by
  have hlt : entry < s.heap.length := (List.getElem?_eq_some_iff.mp hlocated.stored).1
  have hactive : t.active = s.active ++ [(taskID, entry)] := by
    simp [active, howners, activity, hphase, htask, hentry]
  refine ⟨?_, ?_, ?_, ?_, ?_, ?_⟩
  · intro task e hmapped
    rw [hheap, length_set]
    exact h.refs task e (hentries ▸ hmapped)
  · intro task task' e h₁ h₂
    exact h.distinct task task' e (hentries ▸ h₁) (hentries ▸ h₂)
  · rw [hactive, map_append, nodup_append]
    refine ⟨h.single, nodup_singleton _, ?_⟩
    intro task hmem task' hmem' heq
    obtain ⟨⟨_, entry'⟩, hpair, rfl⟩ := List.mem_map.mp hmem
    have htask' : task' = taskID := by simpa using hmem'
    refine h.not_active hlocated hidle entry' ?_
    rw [← htask', ← heq]
    exact hpair
  · intro hlive task e hmem
    rw [hactive] at hmem
    rcases mem_append.mp hmem with hold | hnew
    · obtain ⟨other, hother, hotherRunning⟩ := h.owned (hdisposed ▸ hlive) task e hold
      have hne : task ≠ taskID := by
        rintro rfl
        exact h.not_active hlocated hidle e hold
      refine ⟨other, ⟨hlive, hentries ▸ hother.mapped, ?_⟩, hotherRunning⟩
      rw [hheap, getElem?_set_ne (h.entry_ne hlocated.mapped hother.mapped hne).symm]
      exact hother.stored
    · obtain ⟨rfl, rfl⟩ := Prod.mk.inj (mem_singleton.mp hnew)
      refine ⟨current, ⟨hlive, hentries ▸ hlocated.mapped, ?_⟩, hrunning⟩
      rw [hheap, getElem?_set_self hlt]
  · intro task e other hother hotherRunning
    rw [hactive]
    by_cases htask' : task = taskID
    · have he : e = entry := by
        have hmapped := hother.mapped
        rw [hentries, htask', hlocated.mapped] at hmapped
        exact (Option.some.inj hmapped).symm
      exact mem_append_right _ (mem_singleton.mpr (by rw [htask', he]))
    · refine mem_append_left _ (h.running task e other ⟨hlocated.live, hentries ▸ hother.mapped, ?_⟩
        hotherRunning)
      have hstored := hother.stored
      rwa [hheap, getElem?_set_ne (h.entry_ne hlocated.mapped (hentries ▸ hother.mapped)
        htask').symm] at hstored
  · intro other hmem hphase'
    rw [howners] at hmem
    rcases mem_append.mp hmem with hold | hnew
    · exact hdisposed ▸ h.refused other hold hphase'
    · exact absurd (mem_singleton.mp hnew ▸ hphase') hrefused

lemma EntriesSound.retire (hidle : ∀ entry, (taskID, entry) ∉ s.active) (options : TaskControlDriverOptions)
    (current : Entry) : (s.retire options taskID current).EntriesSound := by
  rcases retire_eq options s taskID current with
    hkept | ⟨-, hretired⟩
  · rwa [hkept]
  · rw [hretired]
    refine ⟨?_, ?_, h.single, ?_, ?_, h.refused⟩
    · intro task e hmapped
      exact h.refs task e (lookup_of_lookup_filter hmapped).2
    · intro task task' e h₁ h₂
      exact h.distinct task task' e (lookup_of_lookup_filter h₁).2 (lookup_of_lookup_filter h₂).2
    · intro hlive task e hmem
      obtain ⟨other, hother, hrunning⟩ := h.owned hlive task e hmem
      have hne : task ≠ taskID := by
        rintro rfl
        exact hidle e hmem
      exact ⟨other, ⟨hlive, (lookup_filter_ne hne).trans hother.mapped, hother.stored⟩, hrunning⟩
    · intro task e other hother hrunning
      exact h.running task e other ⟨hother.live, (lookup_of_lookup_filter hother.mapped).2, hother.stored⟩ hrunning

lemma EntriesSound.stop {i : ℕ} {phase : OwnerPhase} (hcalled : s.owners[i]? = some owner)
    (hphase : owner.phase.active = true) (hinactive : phase.active = false) (hnotRefused : phase ≠ .refused)
    (hidle : current.running = false) : ((s.store owner.entry current).move i owner phase).EntriesSound ∧
      ∀ entry, (owner.taskID, entry) ∉ ((s.store owner.entry current).move i owner phase).active := by
  obtain ⟨before, after, hbefore, hafter⟩ := filterMap_set_none (f := activity)
    (y := { owner with phase := phase }) hcalled (by simp [activity, hphase] : activity owner =
      some (owner.taskID, owner.entry)) (by simp [activity, hinactive])
  have hactive : s.active = before ++ (owner.taskID, owner.entry) :: after := hbefore
  have hactive' : ((s.store owner.entry current).move i owner phase).active = before ++ after := hafter
  have hsub : ∀ row, row ∈ before ++ after → row ∈ s.active := fun row hrow => by
    rw [hactive]
    rcases mem_append.mp hrow with hl | hr
    · exact mem_append_left _ hl
    · exact mem_append_right _ (mem_cons_of_mem _ hr)
  have hsingle := h.single
  rw [hactive, map_append, map_cons, nodup_middle, nodup_cons, ← map_append] at hsingle
  have hgone : ∀ entry, (owner.taskID, entry) ∉ before ++ after := fun entry hmem =>
    hsingle.1 (List.mem_map.mpr ⟨_, hmem, rfl⟩)
  refine ⟨⟨?_, h.distinct, hactive' ▸ hsingle.2, ?_, ?_, ?_⟩, fun entry => hactive' ▸ hgone entry⟩
  · intro task e hmapped
    exact (h.refs task e hmapped).trans_eq length_set.symm
  · intro hlive task e hmem
    rw [hactive'] at hmem
    obtain ⟨mine, hmine, -⟩ := h.owned hlive owner.taskID owner.entry (mem_active hcalled hphase)
    obtain ⟨other, hother, hrunning⟩ := h.owned hlive task e (hsub _ hmem)
    have hne : task ≠ owner.taskID := by
      rintro rfl
      exact hgone e hmem
    refine ⟨other, ⟨hlive, hother.mapped, ?_⟩, hrunning⟩
    exact (getElem?_set_ne (h.entry_ne hmine.mapped hother.mapped hne).symm).trans hother.stored
  · intro task e other hother hrunning
    rw [hactive']
    have hlive : s.disposed = false := hother.live
    obtain ⟨mine, hmine, -⟩ := h.owned hlive owner.taskID owner.entry (mem_active hcalled hphase)
    have hstored : (s.heap.set owner.entry current)[e]? = some other := hother.stored
    by_cases hentry : e = owner.entry
    · subst hentry
      rw [getElem?_set_self (List.getElem?_eq_some_iff.mp hmine.stored).1] at hstored
      rw [← Option.some.inj hstored, hidle] at hrunning
      cases hrunning
    · rw [getElem?_set_ne (Ne.symm hentry)] at hstored
      have hmem := h.running task e other ⟨hlive, hother.mapped, hstored⟩ hrunning
      rw [hactive] at hmem
      have hne : (task, e) ≠ (owner.taskID, owner.entry) := fun heq => hentry (Prod.mk.inj heq).2
      rcases mem_append.mp hmem with hl | hr
      · exact mem_append_left _ hl
      · exact mem_append_right _ ((mem_cons.mp hr).resolve_left hne)
  · intro other hmem hrefused
    rcases mem_or_eq_of_mem_set hmem with hold | rfl
    · exact h.refused other hold hrefused
    · exact absurd hrefused hnotRefused

lemma EntriesSound.of_disposed (hdisposed : t.disposed = true)
    (hentries : ∀ taskID entry, t.entries.lookup taskID = some entry →
      s.entries.lookup taskID = some entry ∧ entry < t.heap.length) (hactive : t.active.Sublist s.active) :
    t.EntriesSound where
  refs taskID entry hmapped := (hentries taskID entry hmapped).2
  distinct taskID taskID' entry h₁ h₂ :=
    h.distinct taskID taskID' entry (hentries taskID entry h₁).1 (hentries taskID' entry h₂).1
  single := h.single.sublist (hactive.map _)
  owned hlive := absurd (hlive.symm.trans hdisposed) (by decide)
  running taskID entry current hlocated :=
    absurd (hlocated.live.symm.trans hdisposed) (by decide)
  refused _ _ _ := hdisposed

lemma EntriesSound.quiet (hquiet : Quiet options s t) : t.EntriesSound := by
  cases hquiet with
  | create taskID live fresh =>
    have hlookup : ∀ task, (s.entries ++ [(taskID, s.heap.length)]).lookup task =
        if task = taskID then some s.heap.length else s.entries.lookup task := by
      intro task
      rw [lookup_append, lookup_cons]
      split_ifs with htask
      · simp [htask, fresh]
      · have hmiss : (task == taskID) = false := by simpa using htask
        simp [hmiss]
    have hold : ∀ task e, (s.entries ++ [(taskID, s.heap.length)]).lookup task = some e →
        (task = taskID ∧ e = s.heap.length) ∨
          (task ≠ taskID ∧ s.entries.lookup task = some e ∧ e < s.heap.length) := by
      intro task e hmapped
      rw [hlookup] at hmapped
      split_ifs at hmapped with htask
      · exact .inl ⟨htask, (Option.some.inj hmapped).symm⟩
      · exact .inr ⟨htask, hmapped, h.refs task e hmapped⟩
    refine ⟨?_, ?_, h.single, ?_, ?_, h.refused⟩
    · intro task e hmapped
      rw [length_append, length_singleton]
      rcases hold task e hmapped with ⟨-, rfl⟩ | ⟨-, -, hlt⟩ <;> omega
    · intro task task' e h₁ h₂
      rcases hold task e h₁ with ⟨rfl, he⟩ | ⟨-, hmapped, hlt⟩ <;>
        rcases hold task' e h₂ with ⟨rfl, he'⟩ | ⟨-, hmapped', hlt'⟩
      · rfl
      · omega
      · omega
      · exact h.distinct task task' e hmapped hmapped'
    · intro hlive task e hmem
      obtain ⟨other, hother, hrunning⟩ := h.owned hlive task e hmem
      have htask : task ≠ taskID := by
        rintro rfl
        exact absurd (fresh.symm.trans hother.mapped) nofun
      have hlt := h.refs task e hother.mapped
      exact ⟨other, ⟨hlive, (hlookup task).trans ((if_neg htask).trans hother.mapped),
        (getElem?_append_left hlt).trans hother.stored⟩, hrunning⟩
    · intro task e other hother hrunning
      rcases hold task e hother.mapped with ⟨-, rfl⟩ | ⟨-, hmapped, hlt⟩
      · have hcreated : other = .created := by simpa using hother.stored.symm
        rw [hcreated] at hrunning
        cases hrunning
      · exact h.running task e other
          ⟨live, hmapped, (getElem?_append_left hlt).symm.trans hother.stored⟩ hrunning
  | coalesce _ _ _ located =>
    exact h.congr (running_set located.stored rfl) rfl rfl rfl h.refused
  | pace _ _ _ _ _ located running | rearm _ _ _ _ _ _ located running =>
    exact h.congr (running_set located.stored running) rfl rfl rfl h.refused
  | enroll _ _ _ _ _ located idle | enqueue _ _ _ _ _ located idle =>
    exact h.enlist located idle rfl (by simp) rfl rfl rfl rfl rfl rfl rfl
  | rejectArmed _ _ _ _ located idle =>
    exact h.congr (running_set located.stored idle.symm) rfl rfl rfl h.refused
  | rejectUnarmed _ entry _ current located idle =>
    have hstored : (s.store entry { current with running := false }).EntriesSound :=
      h.congr (running_set located.stored idle.symm) rfl rfl rfl h.refused
    exact (hstored.retire (h.not_active located idle) options current).record _
  | leave i owner _ result called inLoop stored left =>
    obtain ⟨current, passEnd⟩ := result
    cases passEnd with
    | scanning =>
      refine h.congr (running_set stored left.duties.running) rfl ?_ rfl ?_
      · have hactive := OwnerPhase.active_of_inLoop inLoop
        exact filterMap_set_eq called (by simp only [activity, hactive]; rfl)
      · intro other hmem hrefused
        rcases mem_or_eq_of_mem_set hmem with hold | rfl
        · exact h.refused other hold hrefused
        · cases hrefused
    | stopped own =>
      have hidle : (arm options s.clock { current with running := false } s.disposed owner.taskID
          own.wakeInstants.min?).running = false := arm_running _ _
      obtain ⟨hstopped, hgone⟩ := h.stop called (OwnerPhase.active_of_inLoop inLoop)
        (rfl : (OwnerPhase.settled own).active = false) nofun hidle
      have hretired := hstopped.retire hgone options (arm options s.clock
        { current with running := false } s.disposed owner.taskID own.wakeInstants.min?)
      have hcomm : ((s.store owner.entry (arm options s.clock { current with running := false }
          s.disposed owner.taskID own.wakeInstants.min?)).retire options owner.taskID (arm options s.clock
          { current with running := false } s.disposed owner.taskID own.wakeInstants.min?)).move i owner
          (.settled own) = (((s.store owner.entry (arm options s.clock { current with running := false }
          s.disposed owner.taskID own.wakeInstants.min?)).move i owner (.settled own)).retire options
          owner.taskID (arm options s.clock { current with running := false } s.disposed owner.taskID
          own.wakeInstants.min?)) := by
        unfold TaskControlDriver.retire
        split <;> rfl
      unfold leavePass
      simp only [hcomm]
      exact hretired.record _
  | refused i owner found called refused =>
    have hdisposed : s.disposed = true := h.refused owner (mem_of_getElem? called) refused
    have hactive : owner.phase.active = false := by rw [refused]; rfl
    have hkept : activity { owner with phase := .ended } = activity owner := by
      rw [activity, activity, if_neg (by simp [OwnerPhase.active]), if_neg (by simp [hactive])]
    have hsame : ((s.owners.set i { owner with phase := .ended }).filterMap activity).Sublist s.active := by
      rw [filterMap_set_eq called hkept]
      exact .refl _
    rcases retire_eq options (s.store owner.entry { found with running := false }) owner.taskID
      { found with running := false } with heq | ⟨-, heq⟩
    · rw [heq]
      refine h.of_disposed hdisposed (fun task e hmapped => ⟨hmapped, ?_⟩) hsame
      exact (h.refs task e hmapped).trans_eq length_set.symm
    · rw [heq]
      refine h.of_disposed hdisposed (fun task e hmapped => ?_) hsame
      have hmapped' := (lookup_of_lookup_filter hmapped).2
      exact ⟨hmapped', (h.refs task e hmapped').trans_eq length_set.symm⟩
  | fire _ _ _ stored =>
    exact h.congr (running_set stored rfl) rfl rfl rfl h.refused
  | requested | tick => exact h.congr (fun _ => rfl) rfl rfl rfl h.refused
  | endReentry k reentry =>
    obtain ⟨events, heq⟩ := endReentry_eq s k reentry
    rw [heq]
    exact h.congr (fun _ => rfl) rfl rfl rfl h.refused

end

end Entries

end TaskControlDriver

end OpenCorvus.Engine
