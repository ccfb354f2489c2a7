import OpenCorvus.Engine.TaskControlSlots

/-!
# The queue of the Task control driver is served

A slot holder takes one pass after another, of which there are finitely many, and then releases its
slot; a released slot advances the queue.  So an owner in line is granted a released slot or refused by
the disposal, when every slot holder takes its next step some time: when the scans end.
-/

namespace OpenCorvus.Engine

open ExecutableSystem Relation ListUpdate List OwnerPhase

def OwnerPhase.remaining (options : TaskControlDriverOptions) : OwnerPhase → ℕ
  | .granted => options.maxPasses + 2
  | .scanning pass _ _ => options.maxPasses - pass + 1
  | .settled _ => 1
  | .queued | .refused | .ended => 0

/-- The action is the next step of an owner that holds a slot. -/
def DriverAction.Drives (i : ℕ) : DriverAction → Prop
  | .settle k _ _ _ | .release k | .resume k _ => k = i
  | _ => False

namespace TaskControlDriver

structure DriverSound (options : TaskControlDriverOptions) (s : TaskControlDriver) : Prop where
  entries : s.EntriesSound
  slots : s.SlotsSound options

section Invariant

variable {s t : TaskControlDriver} {options : TaskControlDriverOptions} {i : ℕ} {owner : Owner}

lemma driverSound_initial (clock : ℤ) : (initial clock).DriverSound options where
  entries :=
    { refs := nofun
      distinct := nofun
      single := nodup_nil
      owned := nofun
      running := fun _ _ _ hlocated => nomatch hlocated.mapped
      refused := nofun }
  slots :=
    { slots := rfl
      bounded := Nat.zero_le _
      waiting := fun _ => ⟨nofun, fun ⟨_, hcalled, _⟩ => nomatch hcalled⟩
      nodup := nodup_nil
      queued := rfl
      crowd := Nat.zero_le _
      saturated := fun hne => absurd rfl hne
      closed := fun _ => rfl
      passes := nofun }

lemma releaseScanSlot_frame (s : TaskControlDriver) : s.releaseScanSlot.heap = s.heap ∧
    s.releaseScanSlot.entries = s.entries ∧ s.releaseScanSlot.disposed = s.disposed ∧
    s.releaseScanSlot.events = s.events := by
  unfold releaseScanSlot
  split
  · exact ⟨rfl, rfl, rfl, rfl⟩
  · split <;> exact ⟨rfl, rfl, rfl, rfl⟩

variable {own : OwnedScan}

lemma release_owners (h : s.SlotsSound options) (hcalled : s.owners[i]? = some owner)
    (hphase : owner.phase = .settled own) :
    ((s.move i owner .ended).releaseScanSlot).owners = s.owners.set i { owner with phase := .ended } ∨
      ∃ first other, (s.owners.set i { owner with phase := .ended })[first]? = some other ∧
        other.phase = .queued ∧ ((s.move i owner .ended).releaseScanSlot).owners =
          (s.owners.set i { owner with phase := .ended }).set first { other with phase := .granted } := by
  unfold releaseScanSlot
  split
  next hclosed =>
    have hempty : (s.move i owner .ended).scanWaiters = [] := h.closed hclosed
    rw [hempty]
    exact .inl refuseAll_nil
  · split
    · exact .inl rfl
    next first rest hline =>
      have hline' : s.scanWaiters = first :: rest := hline
      obtain ⟨other, hother, hwaits⟩ := (h.waiting first).mp (hline' ▸ mem_cons_self)
      have hne : first ≠ i := by
        rintro rfl
        rw [hcalled] at hother
        rw [← Option.some.inj hother, hphase] at hwaits
        cases hwaits
      have hother' : (s.move i owner .ended).owners[first]? = some other :=
        (getElem?_set_ne hne.symm).trans hother
      exact .inr ⟨first, other, hother', isQueued_iff.mp hwaits, modify_eq_set hother'⟩

lemma release_active (h : s.SlotsSound options) (hcalled : s.owners[i]? = some owner)
    (hphase : owner.phase = .settled own) : ((s.move i owner .ended).releaseScanSlot).active = s.active := by
  have hended : (s.owners.set i { owner with phase := .ended }).filterMap activity = s.active := by
    refine filterMap_set_eq hcalled ?_
    simp [activity, hphase, OwnerPhase.active]
  unfold active
  rcases release_owners h hcalled hphase with heq | ⟨_, other, hother, hqueued, heq⟩
  · rw [heq, hended]
    rfl
  · have hactivity : activity { other with phase := .granted } = activity other := by
      simp [activity, hqueued, OwnerPhase.active]
    rw [heq, filterMap_set_eq hother hactivity, hended]
    rfl

lemma mem_of_mem_release (h : s.SlotsSound options) (hcalled : s.owners[i]? = some owner)
    (hphase : owner.phase = .settled own) {other : Owner}
    (hmem : other ∈ ((s.move i owner .ended).releaseScanSlot).owners) :
    other ∈ s.owners ∨ other.phase = .ended ∨ other.phase = .granted := by
  have hended : other ∈ s.owners.set i { owner with phase := .ended } →
      other ∈ s.owners ∨ other.phase = .ended ∨ other.phase = .granted := by
    intro hset
    rcases mem_or_eq_of_mem_set hset with hold | rfl
    · exact .inl hold
    · exact .inr (.inl rfl)
  rcases release_owners h hcalled hphase with heq | ⟨_, _, -, -, heq⟩
  · exact hended (heq ▸ hmem)
  · rw [heq] at hmem
    rcases mem_or_eq_of_mem_set hmem with hset | rfl
    · exact hended hset
    · exact .inr (.inr rfl)

lemma EntriesSound.release (h : s.EntriesSound) (hslots : s.SlotsSound options)
    (hcalled : s.owners[i]? = some owner) (hphase : owner.phase = .settled own) :
    ((s.move i owner .ended).releaseScanSlot).EntriesSound := by
  obtain ⟨hheap, hentries, hdisposed, -⟩ := releaseScanSlot_frame (s.move i owner .ended)
  refine h.congr (fun e => by rw [hheap]; rfl) hentries (release_active hslots hcalled hphase) hdisposed
    fun other hmem hrefused => ?_
  rcases mem_of_mem_release hslots hcalled hphase hmem with hold | hended | hgranted
  · exact hdisposed.trans (h.refused other hold hrefused)
  · rw [hended] at hrefused
    cases hrefused
  · rw [hgranted] at hrefused
    cases hrefused

lemma EntriesSound.dispose (h : s.EntriesSound) : s.dispose.EntriesSound := by
  refine h.of_disposed rfl (fun taskID entry hmapped => nomatch hmapped) ?_
  refine filterMap_mapIdx_sublist fun k other => ?_
  split
  · exact .inr rfl
  · exact .inl rfl

lemma DriverSound.quiet (h : s.DriverSound options) (hquiet : ReflTransGen (Quiet options) s t) :
    t.DriverSound options := by
  induction hquiet with
  | refl => exact h
  | tail _ hlast ih => exact ⟨ih.entries.quiet hlast, ih.slots.quiet hlast⟩

theorem driverSound_preserved : Preserves (driverStep options) (DriverSound options) := by
  intro s action t h hstep
  obtain ⟨-, -, hquiet⟩ | ⟨_, _, _, -, hcalled, hphase, rfl⟩ | ⟨-, rfl⟩ :=
    step_cases h.entries.refs hstep
  · exact h.quiet hquiet
  · exact ⟨h.entries.release h.slots hcalled hphase, h.slots.release hcalled hphase⟩
  · exact ⟨h.entries.dispose, h.slots.dispose⟩

end Invariant

/-! ## A slot holder proceeds -/

section Holders

variable {s t : TaskControlDriver} {options : TaskControlDriverOptions} {i : ℕ} {owner : Owner}
  {action : DriverAction}

def Holds (s : TaskControlDriver) (i : ℕ) : Prop :=
  ∃ owner, s.owners[i]? = some owner ∧ owner.phase.holdsSlot = true

def remaining (options : TaskControlDriverOptions) (s : TaskControlDriver) (i : ℕ) : ℕ :=
  ((s.owners[i]?).map fun owner => owner.phase.remaining options).getD 0

lemma remaining_of_called (hcalled : s.owners[i]? = some owner) :
    s.remaining options i = owner.phase.remaining options := by
  simp [remaining, hcalled]

lemma holds_of_eq (hsame : t.owners[i]? = s.owners[i]?) (hholds : s.Holds i) :
    t.Holds i ∧ t.remaining options i ≤ s.remaining options i := by
  obtain ⟨owner, hcalled, hslot⟩ := hholds
  refine ⟨⟨owner, hsame.trans hcalled, hslot⟩, ?_⟩
  unfold remaining
  rw [hsame]

/-- The phase in which a stretch of `own` leaves its owner. -/
def phaseAfter : PassEnd → OwnerPhase
  | .scanning pass observed own => .scanning pass observed own
  | .stopped own => .settled own

lemma phaseAfter_holdsSlot (passEnd : PassEnd) : (phaseAfter passEnd).holdsSlot = true := by
  cases passEnd <;> rfl

lemma leavePass_owners (result : Entry × PassEnd) : (s.leavePass options i owner result).owners =
    s.owners.set i { owner with phase := phaseAfter result.2 } := by
  obtain ⟨_, _ | _⟩ := result
  · rfl
  · simp [leavePass, record, move, store, phaseAfter]

/-- A stretch of `own` leaves fewer passes. -/
lemma remaining_left {found : Entry} {result : Entry × PassEnd} (h : s.SlotsSound options)
    (hleaves : Leaves options s i owner found result) :
    (phaseAfter result.2).remaining options < owner.phase.remaining options := by
  have hwithin := h.passes owner (mem_of_getElem? hleaves.called)
  have hloop := hleaves.inLoop
  have hleft := hleaves.left
  obtain ⟨_, passEnd⟩ := result
  cases hphase : owner.phase with
  | granted =>
    cases passEnd with
    | scanning pass observed own =>
      have hturn := (hleft.scanning pass observed own rfl).2
      rw [hphase] at hturn
      obtain rfl : pass = 0 := hturn
      simp only [phaseAfter, OwnerPhase.remaining]
      omega
    | stopped =>
      simp only [phaseAfter, OwnerPhase.remaining]
      omega
  | scanning before =>
    rw [hphase] at hwithin
    have hbefore : before < options.maxPasses := hwithin
    cases passEnd with
    | scanning pass observed own =>
      have hturn := (hleft.scanning pass observed own rfl).2
      rw [hphase] at hturn
      obtain ⟨rfl, -⟩ : pass = before + 1 ∧ pass ≠ options.maxPasses := hturn
      simp only [phaseAfter, OwnerPhase.remaining]
      omega
    | stopped =>
      simp only [phaseAfter, OwnerPhase.remaining]
      omega
  | _ =>
    rw [hphase] at hloop
    cases hloop

/-- A stretch of `own` keeps the slot, with fewer passes left. -/
lemma holds_left {found : Entry} {result : Entry × PassEnd} (h : s.SlotsSound options)
    (hleaves : Leaves options s i owner found result) :
    (s.leavePass options i owner result).Holds i ∧
      (s.leavePass options i owner result).remaining options i < s.remaining options i := by
  have hlt := (List.getElem?_eq_some_iff.mp hleaves.called).1
  have hmoved : (s.leavePass options i owner result).owners[i]? =
      some { owner with phase := phaseAfter result.2 } := by
    rw [leavePass_owners, getElem?_set_self hlt]
  refine ⟨⟨_, hmoved, phaseAfter_holdsSlot _⟩, ?_⟩
  rw [remaining_of_called hmoved, remaining_of_called hleaves.called]
  exact remaining_left h hleaves

lemma Holds.quiet (hholds : s.Holds i) (h : s.SlotsSound options) (hquiet : Quiet options s t) :
    t.Holds i ∧ t.remaining options i ≤ s.remaining options i := by
  obtain ⟨holder, hcalled, hslot⟩ := hholds
  have hlt := (List.getElem?_eq_some_iff.mp hcalled).1
  have hsame : t.owners[i]? = s.owners[i]? → t.Holds i ∧ t.remaining options i ≤ s.remaining options i :=
    fun heq => holds_of_eq heq ⟨holder, hcalled, hslot⟩
  cases hquiet with
  | enroll => exact hsame (getElem?_append_left hlt)
  | enqueue => exact hsame (getElem?_append_left hlt)
  | rejectUnarmed => exact hsame (by simp [record, store])
  | leave k _ _ _ called inLoop stored left =>
    by_cases hk : k = i
    · subst hk
      have hleft := holds_left h ⟨called, inLoop, stored, left⟩
      exact ⟨hleft.1, hleft.2.le⟩
    · refine hsame ?_
      rw [leavePass_owners, getElem?_set_ne hk]
  | refused k _ _ called refused =>
    refine hsame ?_
    have hk : k ≠ i := by
      rintro rfl
      rw [called] at hcalled
      rw [← Option.some.inj hcalled, refused] at hslot
      cases hslot
    simp [move, store, getElem?_set_ne hk]
  | endReentry k reentry =>
    obtain ⟨_, heq⟩ := endReentry_eq s k reentry
    rw [heq] at hsame ⊢
    exact hsame rfl
  | _ => exact hsame rfl

lemma Holds.quiets (hholds : s.Holds i) (h : s.DriverSound options) (hquiet : ReflTransGen (Quiet options) s t) :
    t.Holds i ∧ t.remaining options i ≤ s.remaining options i := by
  induction hquiet with
  | refl => exact ⟨hholds, le_rfl⟩
  | tail hbefore hlast ih =>
    have hlast' := ih.1.quiet (h.quiet hbefore).slots hlast
    exact ⟨hlast'.1, hlast'.2.trans ih.2⟩

lemma getElem?_refuseAll_of_holds (h : s.SlotsSound options) (hcalled : s.owners[i]? = some owner)
    (hslot : owner.phase.holdsSlot = true) : (s.refuseAll s.scanWaiters).owners[i]? = some owner := by
  have hnot : i ∉ s.scanWaiters := by
    intro hmem
    obtain ⟨_, hcalled', hwaits⟩ := (h.waiting i).mp hmem
    rw [hcalled] at hcalled'
    rw [← Option.some.inj hcalled', isQueued_of_holdsSlot hslot] at hwaits
    cases hwaits
  rw [getElem?_refuseAll, hcalled]
  simp [hnot]

lemma getElem?_release_of_holds (h : s.SlotsSound options) {k : ℕ} {other : Owner}
    (hcalled : s.owners[i]? = some owner) (hslot : owner.phase.holdsSlot = true) (hk : k ≠ i) :
    ((s.move k other .ended).releaseScanSlot).owners[i]? = some owner := by
  have hmoved : (s.move k other .ended).owners[i]? = some owner :=
    (getElem?_set_ne hk).trans hcalled
  unfold releaseScanSlot
  split
  next hclosed =>
    have hempty : (s.move k other .ended).scanWaiters = [] := h.closed hclosed
    rw [hempty]
    exact (congrArg (fun owners => owners[i]?) refuseAll_nil).trans hmoved
  · split
    · exact hmoved
    next first rest hline =>
      have hne : first ≠ i := by
        rintro rfl
        obtain ⟨_, hcalled', hwaits⟩ :=
          (h.waiting first).mp ((show s.scanWaiters = first :: rest from hline) ▸ mem_cons_self)
        rw [hcalled] at hcalled'
        rw [← Option.some.inj hcalled', isQueued_of_holdsSlot hslot] at hwaits
        cases hwaits
      simp [hne, hmoved]

lemma Holds.step (hholds : s.Holds i) (h : s.DriverSound options) (hstep : driverStep options s action = some t) :
    action = .release i ∨ t.Holds i ∧ t.remaining options i ≤ s.remaining options i ∧
      (action.Drives i → t.remaining options i < s.remaining options i) := by
  obtain ⟨holder, hcalled, hslot⟩ := hholds
  have hkept : t.owners[i]? = some holder → t.Holds i ∧ t.remaining options i ≤ s.remaining options i :=
    fun heq => holds_of_eq (heq.trans hcalled.symm) ⟨holder, hcalled, hslot⟩
  obtain ⟨hnoRelease, -, hquiet⟩ | ⟨k, _, _, rfl, _, hphase, rfl⟩ | ⟨rfl, rfl⟩ :=
    step_cases h.entries.refs hstep
  · have hholds' := Holds.quiets ⟨holder, hcalled, hslot⟩ h hquiet
    refine .inr ⟨hholds'.1, hholds'.2, fun hdrives => ?_⟩
    cases action with
    | settle k =>
      obtain rfl : k = i := hdrives
      obtain ⟨_, _, _, hleaves, rfl⟩ := settle_leaves hstep
      exact (holds_left h.slots hleaves).2
    | resume k =>
      obtain rfl : k = i := hdrives
      obtain ⟨_, _, _, hleaves, rfl⟩ | ⟨_, _, hcalled', hphase, -⟩ :=
        resume_leaves hstep
      · exact (holds_left h.slots hleaves).2
      · rw [hcalled] at hcalled'
        rw [Option.some.inj hcalled', hphase] at hslot
        cases hslot
    | release k => exact absurd rfl (hnoRelease k)
    | _ => cases hdrives
  · by_cases hk : k = i
    · exact .inl (congrArg _ hk)
    · have hkept' := hkept (getElem?_release_of_holds h.slots hcalled hslot hk)
      exact .inr ⟨hkept'.1, hkept'.2, fun hdrives => absurd hdrives hk⟩
  · have hkept' := hkept (getElem?_refuseAll_of_holds h.slots hcalled hslot)
    exact .inr ⟨hkept'.1, hkept'.2, nofun⟩

end Holders

/-! ## The queue advances -/

section Queue

variable {s t : TaskControlDriver} {options : TaskControlDriverOptions} {i : ℕ} {action : DriverAction}

def phaseOf (s : TaskControlDriver) (i : ℕ) : Option OwnerPhase := (s.owners[i]?).map Owner.phase

/-- An owner leaves the queue: it is given the released slot, or refused by the disposal. -/
def Served (s : TaskControlDriver) (action : DriverAction) (t : TaskControlDriver) (i : ℕ) : Prop :=
  ((∃ k, action = .release k) ∧ s.scanWaiters = i :: t.scanWaiters ∧ t.phaseOf i = some .granted ∧
    t.activeScans = s.activeScans) ∨
  (action = .dispose ∧ t.phaseOf i = some .refused)

lemma quiet_scanWaiters (hquiet : Quiet options s t) : s.owners.length ≤ t.owners.length ∧
    ∃ new, t.scanWaiters = s.scanWaiters ++ new ∧ ∀ k ∈ new, s.owners.length ≤ k ∧ k < t.owners.length := by
  have hsame : t.owners.length = s.owners.length → t.scanWaiters = s.scanWaiters →
      s.owners.length ≤ t.owners.length ∧ ∃ new, t.scanWaiters = s.scanWaiters ++ new ∧
        ∀ k ∈ new, s.owners.length ≤ k ∧ k < t.owners.length :=
    fun howners hwaiters => ⟨howners.ge, [], by rw [hwaiters, List.append_nil], nofun⟩
  cases hquiet with
  | enroll =>
    exact ⟨by simp, [], (List.append_nil _).symm, nofun⟩
  | enqueue =>
    exact ⟨by simp, [s.owners.length], rfl, by simp⟩
  | rejectUnarmed => exact hsame (by simp [record, store]) (by simp [record, store])
  | leave _ _ _ result =>
    refine hsame ?_ ?_
    · rw [leavePass_owners, length_set]
    · obtain ⟨_, _ | _⟩ := result
      · rfl
      · simp [leavePass, record, move, store]
  | refused => exact hsame (by simp [move, store]) (by simp [move, store])
  | endReentry k reentry =>
    obtain ⟨_, heq⟩ := endReentry_eq s k reentry
    rw [heq] at hsame ⊢
    exact hsame rfl rfl
  | _ => exact hsame rfl rfl

lemma quiets_scanWaiters (hquiet : ReflTransGen (Quiet options) s t) : s.owners.length ≤ t.owners.length ∧
      ∃ new, t.scanWaiters = s.scanWaiters ++ new ∧ ∀ k ∈ new, s.owners.length ≤ k ∧ k < t.owners.length := by
  induction hquiet with
  | refl => exact ⟨le_rfl, [], (List.append_nil _).symm, nofun⟩
  | tail _ hlast ih =>
    obtain ⟨hle, new, hnew, hbounds⟩ := ih
    obtain ⟨hle', new', hnew', hbounds'⟩ := quiet_scanWaiters hlast
    refine ⟨hle.trans hle', new ++ new', by rw [hnew', hnew, append_assoc], fun k hk => ?_⟩
    rcases mem_append.mp hk with hold | hlate
    · exact ⟨(hbounds k hold).1, (hbounds k hold).2.trans_le hle'⟩
    · exact ⟨hle.trans (hbounds' k hlate).1, (hbounds' k hlate).2⟩

lemma release_scanWaiters (h : s.SlotsSound options) (k : ℕ) (owner : Owner) {first : ℕ}
    {rest : List ℕ} (hline : s.scanWaiters = first :: rest) :
    ((s.move k owner .ended).releaseScanSlot).scanWaiters = rest ∧
      ((s.move k owner .ended).releaseScanSlot).activeScans = s.activeScans ∧
      ((s.move k owner .ended).releaseScanSlot).owners =
        (s.move k owner .ended).owners.modify first fun owner => { owner with phase := .granted } := by
  have hlive : (s.move k owner .ended).disposed = false := by
    by_contra hclosed
    have hclosed' : s.disposed = true := by simpa [move] using hclosed
    have hempty := h.closed hclosed'
    rw [hline] at hempty
    cases hempty
  have hline' : (s.move k owner .ended).scanWaiters = first :: rest := hline
  unfold releaseScanSlot
  rw [hlive]
  simp only [Bool.false_eq_true, if_false]
  rw [hline']
  exact ⟨rfl, rfl, rfl⟩

lemma release_shrinks (s : TaskControlDriver) (k : ℕ) (owner : Owner) :
    ((s.move k owner .ended).releaseScanSlot).owners.length = s.owners.length ∧
      ((s.move k owner .ended).releaseScanSlot).scanWaiters ⊆ s.scanWaiters := by
  have hlength : (s.move k owner .ended).owners.length = s.owners.length := length_set
  unfold releaseScanSlot
  split
  · refine ⟨?_, nil_subset _⟩
    exact length_mapIdx.trans hlength
  · split
    · exact ⟨hlength, Subset.refl _⟩
    next first rest hline =>
      refine ⟨(length_modify ..).trans hlength, ?_⟩
      have hline' : s.scanWaiters = first :: rest := hline
      rw [hline']
      exact subset_cons_self _ _

lemma line_step (h : s.DriverSound options) (hstep : driverStep options s action = some t)
    (hwaits : i ∈ s.scanWaiters) : Served s action t i ∨
      i ∈ t.scanWaiters ∧ t.scanWaiters.idxOf i ≤ s.scanWaiters.idxOf i ∧
        ((∃ k, action = .release k) → t.scanWaiters.idxOf i < s.scanWaiters.idxOf i) := by
  obtain ⟨owner, hcalled, hqueued⟩ := (h.slots.waiting i).mp hwaits
  obtain ⟨hnoRelease, -, hquiet⟩ | ⟨k, other, _, rfl, hother, hphase, rfl⟩ | ⟨rfl, rfl⟩ :=
    step_cases h.entries.refs hstep
  · obtain ⟨-, _, hnew, -⟩ := quiets_scanWaiters hquiet
    rw [hnew, idxOf_append_of_mem hwaits]
    exact .inr ⟨mem_append_left _ hwaits, le_rfl, fun ⟨k, hk⟩ => absurd hk (hnoRelease k)⟩
  · obtain ⟨first, rest, hline⟩ := exists_cons_of_ne_nil (ne_nil_of_mem hwaits)
    obtain ⟨hwaiters, hactive, howners⟩ := release_scanWaiters h.slots k other hline
    by_cases hfirst : first = i
    · subst hfirst
      refine .inl (.inl ⟨⟨k, rfl⟩, by rw [hwaiters, hline], ?_, hactive⟩)
      have hne : k ≠ first := by
        rintro rfl
        rw [hcalled] at hother
        rw [Option.some.inj hother, hphase] at hqueued
        cases hqueued
      have hmoved : (s.move k other .ended).owners[first]? = some owner :=
        (getElem?_set_ne hne).trans hcalled
      unfold phaseOf
      rw [howners, getElem?_modify_eq, hmoved]
      rfl
    · have hidx : s.scanWaiters.idxOf i = rest.idxOf i + 1 := by
        rw [hline]
        exact idxOf_cons_ne _ hfirst
      have hrest : i ∈ rest := by
        rw [hline] at hwaits
        exact (mem_cons.mp hwaits).resolve_left (Ne.symm hfirst)
      rw [hwaiters, hidx]
      exact .inr ⟨hrest, by omega, fun _ => by omega⟩
  · refine .inl (.inr ⟨rfl, ?_⟩)
    have hrefused : s.dispose.owners[i]? = (s.refuseAll s.scanWaiters).owners[i]? := rfl
    unfold phaseOf
    rw [hrefused, getElem?_refuseAll, hcalled]
    simp [hwaits]

lemma owners_grow (h : s.DriverSound options) (hstep : driverStep options s action = some t) :
    s.owners.length ≤ t.owners.length := by
  obtain ⟨-, -, hquiet⟩ | ⟨k, other, _, -, -, -, rfl⟩ | ⟨-, rfl⟩ := step_cases h.entries.refs hstep
  · exact (quiets_scanWaiters hquiet).1
  · exact (release_shrinks s k other).1.ge
  · exact (length_mapIdx (l := s.owners)).ge

lemma never_waits_again (h : s.DriverSound options) (hstep : driverStep options s action = some t)
    (hold : i < s.owners.length) (hleft : i ∉ s.scanWaiters) : i ∉ t.scanWaiters := by
  obtain ⟨-, -, hquiet⟩ | ⟨k, other, _, -, -, -, rfl⟩ | ⟨-, rfl⟩ := step_cases h.entries.refs hstep
  · obtain ⟨-, _, hnew, hbounds⟩ := quiets_scanWaiters hquiet
    intro hmem
    rw [hnew] at hmem
    rcases mem_append.mp hmem with hbefore | hlate
    · exact hleft hbefore
    · have hge := (hbounds i hlate).1
      omega
  · exact fun hmem => hleft ((release_shrinks s k other).2 hmem)
  · exact nofun

lemma Served.left (h : s.SlotsSound options) (hserved : Served s action t i)
    (hstep : driverStep options s action = some t) : i ∉ t.scanWaiters := by
  rcases hserved with ⟨-, hline, -⟩ | ⟨rfl, -⟩
  · have hnodup := h.nodup
    rw [hline, nodup_cons] at hnodup
    exact hnodup.1
  · cases hstep
    exact nofun

end Queue

/-! ## Runs whose scans end -/

section Runs

variable {options : TaskControlDriverOptions} {states : ℕ → TaskControlDriver}
  {actions : ℕ → DriverAction} {n i : ℕ}

/-- Every slot holder takes its next step some time: it resumes, its scan settles, it releases. -/
def HoldersProceed (states : ℕ → TaskControlDriver) (actions : ℕ → DriverAction) : Prop :=
  ∀ n i, (states n).Holds i → ∃ m, n ≤ m ∧ (actions m).Drives i

section

variable (hrun : InfiniteRun (driverStep options) states actions)

include hrun

lemma slot_released (hsound : ∀ n, (states n).DriverSound options) (hfair : HoldersProceed states actions)
    (hholds : (states n).Holds i) : ∃ m, n ≤ m ∧ actions m = .release i := by
  obtain ⟨m, hle, -, hreleases⟩ := answered_of_rank
    (P := fun n => (states n).Holds i) (Q := fun n => actions n = .release i)
    (D := fun n => (actions n).Drives i) (fun n => (states n).remaining options i)
    (fun n hpending => hpending.step (hsound n) (hrun n)) (fun n hpending => hfair n i hpending) hholds
  exact ⟨m, hle, hreleases⟩

lemma slot_released_of_waiting (hsound : ∀ n, (states n).DriverSound options)
    (hfair : HoldersProceed states actions) (hwaits : i ∈ (states n).scanWaiters) :
    ∃ m, n ≤ m ∧ ∃ k, actions m = .release k := by
  have hfull := (hsound n).slots.saturated (ne_nil_of_mem hwaits)
  have hpos : 0 < (states n).owners.countP fun owner => owner.phase.holdsSlot := by
    rw [← (hsound n).slots.slots, hfull]
    exact options.maximumConcurrentScans_pos
  obtain ⟨owner, hmem, hslot⟩ := countP_pos_iff.mp hpos
  obtain ⟨k, hcalled⟩ := mem_iff_getElem?.mp hmem
  obtain ⟨m, hle, hreleases⟩ := slot_released hrun hsound hfair ⟨owner, hcalled, hslot⟩
  exact ⟨m, hle, k, hreleases⟩

/-- An owner in line is given a released slot, or refused by the disposal, and never waits again. -/
theorem queue_served (hsound : ∀ n, (states n).DriverSound options) (hfair : HoldersProceed states actions)
    (hwaits : i ∈ (states n).scanWaiters) :
    ∃ m, n ≤ m ∧ i ∈ (states m).scanWaiters ∧ Served (states m) (actions m) (states (m + 1)) i ∧
      ∀ k, m < k → i ∉ (states k).scanWaiters := by
  obtain ⟨m, hle, hpending, hserved⟩ := answered_of_rank (P := fun n => i ∈ (states n).scanWaiters)
    (Q := fun n => Served (states n) (actions n) (states (n + 1)) i)
    (D := fun n => ∃ k, actions n = .release k) (fun n => (states n).scanWaiters.idxOf i)
    (fun n hpending => line_step (hsound n) (hrun n) hpending)
    (fun n hpending => slot_released_of_waiting hrun hsound hfair hpending) hwaits
  refine ⟨m, hle, hpending, hserved, fun k hk => ?_⟩
  have hknown : i < (states (m + 1)).owners.length := by
    obtain ⟨_, hcalled, -⟩ := ((hsound m).slots.waiting i).mp hpending
    exact (List.getElem?_eq_some_iff.mp hcalled).1.trans_le (owners_grow (hsound m) (hrun m))
  have hgone : ∀ d, i < (states (m + 1 + d)).owners.length ∧ i ∉ (states (m + 1 + d)).scanWaiters := by
    intro d
    induction d with
    | zero => exact ⟨hknown, hserved.left (hsound m).slots (hrun m)⟩
    | succ d ih =>
      exact ⟨ih.1.trans_le (owners_grow (hsound _) (hrun (m + 1 + d))),
        never_waits_again (hsound _) (hrun (m + 1 + d)) ih.1 ih.2⟩
  have hlast := (hgone (k - (m + 1))).2
  rwa [Nat.add_sub_cancel' hk] at hlast

end

end Runs

end TaskControlDriver

end OpenCorvus.Engine
