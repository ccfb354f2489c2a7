import OpenCorvus.ChannelRuntime.Core
import OpenCorvus.Foundation.ExecutableSystem
import Mathlib.Data.List.TakeWhile

/-!
# The relay of messages

An adapter that has started relays every message, in the order of arrival and one at a time, as long as no
invocation of `handleMessage` rejects with a message behind it: the delivery promise is a chain without a handler for
rejections, so the first rejection takes every later message along, and a rejection of the startup buffer's delivery
stops the adapter.
-/

namespace OpenCorvus.ChannelRuntime

open PromiseChain ExecutableSystem List Option

variable {μ : Type}

/-- How many links the start of the adapter still awaits. -/
def Owner.awaited (owner : Owner μ) : ℕ :=
  match owner.startup with
  | .delivering flushed => flushed
  | _ => 0

/-! ## What one event does to one adapter -/

namespace Runtime

variable {s s' : Runtime μ} {e : Event μ} {i : ℕ} {owner : Owner μ}

inductive OwnerStep (i : ℕ) (owner : Owner μ) : Event μ → Owner μ → Prop
  | message (m : μ) : OwnerStep i owner (.message i m) (owner.onMessage m).1
  | started {owner' : Owner μ} (h : owner.started = some owner') : OwnerStep i owner (.started i) owner'
  | startFailed {owner' : Owner μ} (h : owner.startFailed = some owner') :
      OwnerStep i owner (.startFailed i) owner'
  | reacts {k : ℕ} {delivery : Chain μ} (h : owner.delivery.react k = some delivery) :
      OwnerStep i owner (.reacts i k) { owner with delivery }
  | handled {k : ℕ} {succeeded : Bool} {delivery : Chain μ}
      (h : owner.delivery.settle k succeeded = some delivery) :
      OwnerStep i owner (.handled i k succeeded) { owner with delivery }
  | delivered {owner' : Owner μ} (h : owner.delivered = some owner') : OwnerStep i owner (.delivered i) owner'
  | cleaned {owner' : Owner μ} {succeeded : Bool} (h : owner.cleaned = some owner') :
      OwnerStep i owner (.cleaned i succeeded) owner'

def Event.adapter : Event μ → Option ℕ
  | .message i _ => some i
  | .started i => some i
  | .startFailed i => some i
  | .reacts i _ => some i
  | .handled i _ _ => some i
  | .delivered i => some i
  | .cleaned i _ => some i
  | .startSettled => none
  | .stop => none
  | .released _ => none

variable {j : ℕ} {action : Owner μ → Option (Owner μ)} {received : List μ} {owner' : Owner μ}

lemma act_eq_some :
    s.act j action = some s' ↔ ∃ owner owner', s.owners[j]? = some owner ∧ action owner = some owner' ∧
      { s with owners := s.owners.set j owner' } = s' := by
  simp only [act, bind_eq_some_iff, map_eq_some_iff]
  constructor
  · rintro ⟨owner, howner, owner', haction, rfl⟩
    exact ⟨owner, owner', howner, haction, rfl⟩
  · rintro ⟨owner, owner', howner, haction, rfl⟩
    exact ⟨owner, howner, owner', haction, rfl⟩

@[simp] lemma mem_publishActiveAdapters :
    i ∈ s.publishActiveAdapters.adapters ↔ ∃ owner, s.owners[i]? = some owner ∧ owner.admitted := by
  simp only [publishActiveAdapters, mem_filter, mem_range]
  constructor
  · rintro ⟨-, hany⟩
    simpa [Option.any_eq_true] using hany
  · rintro ⟨_, howner, hadmitted⟩
    exact ⟨(List.getElem?_eq_some_iff.mp howner).1, by simp [howner, hadmitted]⟩

lemma startSettled_frame (h : s.startSettled = some s') :
    s'.owners = s.owners ∧ s'.adapters = s.adapters ∧ (s'.running = true → s.running = true) := by
  unfold startSettled at h
  split at h
  · split at h
    · obtain rfl := some.inj h
      exact ⟨rfl, rfl, id⟩
    · split at h
      · obtain rfl := some.inj h
        exact ⟨rfl, rfl, fun h => absurd h Bool.false_ne_true⟩
      · split at h
        · obtain rfl := some.inj h
          exact ⟨rfl, rfl, fun h => absurd h Bool.false_ne_true⟩
        · obtain rfl := some.inj h
          exact ⟨rfl, rfl, id⟩
  · cases h

lemma act_owner (hact : s.act j action = some s') (howner : s.owners[i]? = some owner) :
    (j = i ∧ ∃ owner', action owner = some owner' ∧ s'.owners[i]? = some owner') ∨
      j ≠ i ∧ s'.owners[i]? = some owner := by
  obtain ⟨own, own', hown, haction, rfl⟩ := act_eq_some.mp hact
  by_cases hj : j = i
  · subst hj
    obtain rfl : own = owner := some.inj (hown.symm.trans howner)
    have hlt := (List.getElem?_eq_some_iff.mp hown).1
    exact .inl ⟨rfl, own', haction, by simp [hlt]⟩
  · exact .inr ⟨hj, by simpa [getElem?_set_ne hj] using howner⟩

theorem step_owner (hstep : step s e = some s') (howner : s.owners[i]? = some owner) :
    ∃ owner', s'.owners[i]? = some owner' ∧
      (e.adapter = some i ∧ OwnerStep i owner e owner' ∨ e.adapter ≠ some i ∧ owner' = owner) := by
  cases e with
  | message _ m =>
    rcases act_owner hstep howner with ⟨rfl, _, haction, howner'⟩ | ⟨hj, howner'⟩
    · obtain rfl := some.inj haction
      exact ⟨_, howner', .inl ⟨rfl, .message m⟩⟩
    · exact ⟨owner, howner', .inr ⟨by simpa [Event.adapter] using hj, rfl⟩⟩
  | started =>
    obtain ⟨_, hact, rfl⟩ := map_eq_some_iff.mp hstep
    rcases act_owner hact howner with ⟨rfl, owner', haction, howner'⟩ | ⟨hj, howner'⟩
    · exact ⟨owner', howner', .inl ⟨rfl, .started haction⟩⟩
    · exact ⟨owner, howner', .inr ⟨by simpa [Event.adapter] using hj, rfl⟩⟩
  | startFailed =>
    obtain ⟨_, hact, rfl⟩ := map_eq_some_iff.mp hstep
    rcases act_owner hact howner with ⟨rfl, owner', haction, howner'⟩ | ⟨hj, howner'⟩
    · exact ⟨owner', howner', .inl ⟨rfl, .startFailed haction⟩⟩
    · exact ⟨owner, howner', .inr ⟨by simpa [Event.adapter] using hj, rfl⟩⟩
  | reacts =>
    rcases act_owner hstep howner with ⟨rfl, _, haction, howner'⟩ | ⟨hj, howner'⟩
    · obtain ⟨_, hreact, rfl⟩ := map_eq_some_iff.mp haction
      exact ⟨_, howner', .inl ⟨rfl, .reacts hreact⟩⟩
    · exact ⟨owner, howner', .inr ⟨by simpa [Event.adapter] using hj, rfl⟩⟩
  | handled =>
    rcases act_owner hstep howner with ⟨rfl, _, haction, howner'⟩ | ⟨hj, howner'⟩
    · obtain ⟨_, hsettle, rfl⟩ := map_eq_some_iff.mp haction
      exact ⟨_, howner', .inl ⟨rfl, .handled hsettle⟩⟩
    · exact ⟨owner, howner', .inr ⟨by simpa [Event.adapter] using hj, rfl⟩⟩
  | delivered j =>
    obtain ⟨t, hact, rfl⟩ := map_eq_some_iff.mp hstep
    have howners : (if t.owners[j]?.any Owner.admitted then t
        else t.publishActiveAdapters).owners[i]? = t.owners[i]? := by
      split <;> rfl
    rw [howners]
    rcases act_owner hact howner with ⟨rfl, owner', haction, howner'⟩ | ⟨hj, howner'⟩
    · exact ⟨owner', howner', .inl ⟨rfl, .delivered haction⟩⟩
    · exact ⟨owner, howner', .inr ⟨by simpa [Event.adapter] using hj, rfl⟩⟩
  | cleaned j succeeded =>
    obtain ⟨t, hact, rfl⟩ := map_eq_some_iff.mp hstep
    have howners : (if succeeded then t
        else { t with cleanupPending := t.cleanupPending ++ [j] }).owners[i]? = t.owners[i]? := by
      split <;> rfl
    rw [howners]
    rcases act_owner hact howner with ⟨rfl, owner', haction, howner'⟩ | ⟨hj, howner'⟩
    · exact ⟨owner', howner', .inl ⟨rfl, .cleaned haction⟩⟩
    · exact ⟨owner, howner', .inr ⟨by simpa [Event.adapter] using hj, rfl⟩⟩
  | startSettled =>
    obtain ⟨howners, -, -⟩ := startSettled_frame hstep
    exact ⟨owner, by rw [howners, howner], .inr ⟨by simp [Event.adapter], rfl⟩⟩
  | stop =>
    obtain rfl := some.inj hstep
    exact ⟨owner, howner, .inr ⟨by simp [Event.adapter], rfl⟩⟩
  | released =>
    simp only [step, ite_none_left_eq_some] at hstep
    obtain ⟨-, hs'⟩ := hstep
    obtain rfl := some.inj hs'
    exact ⟨owner, howner, .inr ⟨by simp [Event.adapter], rfl⟩⟩

/-! ## The active adapters -/

def Listed (i : ℕ) (s : Runtime μ) : Prop :=
  s.running = true → ∀ owner, s.owners[i]? = some owner → owner.admitted = true → i ∈ s.adapters

lemma listed_publishActiveAdapters : Listed i s.publishActiveAdapters := by
  intro _ owner howner hadmitted
  exact mem_publishActiveAdapters.mpr ⟨owner, howner, hadmitted⟩

lemma Listed.act (h : Listed i s) (hact : s.act j action = some s')
    (hadmitted : ∀ own own', action own = some own' → own'.admitted = true → own.admitted = true) :
    Listed i s' := by
  obtain ⟨own, own', hown, haction, rfl⟩ := act_eq_some.mp hact
  intro hrunning owner howner hadm
  by_cases hj : j = i
  · subst hj
    have hlt := (List.getElem?_eq_some_iff.mp hown).1
    obtain rfl : own' = owner := by simpa [hlt] using howner
    exact h hrunning own hown (hadmitted own own' haction hadm)
  · exact h hrunning owner (by simpa [getElem?_set_ne hj] using howner) hadm

theorem listed_step : Preserves step (Listed (μ := μ) i) := by
  intro s e s' h hstep
  cases e with
  | message =>
    refine h.act hstep fun own own' haction hadm => ?_
    obtain rfl := some.inj haction
    revert hadm
    unfold Owner.onMessage
    repeat' split
    all_goals exact id
  | started | startFailed =>
    obtain ⟨_, -, rfl⟩ := map_eq_some_iff.mp hstep
    exact listed_publishActiveAdapters
  | reacts | handled =>
    refine h.act hstep fun own own' haction hadm => ?_
    obtain ⟨_, -, rfl⟩ := map_eq_some_iff.mp haction
    exact hadm
  | delivered =>
    obtain ⟨t, hact, rfl⟩ := map_eq_some_iff.mp hstep
    have ht : Listed i t := by
      refine h.act hact fun own own' haction hadm => ?_
      unfold Owner.delivered at haction
      split at haction
      · split at haction
        · obtain rfl := some.inj haction
          exact hadm
        · obtain rfl := some.inj haction
          exact absurd hadm Bool.false_ne_true
        · cases haction
      · cases haction
    split
    · exact ht
    · exact listed_publishActiveAdapters
  | cleaned =>
    obtain ⟨t, hact, rfl⟩ := map_eq_some_iff.mp hstep
    have ht : Listed i t := by
      refine h.act hact fun own own' haction hadm => ?_
      unfold Owner.cleaned at haction
      split at haction
      · obtain rfl := some.inj haction
        exact hadm
      · cases haction
    split
    · exact ht
    · exact ht
  | startSettled =>
    obtain ⟨howners, hadapters, hrunning⟩ := startSettled_frame hstep
    intro hrun owner howner hadm
    rw [hadapters]
    exact h (hrunning hrun) owner (howners ▸ howner) hadm
  | stop =>
    obtain rfl := some.inj hstep
    exact fun hrun => absurd hrun Bool.false_ne_true
  | released =>
    simp only [step, ite_none_left_eq_some] at hstep
    obtain ⟨hidle, hs'⟩ := hstep
    obtain rfl := some.inj hs'
    exact fun hrun => absurd hrun hidle

/-! ## Arrivals -/

def arrivals (i : ℕ) (events : List (Event μ)) : List μ :=
  events.filterMap fun
    | .message j m => if j = i then some m else none
    | _ => none

def Event.starts (i : ℕ) : Event μ → Bool
  | .started j => j = i
  | _ => false

def begun (i : ℕ) (events : List (Event μ)) : Bool := events.any (Event.starts i)

def early (i : ℕ) (events : List (Event μ)) : List μ :=
  arrivals i (events.takeWhile fun e => !e.starts i)

variable {events : List (Event μ)}

lemma arrivals_append (events more : List (Event μ)) :
    arrivals i (events ++ more) = arrivals i events ++ arrivals i more := by
  simp [arrivals]

@[simp] lemma begun_concat : begun i (events ++ [e]) = (begun i events || e.starts i) := by
  simp [begun]

lemma early_append (h : begun i events = true) (more : List (Event μ)) :
    early i (events ++ more) = early i events := by
  obtain ⟨x, hx, hstarts⟩ := List.any_eq_true.mp h
  have hlt : ¬ (events.takeWhile fun e => !e.starts i).length = events.length := by
    intro hlen
    have hall := takeWhile_eq_self_iff.mp (( takeWhile_prefix _).eq_of_length hlen) x hx
    simp [hstarts] at hall
  rw [early, takeWhile_append, if_neg hlt, early]

lemma early_concat_starts (h : begun i events = false) (he : e.starts i = true) :
    early i (events ++ [e]) = arrivals i events := by
  have hall : (events.takeWhile fun e => !e.starts i) = events :=
    takeWhile_eq_self_iff.mpr (by simpa [begun] using h)
  rw [early, takeWhile_append, if_pos (by rw [hall]), takeWhile_cons_of_neg (by simp [he]),
    List.append_nil]

/-! ## The condition -/

def Unbroken (i : ℕ) (s : Runtime μ) : Event μ → Prop
  | .message j _ => j = i → ∀ owner ∈ s.owners[i]?, owner.delivery.promise owner.delivery.links.length ≠ .rejected
  | .handled j k false => j = i → ∀ owner ∈ s.owners[i]?, owner.delivery.links.length = k + 1 ∧ owner.awaited ≤ k
  | _ => True

instance decidableUnbroken (i : ℕ) (s : Runtime μ) : (e : Event μ) → Decidable (Unbroken i s e)
  | .message j _ => inferInstanceAs (Decidable (j = i → ∀ owner ∈ s.owners[i]?,
      owner.delivery.promise owner.delivery.links.length ≠ .rejected))
  | .handled j k false => inferInstanceAs (Decidable (j = i → ∀ owner ∈ s.owners[i]?,
      owner.delivery.links.length = k + 1 ∧ owner.awaited ≤ k))
  | .handled _ _ true => inferInstanceAs (Decidable True)
  | .started _ => inferInstanceAs (Decidable True)
  | .startFailed _ => inferInstanceAs (Decidable True)
  | .reacts _ _ => inferInstanceAs (Decidable True)
  | .delivered _ => inferInstanceAs (Decidable True)
  | .cleaned _ _ => inferInstanceAs (Decidable True)
  | .startSettled => inferInstanceAs (Decidable True)
  | .stop => inferInstanceAs (Decidable True)
  | .released _ => inferInstanceAs (Decidable True)

/-! ## One adapter along a run -/

structure Waits (owner : Owner μ) (received : List μ) : Prop where
  admitted : owner.admitted = false
  settled : owner.settled = false
  failure : owner.failure = none
  buffer : owner.buffer = received
  delivery : owner.delivery = .resolved

/-- An adapter that has started and received these messages: its delivery holds all of them, and a rejection is
only at its end. -/
structure Delivers (owner : Owner μ) (received : List μ) : Prop where
  admitted : owner.admitted = true
  startup : owner.startup = .fulfilled ∨ ∃ flushed, owner.startup = .delivering flushed
  holds : ∃ done stage ahead, owner.delivery.Holds done stage ahead ∧
    owner.delivery.called ++ ahead = received ∧
    ∀ m lost, stage = .broken m lost → lost = [] ∧ ahead = [] ∧ owner.awaited ≤ done.length

/-- What holds of adapter `i` along a run. -/
structure Track (i : ℕ) (events : List (Event μ)) (owner : Owner μ) : Prop where
  unbegun : begun i events = false → owner.startup = .starting →
    (arrivals i events).length ≤ startupMessageLimit → Waits owner (arrivals i events)
  pending : begun i events = false → owner.startup ≠ .fulfilled ∧ ∀ flushed, owner.startup ≠ .delivering flushed
  begins : begun i events = true → owner.startup ≠ .starting
  delivers : begun i events = true → (early i events).length ≤ startupMessageLimit →
    Delivers owner (arrivals i events)

lemma Waits.onMessage (h : Waits owner received) (m : μ) (hfew : (received ++ [m]).length ≤ startupMessageLimit) :
    Waits (owner.onMessage m).1 (received ++ [m]) := by
  have hlt : ¬ startupMessageLimit ≤ owner.buffer.length := by
    rw [h.buffer]
    simp at hfew
    omega
  have hreply : owner.onMessage m = ({ owner with buffer := owner.buffer ++ [m] }, .resolved) := by
    simp [Owner.onMessage, h.admitted, h.failure, h.settled, hlt]
  rw [hreply]
  exact ⟨h.admitted, h.settled, h.failure, by rw [h.buffer], h.delivery⟩

lemma Waits.started (h : Waits owner received) (hstarted : owner.started = some owner') :
    Delivers owner' received := by
  unfold Owner.started at hstarted
  split at hstarted
  · rw [h.failure] at hstarted
    obtain rfl := some.inj hstarted
    obtain ⟨hholds, hcalled⟩ := Chain.holds_resolved.attachAll owner.buffer
    rw [← h.delivery] at hholds hcalled
    refine ⟨rfl, .inr ⟨_, rfl⟩, [], .idle, owner.buffer, hholds, ?_, fun _ _ hstage => by cases hstage⟩
    rw [hcalled, h.delivery, h.buffer]
    rfl
  · cases hstarted

lemma Delivers.onMessage (h : Delivers owner received) (m : μ)
    (hunbroken : owner.delivery.promise owner.delivery.links.length ≠ .rejected) :
    Delivers (owner.onMessage m).1 (received ++ [m]) := by
  obtain ⟨done, stage, ahead, hholds, hreceived, hstage⟩ := h.holds
  have hreply : (owner.onMessage m).1 = { owner with delivery := owner.delivery.attach m } := by
    simp [Owner.onMessage, h.admitted]
  rw [hreply]
  refine ⟨h.admitted, h.startup, done, stage, ahead ++ [m], hholds.attach m, ?_, ?_⟩
  · rw [← hreceived]
    simp [Chain.attach]
  · rintro x lost rfl
    obtain ⟨rfl, rfl, -⟩ := hstage x lost rfl
    exact absurd hholds.promise_last hunbroken

lemma Delivers.reacts {k : ℕ} {delivery : Chain μ} (h : Delivers owner received)
    (hreact : owner.delivery.react k = some delivery) :
    Delivers { owner with delivery } received := by
  obtain ⟨done, _, _, hholds, hreceived, hstage⟩ := h.holds
  rcases hholds.react hreact with ⟨m, rest, rfl, rfl, -, hholds'⟩ | ⟨m, lost, _, rest, rfl, rfl, -⟩
  · refine ⟨h.admitted, h.startup, done, .busy m, rest, hholds', ?_, fun _ _ hbusy => by cases hbusy⟩
    rw [← hreceived, hholds.called, hholds'.called]
    simp [Chain.Stage.called]
  · obtain ⟨-, hahead, -⟩ := hstage m lost rfl
    cases hahead

lemma Delivers.handled {k : ℕ} {succeeded : Bool} {delivery : Chain μ} (h : Delivers owner received)
    (hsettle : owner.delivery.settle k succeeded = some delivery)
    (hlast : succeeded = false → owner.delivery.links.length = k + 1 ∧ owner.awaited ≤ k) :
    Delivers { owner with delivery } received := by
  obtain ⟨done, _, ahead, hholds, hreceived, _⟩ := h.holds
  obtain ⟨m, rfl, rfl, hholds'⟩ := hholds.settle hsettle
  cases succeeded with
  | true =>
    replace hholds' : delivery.Holds (done ++ [m]) .idle ahead := by simpa using hholds'
    refine ⟨h.admitted, h.startup, done ++ [m], .idle, ahead, hholds', ?_, fun _ _ hidle => by cases hidle⟩
    rw [← hreceived, hholds.called, hholds'.called]
    simp [Chain.Stage.called]
  | false =>
    replace hholds' : delivery.Holds done (.broken m []) ahead := by simpa using hholds'
    obtain ⟨hlength, hawaited⟩ := hlast rfl
    rw [hholds.length, Chain.Stage.links, length_singleton] at hlength
    obtain rfl : ahead = [] := eq_nil_of_length_eq_zero (by omega)
    refine ⟨h.admitted, h.startup, done, .broken m [], [], hholds', ?_, ?_⟩
    · rw [← hreceived, hholds.called, hholds'.called]
      simp [Chain.Stage.called]
    · rintro _ _ hbroken
      obtain ⟨rfl, rfl⟩ := Chain.Stage.broken.inj hbroken
      exact ⟨rfl, rfl, hawaited⟩

/-- The start is not failed by a delivery that is not broken. -/
lemma Delivers.delivered (h : Delivers owner received) (hdelivered : owner.delivered = some owner') :
    Delivers owner' received := by
  obtain ⟨done, stage, ahead, hholds, hreceived, hstage⟩ := h.holds
  unfold Owner.delivered at hdelivered
  split at hdelivered
  · rename_i flushed hstartup
    split at hdelivered
    · obtain rfl := some.inj hdelivered
      refine ⟨h.admitted, .inl rfl, done, stage, ahead, hholds, hreceived, fun m lost hbroken => ?_⟩
      obtain ⟨hlost, hahead, -⟩ := hstage m lost hbroken
      exact ⟨hlost, hahead, Nat.zero_le _⟩
    · rename_i hrejected
      exfalso
      cases stage with
      | idle | busy => exact hholds.promise_ne_rejected (by simp [Chain.Stage.state]) flushed hrejected
      | broken m lost =>
        obtain ⟨-, -, hawaited⟩ := hstage m lost rfl
        rw [Owner.awaited, hstartup] at hawaited
        rw [hholds.promise_done hawaited] at hrejected
        cases hrejected
    · cases hdelivered
  · cases hdelivered

lemma arrivals_singleton : arrivals i [e] =
    match e with
    | .message j m => if j = i then [m] else []
    | _ => [] := by
  cases e with
  | message j =>
    by_cases hj : j = i
    · simp [arrivals, hj]
    · simp [arrivals, hj]
  | _ => rfl

lemma arrivals_of_ne (h : e.adapter ≠ some i) : arrivals i [e] = [] ∧ e.starts i = false := by
  cases e with
  | message j =>
    have hj : j ≠ i := by simpa [Event.adapter] using h
    exact ⟨by simp [arrivals_singleton, hj], rfl⟩
  | started j =>
    have hj : j ≠ i := by simpa [Event.adapter] using h
    exact ⟨rfl, by simp [Event.starts, hj]⟩
  | _ => exact ⟨rfl, rfl⟩

lemma Track.quiet (h : Track i events owner) (hnone : arrivals i [e] = []) (hstarts : e.starts i = false)
    (hstarting : owner'.startup = .starting → owner.startup = .starting)
    (hpending : (owner'.startup = .fulfilled ∨ ∃ flushed, owner'.startup = .delivering flushed) →
      owner.startup = .fulfilled ∨ ∃ flushed, owner.startup = .delivering flushed)
    (hwaits : ∀ received, owner'.startup = .starting → Waits owner received → Waits owner' received)
    (hdelivers : ∀ received, Delivers owner received → Delivers owner' received) :
    Track i (events ++ [e]) owner' := by
  have hbegun : begun i (events ++ [e]) = begun i events := by rw [begun_concat, hstarts, Bool.or_false]
  have harrivals : arrivals i (events ++ [e]) = arrivals i events := by
    rw [arrivals_append, hnone, List.append_nil]
  refine ⟨fun hb hs hfew => ?_, fun hb => ?_, fun hb => ?_, fun hb hfew => ?_⟩
  · rw [hbegun] at hb
    rw [harrivals] at hfew ⊢
    exact hwaits _ hs (h.unbegun hb (hstarting hs) hfew)
  · rw [hbegun] at hb
    have hnot : ¬(owner.startup = .fulfilled ∨ ∃ flushed, owner.startup = .delivering flushed) := by
      rintro (hful | ⟨flushed, hdel⟩)
      · exact (h.pending hb).1 hful
      · exact (h.pending hb).2 flushed hdel
    exact ⟨fun hful => hnot (hpending (.inl hful)), fun flushed hdel => hnot (hpending (.inr ⟨flushed, hdel⟩))⟩
  · rw [hbegun] at hb
    exact fun hs => h.begins hb (hstarting hs)
  · rw [hbegun] at hb
    rw [early_append hb] at hfew
    rw [harrivals]
    exact hdelivers _ (h.delivers hb hfew)

lemma startup_onMessage (m : μ) : (owner.onMessage m).1.startup = owner.startup := by
  unfold Owner.onMessage
  repeat' split
  all_goals rfl

lemma Track.message (h : Track i events owner) (m : μ)
    (hunbroken : owner.delivery.promise owner.delivery.links.length ≠ .rejected) :
    Track i (events ++ [.message i m]) (owner.onMessage m).1 := by
  have hbegun : begun i (events ++ [.message i m]) = begun i events := by simp [Event.starts]
  have harrivals : arrivals i (events ++ [.message i m]) = arrivals i events ++ [m] := by
    simp [arrivals]
  refine ⟨fun hb hs hfew => ?_, fun hb => ?_, fun hb => ?_, fun hb hfew => ?_⟩
  · rw [hbegun] at hb
    rw [harrivals] at hfew ⊢
    rw [startup_onMessage] at hs
    refine (h.unbegun hb hs ?_).onMessage m hfew
    simp at hfew
    omega
  · rw [hbegun] at hb
    rw [startup_onMessage]
    exact h.pending hb
  · rw [hbegun] at hb
    rw [startup_onMessage]
    exact h.begins hb
  · rw [hbegun] at hb
    rw [early_append hb] at hfew
    rw [harrivals]
    exact (h.delivers hb hfew).onMessage m hunbroken

lemma Track.started (h : Track i events owner) (hstarted : owner.started = some owner') :
    Track i (events ++ [.started i]) owner' := by
  have hstarting : owner.startup = .starting := by
    unfold Owner.started at hstarted
    split at hstarted
    · assumption
    · cases hstarted
  have hbegun : begun i events = false := by
    by_contra hb
    exact h.begins (by simpa using hb) hstarting
  have hstarts : Event.starts i (.started i : Event μ) = true := by simp [Event.starts]
  have harrivals : arrivals i (events ++ [.started i]) = arrivals i events := by
    rw [arrivals_append, arrivals_singleton, List.append_nil]
  refine ⟨fun hb => ?_, fun hb => ?_, fun _ => ?_, fun _ hfew => ?_⟩
  · simp [hstarts] at hb
  · simp [hstarts] at hb
  · unfold Owner.started at hstarted
    split at hstarted
    · split at hstarted
      · obtain rfl := some.inj hstarted
        simp [Owner.fail]
      · obtain rfl := some.inj hstarted
        simp
    · cases hstarted
  · rw [early_concat_starts hbegun hstarts] at hfew
    rw [harrivals]
    exact (h.unbegun hbegun hstarting hfew).started hstarted

theorem Track.step (h : Track i events owner) (howner : s.owners[i]? = some owner) (hok : Unbroken i s e)
    (hstep : OwnerStep i owner e owner') : Track i (events ++ [e]) owner' := by
  cases hstep with
  | message m => exact h.message m (hok rfl owner howner)
  | started hstarted => exact h.started hstarted
  | startFailed hfailed =>
    unfold Owner.startFailed at hfailed
    split at hfailed
    · rename_i hstarting
      obtain rfl := some.inj hfailed
      refine h.quiet rfl rfl (by simp [Owner.fail]) (by simp [Owner.fail]) (by simp [Owner.fail]) ?_
      intro received hdelivers
      rcases hdelivers.startup with hful | ⟨_, hdel⟩
      · rw [hstarting] at hful
        cases hful
      · rw [hstarting] at hdel
        cases hdel
    · cases hfailed
  | reacts hreact =>
    refine h.quiet rfl rfl id id (fun received _ hwaits => ?_) (fun received hd => hd.reacts hreact)
    rw [hwaits.delivery] at hreact
    simp [Chain.react, Chain.resolved] at hreact
  | @handled _ _ _ hsettle =>
    refine h.quiet rfl rfl id id (fun received _ hwaits => ?_) (fun received hd => ?_)
    · rw [hwaits.delivery] at hsettle
      simp [Chain.settle, Chain.resolved] at hsettle
    · refine hd.handled hsettle ?_
      rintro rfl
      exact hok rfl owner howner
  | delivered hdelivered =>
    have hstartup : ∃ flushed, owner.startup = .delivering flushed := by
      unfold Owner.delivered at hdelivered
      split at hdelivered
      · exact ⟨_, by assumption⟩
      · cases hdelivered
    have hnot : owner'.startup ≠ .starting := by
      unfold Owner.delivered at hdelivered
      split at hdelivered
      · split at hdelivered
        · obtain rfl := some.inj hdelivered
          simp
        · obtain rfl := some.inj hdelivered
          simp [Owner.fail]
        · cases hdelivered
      · cases hdelivered
    exact h.quiet rfl rfl (fun hs => absurd hs hnot) (fun _ => .inr hstartup)
      (fun _ hs => absurd hs hnot) (fun received hd => hd.delivered hdelivered)
  | cleaned hcleaned =>
    unfold Owner.cleaned at hcleaned
    split at hcleaned
    · rename_i hstopping
      obtain rfl := some.inj hcleaned
      refine h.quiet rfl rfl (by simp) (by simp) (by simp) ?_
      intro received hdelivers
      rcases hdelivers.startup with hful | ⟨_, hdel⟩
      · rw [hstopping] at hful
        cases hful
      · rw [hstopping] at hdel
        cases hdel
    · cases hcleaned

lemma exists_track {platforms : List String} (hi : i < platforms.length)
    (hrun : exec step (launched platforms) events = some s)
    (hok : Within step (Unbroken i) (launched platforms) events) :
    ∃ owner, s.owners[i]? = some owner ∧ Track i events owner := by
  refine exec_history (P := fun events s => Within step (Unbroken i) (launched platforms) events →
    ∃ owner, s.owners[i]? = some owner ∧ Track i events owner) ?_ ?_ hrun hok
  · intro _
    refine ⟨.candidate platforms[i], by simp [launched, hi], ?_, ?_, ?_, ?_⟩
    · exact fun _ _ _ => ⟨rfl, rfl, rfl, rfl, rfl⟩
    · exact fun _ => ⟨by simp [Owner.candidate], by simp [Owner.candidate]⟩
    · exact fun hb => absurd hb Bool.false_ne_true
    · exact fun hb => absurd hb Bool.false_ne_true
  · intro before t e t' hbefore ih hstep hwithin
    obtain ⟨hwithin, hlast⟩ := within_append.mp hwithin
    obtain ⟨_, howner, htrack⟩ := ih hwithin
    obtain ⟨owner', howner', ⟨-, hown⟩ | ⟨hne, rfl⟩⟩ := step_owner hstep howner
    · exact ⟨owner', howner', htrack.step howner (hlast t hbefore).1 hown⟩
    · obtain ⟨hnone, hstarts⟩ := arrivals_of_ne hne
      exact ⟨owner', howner', htrack.quiet hnone hstarts id id (fun _ _ h => h) (fun _ h => h)⟩

/-! ## The law -/

/-- The event is a reaction of the delivery of adapter `i`, or the end of an invocation of `handleMessage`. -/
def Event.relays (i : ℕ) : Event μ → Prop
  | .reacts j _ => j = i
  | .handled j _ _ => j = i
  | _ => False

/-- The delivery of the adapter has nothing left to do: no link can react, and no invocation runs. -/
def Drained (owner : Owner μ) : Prop :=
  ∀ k succeeded, owner.delivery.react k = none ∧ owner.delivery.settle k succeeded = none

/-- Adapter `i` relays what it has received: it is active, `handleMessage` was invoked once for each message of
a first part of what has arrived, in that order, on one message at a time, and for all of it once the delivery is
drained. -/
structure Relays (i : ℕ) (events : List (Event μ)) (s : Runtime μ) (owner : Owner μ) : Prop where
  place : s.owners[i]? = some owner
  admitted : owner.admitted = true
  active : i ∈ s.adapters
  ordered : owner.delivery.called <+: arrivals i events
  serial : owner.delivery.running.length ≤ 1
  drained : Drained owner → owner.delivery.called = arrivals i events

lemma relay_steps_le {more : List (Event μ)} (howner : s.owners[i]? = some owner)
    (hholds : ∃ done stage ahead, owner.delivery.Holds done stage ahead)
    (hrelays : ∀ e ∈ more, Event.relays i e) (hrun : exec step s more = some s') :
    more.length ≤ owner.delivery.work := by
  induction more generalizing s owner with
  | nil => exact Nat.zero_le _
  | cons e more ih =>
    obtain ⟨_, hstep, hrest⟩ := (exec_cons_eq_some step).mp hrun
    obtain ⟨_, _, _, hholds⟩ := hholds
    have hrelay := hrelays e mem_cons_self
    have hmore : ∀ e ∈ more, Event.relays i e := fun e he => hrelays e (mem_cons_of_mem _ he)
    obtain ⟨_, howner', ⟨_, hown⟩ | ⟨hne, rfl⟩⟩ := step_owner hstep howner
    · cases hown with
      | @reacts _ _ hreact =>
        have hwork := hholds.react_work hreact
        have hle := ih howner' (by
          rcases hholds.react hreact with ⟨_, _, -, -, -, h⟩ | ⟨_, _, _, _, -, -, h⟩
          · exact ⟨_, _, _, h⟩
          · exact ⟨_, _, _, h⟩) hmore hrest
        rw [length_cons]
        exact lt_of_le_of_lt hle hwork
      | @handled _ succeeded _ hsettle =>
        have hwork := hholds.settle_work hsettle
        have hle := ih howner' (by
          obtain ⟨_, -, -, h⟩ := hholds.settle hsettle
          cases succeeded with
          | true => exact ⟨_, _, _, by simpa using h⟩
          | false => exact ⟨_, _, _, by simpa using h⟩) hmore hrest
        rw [length_cons]
        exact lt_of_le_of_lt hle hwork
      | _ => exact absurd hrelay (by simp [Event.relays])
    · cases e with
      | reacts j => exact absurd (congrArg some (show j = i from hrelay)) hne
      | handled j => exact absurd (congrArg some (show j = i from hrelay)) hne
      | _ => exact absurd hrelay (by simp [Event.relays])

/-- The relay's law: in every run in which no rejected invocation of `handleMessage` has a message behind it or is
awaited by the start, an adapter that has started, with no more early messages than its startup buffer holds,
relays every message while the runtime runs, and its delivery drains. -/
theorem relay_loses_nothing {platforms : List String} (hi : i < platforms.length)
    (hrun : exec step (launched platforms) events = some s)
    (hok : Within step (Unbroken i) (launched platforms) events)
    (hbegun : begun i events = true) (hearly : (early i events).length ≤ startupMessageLimit)
    (hrunning : s.running = true) :
    ∃ owner, Relays i events s owner ∧ ∀ more s', (∀ e ∈ more, Event.relays i e) → exec step s more = some s' →
        more.length ≤ owner.delivery.work := by
  obtain ⟨owner, howner, htrack⟩ := exists_track hi hrun hok
  have hdelivers := htrack.delivers hbegun hearly
  obtain ⟨done, stage, ahead, hholds, hreceived, hstage⟩ := hdelivers.holds
  have hlisted : Listed i s := by
    refine listed_step.exec (fun _ owner hmem hadmitted => ?_) hrun
    obtain ⟨_, -, rfl⟩ := List.mem_map.mp (mem_of_getElem? hmem)
    exact absurd hadmitted Bool.false_ne_true
  refine ⟨owner, ⟨howner, hdelivers.admitted, hlisted hrunning owner howner hdelivers.admitted,
    ⟨ahead, hreceived⟩, hholds.running_le_one, fun hdrained => ?_⟩, fun more s' hrelays hmore =>
    relay_steps_le howner ⟨done, stage, ahead, hholds⟩ hrelays hmore⟩
  have hahead : ahead = [] := by
    cases stage with
    | idle => exact hholds.ahead_eq_nil (.inl rfl) hdrained
    | busy m => exact hholds.ahead_eq_nil (.inr ⟨m, rfl⟩) hdrained
    | broken m lost => exact (hstage m lost rfl).2.1
  rw [hahead, List.append_nil] at hreceived
  exact hreceived

/-- An adapter that receives a message while it starts and one afterwards. -/
theorem relay_loses_nothing_two_messages :
    ∃ s : Runtime String, ∃ owner, Relays 0 [.message 0 "a", .started 0, .reacts 0 0, .handled 0 0 true,
      .delivered 0, .message 0 "b", .reacts 0 1, .handled 0 1 false] s owner := by
  obtain ⟨owner, hrelays, -⟩ := @relay_loses_nothing String _ 0
    [.message 0 "a", .started 0, .reacts 0 0, .handled 0 0 true, .delivered 0, .message 0 "b",
      .reacts 0 1, .handled 0 1 false] ["slack"] (by decide) rfl (by decide) (by decide) (by decide) (by decide)
  exact ⟨_, owner, hrelays⟩

def rejectedRun : List (Event String) :=
  [.started 0, .delivered 0, .startSettled, .message 0 "a", .reacts 0 0, .message 0 "b", .handled 0 0 false,
    .reacts 0 1]

/-- Where the rejected run leads: the second message is rejected with the first. -/
def rejectedRuntime : Runtime String :=
  { owners := [{ platform := "slack", admitted := true, settled := true, buffer := [], failure := none,
                 startup := .fulfilled,
                 delivery := { links := [("a", .rejected), ("b", .rejected)], called := ["a"] } }]
    adapters := [0]
    cleanupPending := []
    receipt := some (.channels ["slack"] [])
    running := true }

/-- A started adapter of a running runtime loses a message behind a rejected one: its delivery is drained and
`handleMessage` was never invoked for it. -/
theorem relay_loses_message_after_rejection :
    exec step (launched ["slack"]) rejectedRun = some rejectedRuntime ∧ begun 0 rejectedRun = true ∧
      early 0 rejectedRun = [] ∧ arrivals 0 rejectedRun = ["a", "b"] ∧
      (∀ owner ∈ rejectedRuntime.owners[0]?, Drained owner ∧ owner.delivery.called = ["a"]) ∧
      ∀ owner, ¬Relays 0 rejectedRun rejectedRuntime owner := by
  have hdrained : ∀ owner ∈ rejectedRuntime.owners[0]?, Drained owner ∧ owner.delivery.called = ["a"] := by
    intro owner howner
    obtain rfl := some.inj howner
    refine ⟨fun k succeeded => ?_, rfl⟩
    have hholds : Chain.Holds (⟨[("a", .rejected), ("b", .rejected)], ["a"]⟩ : Chain String) []
        (.broken "a" ["b"]) [] := ⟨rfl, rfl⟩
    exact hholds.stuck k succeeded
  refine ⟨by decide, by decide, by decide, by decide, hdrained, fun owner hrelays => ?_⟩
  obtain ⟨hstuck, hcalled⟩ := hdrained owner hrelays.place
  have hall := hrelays.drained hstuck
  rw [hcalled] at hall
  exact absurd hall (by decide)

end Runtime

end OpenCorvus.ChannelRuntime
