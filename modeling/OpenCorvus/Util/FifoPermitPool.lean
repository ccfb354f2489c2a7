import Mathlib.Algebra.GroupWithZero.Nat
import Mathlib.Data.List.Perm.Subperm
import Mathlib.Order.MinMax
import Mathlib.Order.Nat
import OpenCorvus.Foundation.ExecutableSystem

/-!
# The permit pool

`FifoPermitPool` grants at most `limit` permits at a time, in the order of the requests.  No operation awaits, so
each is one action.  The numbers of the requests, and which of them were granted, rejected and returned, are kept
for the statements.
-/

namespace OpenCorvus.Util

open ExecutableSystem List

structure PermitWaiter where
  request : ℕ
  signal : Option ℕ
  deriving DecidableEq

open PermitWaiter

structure FifoPermitPool where
  capacity : ℕ
  active : ℕ
  waiters : List PermitWaiter
  aborted : List ℕ
  requests : ℕ
  granted : List ℕ
  rejected : List PermitWaiter
  returned : List ℕ

namespace FifoPermitPool

def initial (limit : ℕ) : FifoPermitPool := ⟨limit, 0, [], [], 0, [], [], []⟩

variable (s : FifoPermitPool)

/-- `signal.aborted` -/
def isAborted (signal : Option ℕ) : Bool := signal.any (· ∈ s.aborted)

def grant (request : ℕ) : FifoPermitPool := { s with active := s.active + 1, granted := s.granted ++ [request] }

def reject (waiter : PermitWaiter) : FifoPermitPool := { s with rejected := s.rejected ++ [waiter] }

/-- The loop of `drain` over the waiters. -/
def drainFrom : List PermitWaiter → FifoPermitPool → FifoPermitPool
  | [], s => { s with waiters := [] }
  | waiter :: waiters, s =>
    if s.active < s.capacity then
      drainFrom waiters (if s.isAborted waiter.signal then s.reject waiter else s.grant waiter.request)
    else { s with waiters := waiter :: waiters }

def drain : FifoPermitPool := drainFrom s.waiters s

def onAbort (waiter : PermitWaiter) : FifoPermitPool :=
  if waiter ∈ s.waiters then drain ({ s with waiters := s.waiters.erase waiter }.reject waiter) else s

inductive Action where
  | acquire (signal : Option ℕ)
  | abort (signal : ℕ)
  | release (request : ℕ)
  | resize (limit : ℕ)

/-- An acquisition with an aborted signal throws, and so does a limit that is no positive safe integer. -/
def step : Action → Option FifoPermitPool
  | .acquire signal =>
    let next := { s with requests := s.requests + 1 }
    if s.isAborted signal then some s
    else if s.active < s.capacity ∧ s.waiters = [] then some (next.grant s.requests)
    else some (drain { next with waiters := s.waiters ++ [⟨s.requests, signal⟩] })
  | .abort signal =>
    some ((s.waiters.filter (·.signal = some signal)).foldl onAbort { s with aborted := signal :: s.aborted })
  | .release request =>
    if request ∉ s.granted then none
    else if request ∈ s.returned then some s
    else some (drain { s with active := s.active - 1, returned := request :: s.returned })
  | .resize limit => some (if 1 ≤ limit ∧ limit < 2 ^ 53 then drain { s with capacity := limit } else s)

/-- Permits are granted in the order of the requests that were not aborted, and each is returned at most once. -/
structure Fair : Prop where
  ordered : s.granted.Pairwise (· < ·)
  first : ∀ request ∈ s.granted, ∀ earlier < request, earlier ∈ s.granted ∨
    ∃ waiter ∈ s.rejected, waiter.request = earlier ∧ s.isAborted waiter.signal
  full : s.waiters ≠ [] → s.capacity ≤ s.active
  returned : s.returned.Nodup ∧ s.returned ⊆ s.granted
  counted : s.active + s.returned.length = s.granted.length

/-- What the operations keep; that the waiters wait only for permits is left to `drain`. -/
structure Sound : Prop where
  ordered : (s.granted ++ s.waiters.map PermitWaiter.request).Pairwise (· < ·)
  numbered : ∀ request ∈ s.granted ++ s.waiters.map PermitWaiter.request, request < s.requests
  settled : ∀ request < s.requests, request ∈ s.granted ++ s.waiters.map PermitWaiter.request ∨
    ∃ waiter ∈ s.rejected, waiter.request = request
  rejected : ∀ waiter ∈ s.rejected, s.isAborted waiter.signal
  returned : s.returned.Nodup ∧ s.returned ⊆ s.granted
  counted : s.active + s.returned.length = s.granted.length

variable {s} {s' : FifoPermitPool} {waiter : PermitWaiter} {waiters : List PermitWaiter}

lemma Sound.fair (h : s.Sound) (hfull : s.waiters ≠ [] → s.capacity ≤ s.active) : s.Fair := by
  refine ⟨(pairwise_append.mp h.ordered).1, fun request hrequest earlier hlt => ?_, hfull, h.returned, h.counted⟩
  have hnumber := h.numbered request (mem_append_left _ hrequest)
  rcases h.settled earlier (hlt.trans hnumber) with hsettled | ⟨waiter, hwaiter, rfl⟩
  · rcases mem_append.mp hsettled with hgranted | hwaits
    · exact .inl hgranted
    · exact absurd ((pairwise_append.mp h.ordered).2.2 request hrequest earlier hwaits) hlt.asymm
  · exact .inr ⟨waiter, hwaiter, rfl, h.rejected waiter hwaiter⟩

lemma Sound.leave (h : s.Sound) (hsublist : waiters.Sublist s.waiters) (haborted : s.isAborted waiter.signal)
    (hstay : ∀ other ∈ s.waiters, other = waiter ∨ other ∈ waiters) : ({ s with waiters }.reject waiter).Sound := by
  have hrequests := (Sublist.refl s.granted).append (hsublist.map request)
  refine ⟨h.ordered.sublist hrequests, fun request hrequest => h.numbered request (hrequests.subset hrequest), ?_, ?_,
    h.returned, h.counted⟩
  · intro request hlt
    have := h.settled request hlt
    simp only [reject, mem_append, List.mem_map, mem_singleton] at this ⊢
    grind
  · intro other hother
    rcases mem_append.mp hother with hother | hother
    · exact h.rejected other hother
    · rwa [mem_singleton.mp hother]

lemma Sound.grant (h : Sound { s with waiters := waiter :: waiters }) : Sound { s.grant waiter.request with waiters } := by
  have hrequests : s.granted ++ (waiter :: waiters).map request =
      s.granted ++ [waiter.request] ++ waiters.map request := append_cons _ _ _
  refine ⟨hrequests ▸ h.ordered, hrequests ▸ h.numbered, hrequests ▸ h.settled, h.rejected,
    ⟨h.returned.1, fun request hrequest => mem_append_left _ (h.returned.2 hrequest)⟩, ?_⟩
  have := h.counted
  simp only [FifoPermitPool.grant, length_append, length_singleton] at this ⊢
  omega

lemma drainFrom_spec (h : Sound { s with waiters }) : (drainFrom waiters s).Fair ∧ (drainFrom waiters s).Sound ∧
    (drainFrom waiters s).active ≤ max s.active s.capacity ∧ (drainFrom waiters s).capacity = s.capacity ∧
      (drainFrom waiters s).aborted = s.aborted := by
  induction waiters generalizing s with
  | nil => exact ⟨h.fair (absurd rfl), h, le_max_left _ _, rfl, rfl⟩
  | cons waiter waiters ih =>
    rw [drainFrom]
    split
    case isTrue hfree =>
      split
      case isTrue haborted =>
        exact ih (h.leave (sublist_cons_self waiter waiters) haborted fun _ hother => mem_cons.mp hother)
      case isFalse =>
        obtain ⟨hfair, hsound, hactive, hcapacity⟩ := ih h.grant
        refine ⟨hfair, hsound, hactive.trans ?_, hcapacity⟩
        simp only [FifoPermitPool.grant]
        omega
    case isFalse hfull => exact ⟨h.fair fun _ => not_lt.mp hfull, h, le_max_left _ _, rfl, rfl⟩

lemma onAbort_spec (h : s.Sound) (hfair : s.Fair) (haborted : s.isAborted waiter.signal) :
    (s.onAbort waiter).Fair ∧ (s.onAbort waiter).Sound ∧ (s.onAbort waiter).active ≤ s.active ∧
      (s.onAbort waiter).aborted = s.aborted := by
  unfold onAbort
  split
  case isTrue hmem =>
    have hleave := h.leave (s.waiters.erase_sublist) haborted fun other hother => by
      by_cases heq : other = waiter
      · exact .inl heq
      · exact .inr ((mem_erase_of_ne heq).mpr hother)
    obtain ⟨hfair', hsound, hactive, -, hsignals⟩ := drainFrom_spec (s := { s with waiters := s.waiters.erase waiter }.reject waiter) hleave
    exact ⟨hfair', hsound, hactive.trans (max_le le_rfl (hfair.full (ne_nil_of_mem hmem))), hsignals⟩
  case isFalse => exact ⟨hfair, h, le_rfl, rfl⟩

lemma abort_spec (h : s.Sound) (hfair : s.Fair) (haborted : ∀ waiter ∈ waiters, s.isAborted waiter.signal) :
    (waiters.foldl onAbort s).Fair ∧ (waiters.foldl onAbort s).Sound ∧ (waiters.foldl onAbort s).active ≤ s.active := by
  induction waiters generalizing s with
  | nil => exact ⟨hfair, h, le_rfl⟩
  | cons _ _ ih =>
    obtain ⟨hfirst, hrest⟩ := forall_mem_cons.mp haborted
    obtain ⟨hfair', hsound, hactive, hsignals⟩ := onAbort_spec h hfair hfirst
    have ⟨hfair'', hsound', hactive'⟩ := ih hsound hfair' fun other hother => by
      rw [isAborted, hsignals]
      exact hrest other hother
    exact ⟨hfair'', hsound', hactive'.trans hactive⟩

lemma Sound.request (h : s.Sound) (signal : Option ℕ) :
    Sound { s with requests := s.requests + 1, waiters := s.waiters ++ [⟨s.requests, signal⟩] } := by
  have hrequests : s.granted ++ (s.waiters ++ [(⟨s.requests, signal⟩ : PermitWaiter)]).map PermitWaiter.request =
      s.granted ++ s.waiters.map PermitWaiter.request ++ [s.requests] := by
    rw [map_append, ← append_assoc]
    rfl
  refine ⟨?_, ?_, ?_, h.rejected, h.returned, h.counted⟩
  · rw [hrequests, pairwise_append]
    exact ⟨h.ordered, pairwise_singleton _ _, fun request hrequest _ hnew =>
      mem_singleton.mp hnew ▸ h.numbered request hrequest⟩
  · intro request hrequest
    rw [hrequests] at hrequest
    rcases mem_append.mp hrequest with hold | hnew
    · exact Nat.lt_succ_of_lt (h.numbered request hold)
    · exact mem_singleton.mp hnew ▸ Nat.lt_succ_self _
  · intro request hlt
    rw [hrequests]
    rcases Nat.lt_succ_iff_lt_or_eq.mp hlt with hold | rfl
    · exact (h.settled request hold).imp_left (mem_append_left _)
    · exact .inl (mem_append_right _ mem_cons_self)

/-- The operations keep the pool fair, and none of them raises the permits above the limit. -/
lemma step_spec {action : Action} (h : s.Sound) (hfair : s.Fair) (hstep : step s action = some s') :
    s'.Fair ∧ s'.Sound ∧ (s.active < s'.active → s'.active ≤ s'.capacity) := by
  have hdrain {t : FifoPermitPool} (ht : t.Sound) (hactive : t.active ≤ s.active) :
      t.drain.Fair ∧ t.drain.Sound ∧ (s.active < t.drain.active → t.drain.active ≤ t.drain.capacity) := by
    obtain ⟨hfair', hsound, hmax, hcapacity, -⟩ := drainFrom_spec (s := t) ht
    refine ⟨hfair', hsound, fun hlt => ?_⟩
    rw [drain, hcapacity]
    exact (le_max_iff.mp hmax).resolve_left (hactive.trans_lt hlt).not_ge
  cases action with
  | acquire signal =>
    dsimp only [step] at hstep
    split_ifs at hstep with haborted hfree <;> obtain rfl := Option.some.inj hstep
    · exact ⟨hfair, h, fun hlt => absurd hlt (lt_irrefl _)⟩
    · have hgrant : { s with requests := s.requests + 1 }.grant s.requests =
          drain { s with requests := s.requests + 1, waiters := s.waiters ++ [⟨s.requests, signal⟩] } := by
        have hsignal : isAborted { s with requests := s.requests + 1, waiters := [⟨s.requests, signal⟩] } signal = false :=
          Bool.eq_false_iff.mpr haborted
        simp only [drain, drainFrom, hfree.2, nil_append, if_pos hfree.1, hsignal, grant]
        rfl
      exact hgrant ▸ hdrain (h.request signal) le_rfl
    · exact hdrain (h.request signal) le_rfl
  | abort signal =>
    obtain rfl := Option.some.inj hstep
    have hsound : Sound { s with aborted := signal :: s.aborted } := by
      refine ⟨h.ordered, h.numbered, h.settled, fun waiter hwaiter => ?_, h.returned, h.counted⟩
      obtain ⟨found, hfound, hmem⟩ := (Option.any_eq_true ..).mp (h.rejected waiter hwaiter)
      exact (Option.any_eq_true ..).mpr ⟨found, hfound, decide_eq_true (mem_cons_of_mem _ (of_decide_eq_true hmem))⟩
    have haborted : ∀ waiter ∈ s.waiters.filter (·.signal = some signal),
        isAborted { s with aborted := signal :: s.aborted } waiter.signal := fun waiter hwaiter => by
      simp [isAborted, of_decide_eq_true (mem_filter.mp hwaiter).2]
    obtain ⟨hfair', hsound', hactive⟩ := abort_spec hsound (hsound.fair hfair.full) haborted
    exact ⟨hfair', hsound', fun hlt => absurd hlt hactive.not_gt⟩
  | release request =>
    dsimp only [step] at hstep
    split_ifs at hstep with hgranted hreturned <;> obtain rfl := Option.some.inj hstep
    · exact ⟨hfair, h, fun hlt => absurd hlt (lt_irrefl _)⟩
    · have hnodup : (request :: s.returned).Nodup := nodup_cons.mpr ⟨hreturned, h.returned.1⟩
      have hsubset : request :: s.returned ⊆ s.granted := cons_subset.mpr ⟨hgranted, h.returned.2⟩
      have hlength := (hnodup.subperm hsubset).length_le
      have hcounted := h.counted
      rw [length_cons] at hlength
      refine hdrain ⟨h.ordered, h.numbered, h.settled, h.rejected, ⟨hnodup, hsubset⟩, ?_⟩ (Nat.sub_le _ _)
      dsimp only [length_cons]
      omega
  | resize =>
    dsimp only [step] at hstep
    split_ifs at hstep <;> obtain rfl := Option.some.inj hstep
    · exact hdrain ⟨h.ordered, h.numbered, h.settled, h.rejected, h.returned, h.counted⟩ le_rfl
    · exact ⟨hfair, h, fun hlt => absurd hlt (lt_irrefl _)⟩

theorem fair_of_exec {limit : ℕ} {actions : List Action} (hrun : exec step (initial limit) actions = some s) :
    s.Fair ∧ ∀ action s', step s action = some s' → s.active < s'.active → s'.active ≤ s'.capacity := by
  have hinitial : (initial limit).Sound := by constructor <;> simp [initial]
  have hpreserves : Preserves step fun s => s.Fair ∧ s.Sound := fun s action s' h hstep =>
    ⟨(step_spec h.2 h.1 hstep).1, (step_spec h.2 h.1 hstep).2.1⟩
  obtain ⟨hfair, hsound⟩ := hpreserves.exec ⟨hinitial.fair (absurd rfl), hinitial⟩ hrun
  exact ⟨hfair, fun _ _ hstep => (step_spec hsound hfair hstep).2.2⟩

/-- Two requests for one permit, and a third of which the signal is aborted while it waits. -/
theorem fair_of_exec_aborted : ∃ s, exec step (initial 1)
    [.acquire none, .acquire (some 0), .acquire none, .abort 0, .release 0, .release 0] = some s ∧ s.Fair := by
  obtain ⟨s, hrun⟩ := Option.isSome_iff_exists.mp (show (exec step (initial 1)
    [.acquire none, .acquire (some 0), .acquire none, .abort 0, .release 0, .release 0]).isSome by decide)
  exact ⟨s, hrun, (fair_of_exec hrun).1⟩

/-- Once every permit is returned, nobody waits, and every request was granted or its signal aborted. -/
theorem drained_of_exec {limit : ℕ} {actions : List Action} (hrun : exec step (initial limit) actions = some s)
    (hpositive : 0 < s.capacity) (hreturned : s.granted ⊆ s.returned) : s.waiters = [] ∧ ∀ request < s.requests,
      request ∈ s.granted ∨ ∃ waiter ∈ s.rejected, waiter.request = request ∧ s.isAborted waiter.signal := by
  have hinitial : (initial limit).Sound := by constructor <;> simp [initial]
  have hpreserves : Preserves step fun s => s.Fair ∧ s.Sound := fun s action s' h hstep =>
    ⟨(step_spec h.2 h.1 hstep).1, (step_spec h.2 h.1 hstep).2.1⟩
  obtain ⟨hfair, hsound⟩ := hpreserves.exec ⟨hinitial.fair (absurd rfl), hinitial⟩ hrun
  have hwaiters : s.waiters = [] := by
    by_contra hwaiting
    have hgranted : s.granted.length ≤ s.returned.length :=
      (subperm_of_subset (hfair.ordered.imp ne_of_lt) hreturned).length_le
    have hfull := hfair.full hwaiting
    have hcounted := hsound.counted
    omega
  refine ⟨hwaiters, fun request hrequest => (hsound.settled request hrequest).imp (fun hmem => ?_) ?_⟩
  · rwa [hwaiters, map_nil, append_nil] at hmem
  · rintro ⟨waiter, hwaiter, hrequest⟩
    exact ⟨waiter, hwaiter, hrequest, hsound.rejected waiter hwaiter⟩

/-- The second request gives up, and the other two return their permits. -/
theorem drained_of_exec_aborted : ∃ s, exec step (initial 1)
    [.acquire none, .acquire (some 0), .acquire none, .abort 0, .release 0, .release 2] = some s ∧ s.waiters = [] := by
  have hrun : exec step (initial 1)
    [.acquire none, .acquire (some 0), .acquire none, .abort 0, .release 0, .release 2] = some _ := rfl
  exact ⟨_, hrun, (drained_of_exec hrun (by decide) (by decide)).1⟩

end FifoPermitPool

end OpenCorvus.Util
