import Mathlib.Algebra.GroupWithZero.Nat
import Mathlib.Data.List.Basic
import Mathlib.Tactic.Common

/-!
# Promise chains

A chain `promise = promise.then(() => handle(m))` runs an asynchronous handler on one message after the
other: a link waits for the link before it, calls the handler when that one is fulfilled, and passes a
rejection on without calling it.
-/

namespace PromiseChain

open List Option

/-- The state of a link's promise; `running` is a call of the handler that has not returned. -/
inductive LinkState where
  | waiting
  | running
  | fulfilled
  | rejected
  deriving DecidableEq

open LinkState

structure Chain (μ : Type*) where
  links : List (μ × LinkState)
  called : List μ
  deriving DecidableEq

open Chain

namespace Chain

variable {μ : Type*}

def resolved : Chain μ := ⟨[], []⟩

def promise (c : Chain μ) (k : ℕ) : LinkState :=
  match k with
  | 0 => .fulfilled
  | j + 1 => (c.links[j]?.map Prod.snd).getD .waiting

def attach (c : Chain μ) (m : μ) : Chain μ :=
  { c with links := c.links ++ [(m, .waiting)] }

def react (c : Chain μ) (k : ℕ) : Option (Chain μ) :=
  match c.links[k]? with
  | some (m, .waiting) =>
    match c.promise k with
    | .fulfilled => some { links := c.links.set k (m, .running), called := c.called ++ [m] }
    | .rejected => some { c with links := c.links.set k (m, .rejected) }
    | _ => none
  | _ => none

def settle (c : Chain μ) (k : ℕ) (succeeded : Bool) : Option (Chain μ) :=
  match c.links[k]? with
  | some (m, .running) =>
    some { c with links := c.links.set k (m, if succeeded then .fulfilled else .rejected) }
  | _ => none

/-- The calls of the handler that have not returned. -/
def running (c : Chain μ) : List (μ × LinkState) :=
  c.links.filter fun link => link.2 = .running

/-- What stands between the fulfilled links and the waiting ones: nothing, a call, or a rejected call with the
links that it has rejected after it. -/
inductive Stage (μ : Type*) where
  | idle
  | busy (m : μ)
  | broken (m : μ) (lost : List μ)

def Stage.links : Stage μ → List (μ × LinkState)
  | .idle => []
  | .busy m => [(m, .running)]
  | .broken m lost => (m, .rejected) :: lost.map (·, .rejected)

def Stage.called : Stage μ → List μ
  | .idle => []
  | .busy m => [m]
  | .broken m _ => [m]

structure Holds (c : Chain μ) (done : List μ) (stage : Stage μ) (ahead : List μ) : Prop where
  links : c.links = done.map (·, .fulfilled) ++ stage.links ++ ahead.map (·, .waiting)
  called : c.called = done ++ stage.called

lemma holds_resolved : (resolved : Chain μ).Holds [] .idle [] := ⟨rfl, rfl⟩

variable {c c' : Chain μ} {done ahead : List μ} {stage : Stage μ} {k : ℕ}

section

variable (h : c.Holds done stage ahead)

include h

lemma Holds.length : c.links.length = done.length + stage.links.length + ahead.length := by
  simp [h.links, Nat.add_assoc]

theorem Holds.attach (m : μ) : (c.attach m).Holds done stage (ahead ++ [m]) := by
  refine ⟨?_, h.called⟩
  simp [Chain.attach, h.links]

lemma Holds.promise_done (hk : k ≤ done.length) : c.promise k = .fulfilled := by
  cases k with
  | zero => rfl
  | succ j =>
    have hj : j < done.length := hk
    simp [promise, h.links, append_assoc, getElem?_append_left, hj]

lemma Holds.attachAll (ms : List μ) : (ms.foldl Chain.attach c).Holds done stage (ahead ++ ms) ∧
      (ms.foldl Chain.attach c).called = c.called := by
  induction ms generalizing c ahead with
  | nil => simpa using h
  | cons m _ ih =>
    obtain ⟨hholds, hcalled⟩ := ih (h.attach m)
    rw [append_assoc] at hholds
    exact ⟨hholds, hcalled⟩

lemma Holds.eq_of_waiting {m : μ} (hk : c.links[k]? = some (m, .waiting)) :
    ∃ j, k = done.length + stage.links.length + j ∧ ahead[j]? = some m := by
  rw [h.links] at hk
  by_cases hdone : k < (done.map fun m => (m, fulfilled)).length + stage.links.length
  · exfalso
    rw [getElem?_append_left (by simpa using hdone)] at hk
    have hmem := mem_of_getElem? hk
    rw [mem_append] at hmem
    rcases hmem with hmem | hmem
    · simp at hmem
    · cases stage <;> simp [Stage.links] at hmem
  · rw [length_map] at hdone
    refine ⟨k - (done.length + stage.links.length), by omega, ?_⟩
    rw [getElem?_append_right (by simp; omega)] at hk
    simp only [length_append, length_map, getElem?_map, map_eq_some_iff,
      Prod.mk.injEq, and_true, exists_eq_right] at hk
    exact hk

lemma Holds.promise_ahead {j : ℕ} (hj : j < ahead.length) :
    c.promise (done.length + stage.links.length + j + 1) = .waiting := by
  simp only [promise, h.links]
  rw [getElem?_append_right (by simp)]
  simp [hj]

end

/-- How the promise after a stage stands. -/
def Stage.state : Stage μ → LinkState
  | .idle => .fulfilled
  | .busy _ => .running
  | .broken _ _ => .rejected

lemma Holds.promise_stage (h : c.Holds done stage ahead) :
    c.promise (done.length + stage.links.length) = stage.state := by
  cases stage with
  | idle => exact h.promise_done (Nat.le_refl _)
  | busy => simp [promise, h.links, Stage.links, Stage.state]
  | broken _ lost =>
    simp only [promise, h.links, Stage.links, length_cons, length_map, Stage.state,
      append_assoc, Nat.add_eq]
    rw [getElem?_append_right (by simp)]
    rcases eq_nil_or_concat lost with rfl | ⟨_, _, rfl⟩
    · simp
    · simp

lemma Holds.promise_last (h : c.Holds done stage []) : c.promise c.links.length = stage.state := by
  rw [h.length]
  exact h.promise_stage

section

variable (h : c.Holds done stage ahead)

include h

lemma Holds.promise_ne_rejected (hstage : stage.state ≠ .rejected) (k : ℕ) : c.promise k ≠ .rejected := by
  have hlinks : ∀ link ∈ c.links, link.2 ≠ .rejected := by
    intro link hmem
    rw [h.links, mem_append, mem_append, List.mem_map, List.mem_map] at hmem
    rcases hmem with (⟨_, -, rfl⟩ | hmem) | ⟨_, -, rfl⟩
    · simp
    · cases stage with
      | idle => cases hmem
      | busy =>
        rw [mem_singleton.mp hmem]
        simp
      | broken => exact absurd rfl hstage
    · simp
  cases k with
  | zero => simp [promise]
  | succ j =>
    cases hlink : c.links[j]? with
    | none => simp [promise, hlink]
    | some link => simpa [promise, hlink] using hlinks link (mem_of_getElem? hlink)

lemma Holds.react_place {m : μ} (hk : c.links[k]? = some (m, .waiting)) (hprev : c.promise k ≠ .waiting) :
    k = done.length + stage.links.length ∧ ∃ rest, ahead = m :: rest := by
  obtain ⟨j, rfl, hj⟩ := h.eq_of_waiting hk
  obtain ⟨hlt, hm⟩ := List.getElem?_eq_some_iff.mp hj
  cases j with
  | zero =>
    cases ahead with
    | nil => simp at hlt
    | cons _ rest => exact ⟨rfl, rest, by simpa using hm⟩
  | succ => exact absurd (h.promise_ahead (Nat.lt_of_succ_lt hlt)) hprev

/-- What a reaction does: the next message is handled, or it is rejected with those before it. -/
theorem Holds.react (hreact : c.react k = some c') :
    (∃ m rest, stage = .idle ∧ ahead = m :: rest ∧ k = done.length ∧ c'.Holds done (.busy m) rest) ∨
    ∃ m lost x rest, stage = .broken m lost ∧ ahead = x :: rest ∧
      c'.Holds done (.broken m (lost ++ [x])) rest := by
  unfold Chain.react at hreact
  split at hreact
  · rename_i m hk
    split at hreact
    · rename_i hprev
      obtain ⟨rfl, rest, rfl⟩ := h.react_place hk (by simp [hprev])
      obtain rfl : c' = _ := (some.inj hreact).symm
      rw [h.promise_stage] at hprev
      cases stage with
      | idle =>
        refine .inl ⟨m, rest, rfl, rfl, rfl, ?_, ?_⟩
        · simp [h.links, Stage.links]
        · simp [h.called, Stage.called]
      | busy | broken => cases hprev
    · rename_i hprev
      obtain ⟨rfl, rest, rfl⟩ := h.react_place hk (by simp [hprev])
      obtain rfl : c' = _ := (some.inj hreact).symm
      rw [h.promise_stage] at hprev
      cases stage with
      | idle | busy => cases hprev
      | broken first lost =>
        refine .inr ⟨first, lost, m, rest, rfl, rfl, ?_, h.called⟩
        simp [h.links, Stage.links]
    · cases hreact
  · cases hreact

lemma Holds.eq_of_running {m : μ} (hk : c.links[k]? = some (m, .running)) : stage = .busy m ∧ k = done.length := by
  rw [h.links, append_assoc] at hk
  by_cases hdone : k < done.length
  · rw [getElem?_append_left (by simpa using hdone)] at hk
    simp at hk
  · rw [getElem?_append_right (by simpa using hdone), length_map] at hk
    cases stage with
    | idle => simp [Stage.links] at hk
    | busy x =>
      cases hj : k - done.length with
      | zero =>
        rw [hj] at hk
        obtain rfl : x = m := by simpa [Stage.links] using hk
        exact ⟨rfl, by omega⟩
      | succ =>
        rw [hj] at hk
        simp [Stage.links] at hk
    | broken =>
      have hmem := mem_of_getElem? hk
      simp [Stage.links] at hmem

/-- What the end of a call does: it is behind the chain, or it breaks it. -/
theorem Holds.settle {succeeded : Bool} (hsettle : c.settle k succeeded = some c') :
    ∃ m, stage = .busy m ∧ k = done.length ∧
      if succeeded then c'.Holds (done ++ [m]) .idle ahead else c'.Holds done (.broken m []) ahead := by
  unfold Chain.settle at hsettle
  split at hsettle
  · rename_i m hk
    obtain ⟨rfl, rfl⟩ := h.eq_of_running hk
    obtain rfl : c' = _ := (some.inj hsettle).symm
    refine ⟨m, rfl, rfl, ?_⟩
    cases succeeded <;> exact ⟨by simp [h.links, Stage.links], by simp [h.called, Stage.called]⟩
  · cases hsettle

/-- At most one call of the handler runs. -/
theorem Holds.running_le_one : c.running.length ≤ 1 := by
  have hdone : (done.map fun m => (m, fulfilled)).filter (fun link => link.2 = .running) = [] := by
    simp
  have hahead : (ahead.map fun m => (m, waiting)).filter (fun link => link.2 = .running) = [] := by
    simp
  rw [running, h.links, filter_append, filter_append, hdone, hahead]
  cases stage with
  | idle | busy => simp [Stage.links]
  | broken m lost =>
    have hlost : (Stage.broken m lost).links.filter (fun link => link.2 = .running) = [] := by
      simp [Stage.links, filter_eq_nil_iff]
    simp [hlost]

/-- While a message is ahead and no call was rejected, the chain can go on: the next link reacts, or the call
that runs returns. -/
theorem Holds.exists_next (hahead : ahead ≠ []) (hstage : stage = .idle ∨ ∃ m, stage = .busy m) :
    (c.react done.length).isSome ∨ (c.settle done.length true).isSome := by
  rcases hstage with rfl | ⟨m, rfl⟩
  · obtain ⟨x, _, rfl⟩ := exists_cons_of_ne_nil hahead
    have hk : c.links[done.length]? = some (x, .waiting) := by simp [h.links, Stage.links]
    exact .inl (by simp only [Chain.react, hk, h.promise_done (Nat.le_refl _), isSome_some])
  · have hk : c.links[done.length]? = some (m, .running) := by simp [h.links, Stage.links]
    exact .inr (by simp only [Chain.settle, hk, isSome_some])

lemma Holds.ahead_eq_nil (hstage : stage = .idle ∨ ∃ m, stage = .busy m)
    (hstuck : ∀ k succeeded, c.react k = none ∧ c.settle k succeeded = none) : ahead = [] := by
  by_contra hne
  rcases h.exists_next hne hstage with hreact | hsettle
  · rw [(hstuck done.length true).1] at hreact
    exact absurd hreact (by simp)
  · rw [(hstuck done.length true).2] at hsettle
    exact absurd hsettle (by simp)

end

lemma Holds.stuck {m : μ} {lost : List μ} (h : c.Holds done (.broken m lost) []) (k : ℕ)
    (succeeded : Bool) : c.react k = none ∧ c.settle k succeeded = none := by
  constructor
  · by_contra hreact
    obtain ⟨_, hc'⟩ := ne_none_iff_exists'.mp hreact
    rcases h.react hc' with ⟨_, _, hstage, -⟩ | ⟨_, _, _, _, -, hahead, -⟩
    · cases hstage
    · cases hahead
  · by_contra hsettle
    obtain ⟨_, hc'⟩ := ne_none_iff_exists'.mp hsettle
    obtain ⟨_, hstage, -⟩ := h.settle hc'
    cases hstage

/-- How many reactions and settlements a link still takes. -/
def LinkState.work : LinkState → ℕ
  | .waiting => 2
  | .running => 1
  | .fulfilled => 0
  | .rejected => 0

/-- How many reactions and settlements the chain still takes at most. -/
def work (c : Chain μ) : ℕ :=
  (c.links.map fun link => LinkState.work link.2).sum

def Stage.work : Stage μ → ℕ
  | .idle => 0
  | .busy _ => 1
  | .broken _ _ => 0

lemma Holds.work (h : c.Holds done stage ahead) : c.work = stage.work + 2 * ahead.length := by
  have hstage : (stage.links.map fun link => LinkState.work link.2).sum = stage.work := by
    cases stage <;> simp [Stage.links, Stage.work, LinkState.work, Function.comp_def]
  simp only [Chain.work, h.links, map_append, sum_append, hstage, List.map_map]
  simp [Function.comp_def, LinkState.work, Nat.mul_comm]

theorem Holds.react_work (h : c.Holds done stage ahead) (hreact : c.react k = some c') : c'.work < c.work := by
  rcases h.react hreact with ⟨_, _, rfl, rfl, -, h'⟩ | ⟨_, _, _, _, rfl, rfl, h'⟩
  · rw [h.work, h'.work]
    simp [Stage.work]
    omega
  · rw [h.work, h'.work]
    simp [Stage.work]

theorem Holds.settle_work {succeeded : Bool} (h : c.Holds done stage ahead)
    (hsettle : c.settle k succeeded = some c') : c'.work < c.work := by
  obtain ⟨_, rfl, -, h'⟩ := h.settle hsettle
  cases succeeded with
  | true | false =>
    rw [h.work, Holds.work (by simpa using h')]
    simp [Stage.work]

end Chain

end PromiseChain
