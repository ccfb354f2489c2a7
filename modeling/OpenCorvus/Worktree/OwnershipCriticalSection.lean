import Mathlib.Data.Finset.Card
import Mathlib.Data.Finset.Option
import OpenCorvus.Foundation.ExecutableSystem

/-!
# The critical section of worktree ownership

An acquisition reserves a directory while it is used, and a removal or mutation owns it from its proof to its end.
A removal may convert the only acquisition of the directory and gives it back at its end, also when the holder has
disposed it meanwhile: a disposal does nothing to an acquisition that is not active.  Acquisitions and removals
exclude each other as long as no acquisition is disposed while a removal has converted it.

An action of the model is one synchronous stretch of the code.
-/

namespace OpenCorvus.Worktree

open ExecutableSystem Function Option

structure DirectoryOwnership where
  /-- The tokens of the acquisitions, by their numbers. -/
  acquisitions : Finset ℕ
  removing : Bool

structure AcquisitionState (κ : Type) where
  key : κ
  /-- The number of the ownership that the acquisition was added to. -/
  ownership : ℕ
  active : Bool

def AcquisitionState.setActive {κ : Type} (current : AcquisitionState κ) (active : Bool) : AcquisitionState κ :=
  { current with active }

/-- A removal, or another mutation, between its start and its `finally`. -/
structure Change (κ : Type) where
  removes : Bool
  key : κ
  ownership : ℕ
  converted : Option ℕ

structure CriticalSection (κ : Type) where
  ownershipByDirectory : κ → Option ℕ
  ownerships : ℕ → DirectoryOwnership
  /-- How many ownerships have been created. -/
  created : ℕ
  acquisitions : ℕ → Option (AcquisitionState κ)
  changes : ℕ → Option (Change κ)
  /-- The acquisitions that their holders have disposed, which the code does not record. -/
  disposed : ℕ → Bool

open CriticalSection

variable {κ : Type} [DecidableEq κ]

namespace CriticalSection

def initial : CriticalSection κ where
  ownershipByDirectory _ := none
  ownerships _ := ⟨∅, false⟩
  created := 0
  acquisitions _ := none
  changes _ := none
  disposed _ := false

/-- The function `state`: the ownership of a key, which it may create. -/
def state (s : CriticalSection κ) (key : κ) : CriticalSection κ × ℕ :=
  match s.ownershipByDirectory key with
  | some ownership => (s, ownership)
  | none =>
    ({ s with
        ownershipByDirectory := update s.ownershipByDirectory key (some s.created)
        ownerships := update s.ownerships s.created ⟨∅, false⟩
        created := s.created + 1 }, s.created)

def discardEmpty (s : CriticalSection κ) (key : κ) (ownership : ℕ) : CriticalSection κ :=
  if (s.ownerships ownership).removing = false ∧ (s.ownerships ownership).acquisitions = ∅ ∧
      s.ownershipByDirectory key = some ownership then
    { s with ownershipByDirectory := update s.ownershipByDirectory key none }
  else s

/-- `acquire`; on a conflict nothing is acquired. -/
def acquire (s : CriticalSection κ) (key : κ) (token : ℕ) : CriticalSection κ :=
  let (s, ownership) := s.state key
  if (s.ownerships ownership).removing then s
  else
    { s with
      ownerships := update s.ownerships ownership
        { s.ownerships ownership with acquisitions := insert token (s.ownerships ownership).acquisitions }
      acquisitions := update s.acquisitions token (some ⟨key, ownership, true⟩) }

def dispose (s : CriticalSection κ) (token : ℕ) : CriticalSection κ :=
  let s := { s with disposed := update s.disposed token true }
  match s.acquisitions token with
  | none => s
  | some current =>
    if current.active then
      { s with
        acquisitions := update s.acquisitions token (some (current.setActive false))
        ownerships := update s.ownerships current.ownership
          { s.ownerships current.ownership with
            acquisitions := (s.ownerships current.ownership).acquisitions.erase token } }.discardEmpty
        current.key current.ownership
    else s

/-- How a removal or mutation begins. -/
inductive Begun (κ : Type) where
  | owned (s : CriticalSection κ)
  | invalid (s : CriticalSection κ)
  | started (s : CriticalSection κ)

def Begun.next : Begun κ → CriticalSection κ
  | .owned s | .invalid s | .started s => s

def started (s : CriticalSection κ) (change : ℕ) (running : Change κ) : CriticalSection κ :=
  { s with
    ownerships := update s.ownerships running.ownership ⟨∅, true⟩
    changes := update s.changes change (some running) }

/-- `remove` and `mutate` up to their first `await`; only a removal is given an acquisition. -/
def begin (s : CriticalSection κ) (removes : Bool) (key : κ) (acquisition : Option ℕ) (change : ℕ) : Begun κ :=
  let (s, ownership) := s.state key
  let running : Change κ := ⟨removes, key, ownership, acquisition⟩
  if (s.ownerships ownership).removing then .owned s
  else
    match acquisition with
    | some token =>
      match s.acquisitions token with
      | none => .invalid s
      | some current =>
        if current.active ∧ current.key = key ∧ current.ownership = ownership ∧
            token ∈ (s.ownerships ownership).acquisitions then
          if (s.ownerships ownership).acquisitions.card ≠ 1 then .owned s
          else
            .started (started
              { s with acquisitions := update s.acquisitions token (some (current.setActive false)) }
              change running)
        else .invalid s
    | none => if (s.ownerships ownership).acquisitions ≠ ∅ then .owned s else .started (s.started change running)

/-- The `finally` of a removal or mutation, however it ends. -/
def finish (s : CriticalSection κ) (change : ℕ) : CriticalSection κ :=
  match s.changes change with
  | none => s
  | some running =>
    let s := { s with
      changes := update s.changes change none
      ownerships := update s.ownerships running.ownership
        ⟨(s.ownerships running.ownership).acquisitions ∪ running.converted.toFinset, false⟩
      acquisitions :=
        match running.converted with
        | none => s.acquisitions
        | some token => update s.acquisitions token ((s.acquisitions token).map fun current : AcquisitionState κ => current.setActive true) }
    s.discardEmpty running.key running.ownership

inductive Action (κ : Type) where
  | acquire (key : κ) (token : ℕ)
  | dispose (token : ℕ)
  | remove (key : κ) (acquisition : Option ℕ) (change : ℕ)
  | mutate (key : κ) (change : ℕ)
  | finish (change : ℕ)

/-- A new acquisition or change has a number that has not been used. -/
def step (s : CriticalSection κ) : Action κ → Option (CriticalSection κ)
  | .acquire key token => if (s.acquisitions token).isNone ∧ s.disposed token = false then some (s.acquire key token) else none
  | .dispose token => if (s.acquisitions token).isSome then some (s.dispose token) else none
  | .remove key acquisition change =>
    if (s.changes change).isNone then some (s.begin true key acquisition change).next else none
  | .mutate key change => if (s.changes change).isNone then some (s.begin false key none change).next else none
  | .finish change => if (s.changes change).isSome then some (s.finish change) else none

structure Exclusive (s : CriticalSection κ) : Prop where
  /-- While a removal runs, no acquisition of its key is active or held, but the one that it converted. -/
  removal : ∀ change running token current, s.changes change = some running → running.removes = true →
    s.acquisitions token = some current → current.key = running.key →
    (current.active = true ∨ s.disposed token = false) → running.converted = some token
  single : ∀ change change' running running', s.changes change = some running →
    s.changes change' = some running' → running.key = running'.key → change = change'
  /-- A removal starts when no change of its key runs and no acquisition of the key is left but the given one. -/
  starts : ∀ key acquisition change,
    (∀ change running, s.changes change = some running → running.key ≠ key) →
    (∀ token ∈ acquisition, ∃ current, s.acquisitions token = some current ∧ current.key = key ∧
      s.disposed token = false) →
    (∀ token current, s.acquisitions token = some current → current.key = key → s.disposed token = false →
      acquisition = some token) →
    ∃ s', s.begin true key acquisition change = .started s'

/-- No acquisition is disposed while a removal that has converted it runs. -/
def DisposesItsOwn (s : CriticalSection κ) : Action κ → Prop
  | .dispose token => ∀ change running, s.changes change = some running → running.converted ≠ some token
  | _ => True

/-- The objects agree with the flags, and the flags with the holders. -/
structure Sound (s : CriticalSection κ) : Prop where
  allocated : ∀ key o, s.ownershipByDirectory key = some o → o < s.created
  keyed : ∀ key key' o, s.ownershipByDirectory key = some o → s.ownershipByDirectory key' = some o → key = key'
  tokens : ∀ o token, token ∈ (s.ownerships o).acquisitions ↔
    ∃ current, s.acquisitions token = some current ∧ current.active = true ∧ current.ownership = o
  mapped : ∀ token current, s.acquisitions token = some current → current.active = true →
    s.ownershipByDirectory current.key = some current.ownership
  running : ∀ change running, s.changes change = some running →
    s.ownershipByDirectory running.key = some running.ownership ∧ s.ownerships running.ownership = ⟨∅, true⟩
  removing : ∀ o, (s.ownerships o).removing = true →
    ∃ change running, s.changes change = some running ∧ running.ownership = o
  single : ∀ change change' running running', s.changes change = some running →
    s.changes change' = some running' → running.ownership = running'.ownership → change = change'
  converted : ∀ change running token, s.changes change = some running → running.converted = some token →
    s.disposed token = false ∧ s.acquisitions token = some ⟨running.key, running.ownership, false⟩
  holders : ∀ token current, s.acquisitions token = some current →
    (current.active = true → s.disposed token = false) ∧ (s.disposed token = false →
        current.active = true ∨ ∃ change running, s.changes change = some running ∧ running.converted = some token)

omit [DecidableEq κ] in
lemma sound_initial : (initial : CriticalSection κ).Sound := by
  constructor <;> simp [initial]

variable {s : CriticalSection κ}

section

variable (h : s.Sound)

include h

lemma Sound.state (key : κ) :
    (s.state key).1.Sound ∧ (s.state key).1.ownershipByDirectory key = some (s.state key).2 := by
  unfold CriticalSection.state
  split
  case h_1 o ho => exact ⟨h, ho⟩
  case h_2 ho =>
    obtain ⟨_, _, _, _, _, _, _, _, _⟩ := h
    refine ⟨?_, by simp⟩
    constructor <;> grind [update_apply]

lemma Sound.discardEmpty (key : κ) (o : ℕ) : (s.discardEmpty key o).Sound := by
  unfold CriticalSection.discardEmpty
  split
  case isTrue ho =>
    obtain ⟨_, hempty, _⟩ := ho
    have hinactive (token : ℕ) (current : AcquisitionState κ) (hcurrent : s.acquisitions token = some current)
        (hactive : current.active = true) : current.ownership ≠ o := by
      rintro rfl
      simpa [hempty] using (h.tokens _ token).mpr ⟨current, hcurrent, hactive, rfl⟩
    obtain ⟨_, _, _, _, _, _, _, _, _⟩ := h
    constructor
    all_goals try grind [update_apply]
  case isFalse => exact h

lemma Sound.acquire (key : κ) {token : ℕ} (htoken : s.acquisitions token = none)
    (hdisposed : s.disposed token = false) : (s.acquire key token).Sound := by
  have hstate : (s.state key).1.acquisitions = s.acquisitions ∧ (s.state key).1.disposed = s.disposed := by
    unfold CriticalSection.state
    split <;> exact ⟨rfl, rfl⟩
  obtain ⟨⟨_, _, h3, _, _, _, _, _, _⟩, _⟩ := h.state key
  rw [← hstate.1] at htoken
  rw [← hstate.2] at hdisposed
  dsimp only [CriticalSection.acquire]
  split
  · exact (h.state key).1
  · constructor
    case tokens =>
      intro o other
      rcases eq_or_ne other token with rfl | hother
      · rcases eq_or_ne o (s.state key).2 with rfl | ho
        · simp only [update_self, Finset.mem_insert_self, some.injEq, exists_eq_left', and_self]
        · simp only [update_self, update_of_ne ho, h3 o other, htoken, some.injEq, exists_eq_left', ho.symm,
            reduceCtorEq, false_and, exists_false, and_false]
      · simp only [update_of_ne hother, ← h3 o other]
        rcases eq_or_ne o (s.state key).2 with rfl | ho
        · simp only [update_self, Finset.mem_insert, hother, false_or]
        · simp only [update_of_ne ho]
    all_goals grind [update_apply]

lemma Sound.dispose {token : ℕ}
    (hown : ∀ change running, s.changes change = some running → running.converted ≠ some token) :
    (s.dispose token).Sound := by
  dsimp only [CriticalSection.dispose]
  split
  case h_1 hnone =>
    obtain ⟨_, _, _, _, _, _, _, _, _⟩ := h
    constructor <;> grind [update_apply]
  case h_2 current hcurrent =>
    split
    · have hchange (change : ℕ) (running : Change κ) (hrunning : s.changes change = some running) :
          running.ownership ≠ current.ownership := by
        intro heq
        have := (h.tokens current.ownership token).mpr ⟨current, hcurrent, ‹_›, rfl⟩
        simp [← heq, (h.running change running hrunning).2] at this
      refine Sound.discardEmpty ?_ _ _
      obtain ⟨_, _, _, _, _, _, _, _, _⟩ := h
      constructor
      all_goals try grind [update_apply, AcquisitionState.setActive]
    · obtain ⟨_, _, _, _, _, _, _, _, _⟩ := h
      constructor <;> grind [update_apply]

lemma Sound.finish (change : ℕ) : (s.finish change).Sound := by
  dsimp only [CriticalSection.finish]
  split
  case h_1 => exact h
  case h_2 running hrunning =>
    refine Sound.discardEmpty ?_ _ _
    have hobject := (h.running change running hrunning).2
    have hother (change' : ℕ) (running' : Change κ) (hrunning' : s.changes change' = some running')
        (heq : running'.ownership = running.ownership) : change' = change :=
      h.single _ _ _ _ hrunning' hrunning heq
    have hrest (change' : ℕ) (running' : Change κ) (hrunning' : s.changes change' = some running')
        (hne : running' ≠ running) : update s.changes change none change' = some running' := by
      rw [update_of_ne, hrunning']
      rintro rfl
      exact hne (some.inj (hrunning'.symm.trans hrunning))
    obtain ⟨_, _, _, _, _, h6, _, h8, h9⟩ := h
    have hacquisitions (token : ℕ) : (match running.converted with
        | none => s.acquisitions
        | some token => update s.acquisitions token ((s.acquisitions token).map
            fun current : AcquisitionState κ => current.setActive true)) token =
          if running.converted = some token then some ⟨running.key, running.ownership, true⟩
          else s.acquisitions token := by
      cases hconverted : running.converted with
      | none => rfl
      | some other =>
        simp only [(h8 change running other hrunning hconverted).2, update_apply, some.injEq, eq_comm]
        rfl
    have hmem (token : ℕ) : token ∈ (s.ownerships running.ownership).acquisitions ∪ running.converted.toFinset ↔
          running.converted = some token := by
      simp [hobject]
    constructor
    case removing =>
      intro o ho
      rcases eq_or_ne o running.ownership with rfl | hne
      · simp at ho
      · obtain ⟨change', running', hrunning', rfl⟩ := h6 o (by simpa [hne] using ho)
        exact ⟨change', running', hrest _ _ hrunning' fun heq => hne (heq ▸ rfl), rfl⟩
    case holders =>
      intro token current hcurrent
      simp only [hacquisitions] at hcurrent
      split at hcurrent
      case isTrue htoken =>
        obtain rfl := some.inj hcurrent
        exact ⟨fun _ => (h8 change running token hrunning htoken).1, fun _ => .inl rfl⟩
      case isFalse htoken =>
        refine ⟨(h9 token current hcurrent).1, fun hdisposed => ?_⟩
        refine ((h9 token current hcurrent).2 hdisposed).imp_right ?_
        rintro ⟨change', running', hrunning', hconverted⟩
        exact ⟨change', running', hrest _ _ hrunning' fun heq => htoken (heq ▸ hconverted), hconverted⟩
    all_goals simp only [hacquisitions]
    all_goals try grind [update_apply]

omit [DecidableEq κ] in
lemma Sound.started {removes : Bool} {key : κ} {o change : ℕ} {acquisition : Option ℕ}
    (acquisitions : ℕ → Option (AcquisitionState κ)) (hkey : s.ownershipByDirectory key = some o)
    (hfresh : s.changes change = none) (hremoving : (s.ownerships o).removing = false)
    (hsole : ∀ token, token ∈ (s.ownerships o).acquisitions ↔ acquisition = some token)
    (hacquisitions : ∀ token, acquisitions token =
      if acquisition = some token then some ⟨key, o, false⟩ else s.acquisitions token) :
    (CriticalSection.started { s with acquisitions } change ⟨removes, key, o, acquisition⟩).Sound := by
  have hrest (change' : ℕ) (running running' : Change κ) (hrunning : s.changes change' = some running) :
      update s.changes change (some running') change' = some running := by
    rw [update_of_ne, hrunning]
    rintro rfl
    simp [hfresh] at hrunning
  have hpresent (token : ℕ) (htoken : acquisition = some token) : s.disposed token = false := by
    obtain ⟨current, hcurrent, hactive, -⟩ := (h.tokens o token).mp ((hsole token).mpr htoken)
    exact (h.holders token current hcurrent).1 hactive
  obtain ⟨_, _, _, _, _, h6, _, _, h9⟩ := h
  unfold CriticalSection.started
  constructor
  case removing =>
    intro o' ho'
    rcases eq_or_ne o' o with rfl | hne
    · exact ⟨change, _, update_self .., rfl⟩
    · obtain ⟨change', running, hrunning, rfl⟩ := h6 o' (by simpa [hne] using ho')
      exact ⟨change', running, hrest _ _ _ hrunning, rfl⟩
  case holders =>
    intro token current hcurrent
    simp only [hacquisitions] at hcurrent
    split at hcurrent
    case isTrue htoken =>
      exact ⟨fun _ => hpresent token htoken, fun _ => .inr ⟨change, _, update_self .., htoken⟩⟩
    case isFalse htoken =>
      refine ⟨(h9 token current hcurrent).1, fun hdisposed => ?_⟩
      refine ((h9 token current hcurrent).2 hdisposed).imp_right ?_
      rintro ⟨change', running, hrunning, hconverted⟩
      exact ⟨change', running, hrest _ _ _ hrunning, hconverted⟩
  all_goals try grind [update_apply]

lemma Sound.begin {removes : Bool} {key : κ} {acquisition : Option ℕ} {change : ℕ}
    (hfresh : s.changes change = none) : (s.begin removes key acquisition change).next.Sound := by
  have hstate : (s.state key).1.changes = s.changes := by
    unfold CriticalSection.state
    split <;> rfl
  obtain ⟨hsound, hkey⟩ := h.state key
  rw [← hstate] at hfresh
  dsimp only [CriticalSection.begin]
  split
  case isTrue => exact hsound
  case isFalse hremoving =>
    rw [Bool.not_eq_true] at hremoving
    split
    case h_1 token =>
      split
      case h_1 => exact hsound
      case h_2 current hcurrent =>
        split
        case isFalse => exact hsound
        case isTrue hvalid =>
          split
          case isTrue => exact hsound
          case isFalse hcard =>
            obtain ⟨_, rfl, howner, _⟩ := hvalid
            obtain ⟨other, _⟩ := Finset.card_eq_one.mp (not_not.mp hcard)
            refine hsound.started _ hkey hfresh hremoving (fun other => ?_) fun other => ?_
            · grind
            · simp only [AcquisitionState.setActive, howner, update_apply, some.injEq, eq_comm]
    case h_2 =>
      split
      case isTrue => exact hsound
      case isFalse hempty =>
        refine hsound.started _ hkey hfresh hremoving (fun token => ?_) fun token => ?_
        · simp [not_not.mp hempty]
        · rfl

lemma Sound.step {action : Action κ} {s' : CriticalSection κ} (hown : s.DisposesItsOwn action)
    (hstep : CriticalSection.step s action = some s') : s'.Sound := by
  cases action with
  | acquire key =>
    obtain ⟨⟨htoken, hdisposed⟩, rfl⟩ := ite_none_right_eq_some.mp hstep |>.imp_right some.inj
    exact h.acquire key (isNone_iff_eq_none.mp htoken) hdisposed
  | dispose =>
    obtain ⟨-, rfl⟩ := ite_none_right_eq_some.mp hstep |>.imp_right some.inj
    exact h.dispose hown
  | remove key acquisition change | mutate key change =>
    obtain ⟨hfresh, rfl⟩ := ite_none_right_eq_some.mp hstep |>.imp_right some.inj
    exact h.begin (isNone_iff_eq_none.mp hfresh)
  | finish change =>
    obtain ⟨-, rfl⟩ := ite_none_right_eq_some.mp hstep |>.imp_right some.inj
    exact h.finish change

lemma Sound.exclusive : s.Exclusive where
  removal change running token current hrunning hremoves hcurrent hkey hheld := by
    obtain ⟨hmapped, hobject⟩ := h.running change running hrunning
    by_cases hactive : current.active = true
    · have howner := h.mapped token current hcurrent hactive
      rw [hkey, hmapped, some.injEq] at howner
      have := (h.tokens running.ownership token).mpr ⟨current, hcurrent, hactive, howner.symm⟩
      simp [hobject] at this
    · have hdisposed := hheld.resolve_left hactive
      obtain ⟨change', running', hrunning', hconverted⟩ :=
        ((h.holders token current hcurrent).2 hdisposed).resolve_left hactive
      have hsame := hcurrent.symm.trans (h.converted change' running' token hrunning' hconverted).2
      grind [h.running change' running' hrunning', h.single change' change]
  single change change' running running' hrunning hrunning' hkey := by
    have howner := (h.running change running hrunning).1
    rw [hkey, (h.running change' running' hrunning').1, some.injEq] at howner
    exact h.single change change' running running' hrunning hrunning' howner.symm
  starts key acquisition change hidle hgiven hleft := by
    -- without a running change, an acquisition of the key is active exactly when it is held
    have hactive (token : ℕ) (current : AcquisitionState κ) (hcurrent : s.acquisitions token = some current)
        (hkey : current.key = key) (hdisposed : s.disposed token = false) : current.active = true := by
      refine ((h.holders token current hcurrent).2 hdisposed).resolve_right ?_
      rintro ⟨change', running, hrunning, hconverted⟩
      obtain rfl := some.inj (hcurrent.symm.trans (h.converted _ _ _ hrunning hconverted).2)
      exact hidle change' running hrunning hkey
    have hmem (o token : ℕ) (ho : s.ownershipByDirectory key = some o) :
        token ∈ (s.ownerships o).acquisitions ↔ acquisition = some token := by
      rw [h.tokens]
      constructor
      · rintro ⟨current, hcurrent, hact, rfl⟩
        exact hleft token current hcurrent (h.keyed _ _ _ (h.mapped token current hcurrent hact) ho)
          ((h.holders token current hcurrent).1 hact)
      · intro htoken
        obtain ⟨current, hcurrent, rfl, hdisposed⟩ := hgiven token htoken
        have hact := hactive token current hcurrent rfl hdisposed
        exact ⟨current, hcurrent, hact, some.inj ((h.mapped token current hcurrent hact).symm.trans ho)⟩
    rcases ho : s.ownershipByDirectory key with _ | o
    · cases acquisition with
      | none => simp [CriticalSection.begin, CriticalSection.state, ho]
      | some token =>
        obtain ⟨current, hcurrent, rfl, hdisposed⟩ := hgiven token rfl
        simp [h.mapped token current hcurrent (hactive token current hcurrent rfl hdisposed)] at ho
    · have hremoving : (s.ownerships o).removing = false := by
        rw [← Bool.not_eq_true]
        intro hremoving
        obtain ⟨change', running, hrunning, rfl⟩ := h.removing o hremoving
        exact hidle change' running hrunning (h.keyed _ _ _ (h.running _ _ hrunning).1 ho)
      have hsole : (s.ownerships o).acquisitions = acquisition.toFinset := by
        ext token
        simp [hmem o token ho]
      cases acquisition with
      | none => simp [CriticalSection.begin, CriticalSection.state, ho, hremoving, hsole]
      | some token =>
        obtain ⟨current, hcurrent, rfl, hdisposed⟩ := hgiven token rfl
        have hact := hactive token current hcurrent rfl hdisposed
        have howner := some.inj ((h.mapped token current hcurrent hact).symm.trans ho)
        simp [CriticalSection.begin, CriticalSection.state, ho, hremoving, hsole, hcurrent, hact, howner]

end

/-- In every run in which no acquisition is disposed while a removal that has converted it runs, acquisitions and
removals exclude each other, and a disposed acquisition never stops a removal. -/
theorem exclusive_exec {actions : List (Action κ)} (hown : Within step DisposesItsOwn initial actions)
    (hrun : exec step initial actions = some s) : s.Exclusive :=
  (Within.exec (fun _ _ _ h hown hstep => Sound.step h hown hstep) sound_initial hown hrun).exclusive

def convertedRun : List (Action String) :=
  [.acquire "/w" 0, .remove "/w" (some 0) 0, .finish 0, .dispose 0, .remove "/w" none 1]

theorem exclusive_exec_converted : ∃ s, exec step initial convertedRun = some s ∧ s.Exclusive := by
  have hown : Within step DisposesItsOwn initial convertedRun := by
    simp [convertedRun, Within, DisposesItsOwn, step, acquire, state, initial, begin, started, Begun.next, finish,
      discardEmpty, AcquisitionState.setActive]
  exact ⟨_, rfl, exclusive_exec hown rfl⟩

/-- The removal gives back an acquisition that was disposed while it ran, and no later removal starts. -/
theorem not_exclusive_exec_disposed : ∃ s, exec step (initial : CriticalSection String)
      [.acquire "/w" 0, .remove "/w" (some 0) 0, .dispose 0, .finish 0] = some s ∧ ¬s.Exclusive := by
  refine ⟨_, rfl, fun h => ?_⟩
  have hstarts := h.starts "/w" none 1 (fun change running hrunning => ?_) (by simp)
    fun token current hcurrent _ hdisposed => ?_
  · obtain ⟨_, hs⟩ := hstarts
    cases hs
  · cases change <;> cases hrunning
  · cases token with
    | zero => cases hdisposed
    | succ => cases hcurrent

end CriticalSection

end OpenCorvus.Worktree
