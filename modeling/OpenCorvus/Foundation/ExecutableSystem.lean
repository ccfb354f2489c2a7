import Mathlib.Data.List.Induction
import Mathlib.Data.Nat.Notation

/-!
# Executable transition systems

A system is a partial step function `σ → α → Option σ`: a label is enabled in a state exactly
when the step function answers, and it then names the only successor.  A run is a list of labels.
Nothing here fixes what states and labels are.
-/

namespace ExecutableSystem

open Option

variable {σ α : Type*} (step : σ → α → Option σ)

/-- Execute a list of labels from a state; a label that is not enabled ends the run with `none`. -/
def exec : σ → List α → Option σ
  | s, [] => some s
  | s, a :: as => (step s a).bind fun s' => exec s' as

@[simp] lemma exec_nil (s : σ) : exec step s [] = some s := rfl

@[simp] lemma exec_cons (s : σ) (a : α) (as : List α) :
    exec step s (a :: as) = (step s a).bind fun s' => exec step s' as := rfl

variable {as : List α}

lemma exec_cons_eq_some {s u : σ} {a : α} :
    exec step s (a :: as) = some u ↔ ∃ t, step s a = some t ∧ exec step t as = some u := by
  rw [exec_cons, bind_eq_some_iff]

theorem exec_append (s : σ) (as bs : List α) :
    exec step s (as ++ bs) = (exec step s as).bind fun t => exec step t bs := by
  induction as generalizing s with
  | nil => rfl
  | cons a _ ih =>
    cases h : step s a with
    | none => simp [h]
    | some t => simp [h, ih t]

/-- A run over a concatenation passes through an intermediate state. -/
lemma exec_append_eq_some {s u : σ} {as bs : List α} : exec step s (as ++ bs) = some u ↔
      ∃ t, exec step s as = some t ∧ exec step t bs = some u := by
  rw [exec_append, bind_eq_some_iff]

lemma exec_concat_eq_some {s u : σ} {a : α} :
    exec step s (as ++ [a]) = some u ↔ ∃ t, exec step s as = some t ∧ step t a = some u := by
  simp [exec_append_eq_some]

def scripted : σ → List (σ → α) → List α
  | _, [] => []
  | s, label :: rest => label s :: scripted ((step s (label s)).getD s) rest

/-- Every enabled step leads from a state of `Inv` to a state of `Inv`. -/
def Preserves (Inv : σ → Prop) : Prop :=
  ∀ ⦃s : σ⦄ ⦃a : α⦄ ⦃s' : σ⦄, Inv s → step s a = some s' → Inv s'

variable {step}

theorem Preserves.exec {Inv : σ → Prop} (h : Preserves step Inv) {s s' : σ} {as : List α}
    (hs : Inv s) (hrun : exec step s as = some s') : Inv s' := by
  induction as generalizing s with
  | nil =>
    rw [exec_nil, some.injEq] at hrun
    exact hrun ▸ hs
  | cons _ _ ih =>
    obtain ⟨_, hstep, hrest⟩ := (exec_cons_eq_some step).mp hrun
    exact ih (h hs hstep) hrest

variable {Inv : σ → Prop}

/-- The relation rule: a reflexive and transitive relation that holds across every step taken in
an invariant state holds between the two ends of every run. -/
theorem exec_relates {R : σ → σ → Prop} (hInv : Preserves step Inv) (hrefl : ∀ s, R s s)
    (htrans : ∀ ⦃s t u⦄, R s t → R t u → R s u) (hR : ∀ ⦃s a s'⦄, Inv s → step s a = some s' → R s s') {s s' : σ}
    (hs : Inv s) (hrun : exec step s as = some s') : R s s' := by
  induction as generalizing s with
  | nil =>
    rw [exec_nil, some.injEq] at hrun
    exact hrun ▸ hrefl s
  | cons _ _ ih =>
    obtain ⟨_, hstep, hrest⟩ := (exec_cons_eq_some step).mp hrun
    exact htrans (hR hs hstep) (ih (hInv hs hstep) hrest)

/-- The history rule: what holds before the first step and is carried over every step of a run, of the labels
and the state that they lead to, holds of every run. -/
theorem exec_history {P : List α → σ → Prop} {s₀ s : σ} (h₀ : P [] s₀)
    (h : ∀ ⦃before t a t'⦄, exec step s₀ before = some t → P before t → step t a = some t' → P (before ++ [a]) t')
    (hrun : exec step s₀ as = some s) : P as s := by
  induction as using List.reverseRecOn generalizing s with
  | nil =>
    rw [exec_nil, some.injEq] at hrun
    exact hrun ▸ h₀
  | append_singleton _ _ ih =>
    obtain ⟨_, hbefore, hstep⟩ := (exec_concat_eq_some step).mp hrun
    exact h hbefore (ih hbefore) hstep

variable (step) in
/-- Every step of the run meets the condition `ok` in the state it is taken from. -/
def Within (ok : σ → α → Prop) : σ → List α → Prop
  | _, [] => True
  | s, a :: as => ok s a ∧ ∀ s', step s a = some s' → Within ok s' as

instance decidableWithin {ok : σ → α → Prop} [∀ s a, Decidable (ok s a)] :
    (s : σ) → (as : List α) → Decidable (Within step ok s as)
  | _, [] => inferInstanceAs (Decidable True)
  | s, a :: as =>
    match hstep : step s a with
    | none => decidable_of_iff (ok s a) (by simp [Within, hstep])
    | some s' =>
      have : Decidable (Within step ok s' as) := decidableWithin s' as
      decidable_of_iff (ok s a ∧ Within step ok s' as) (by simp [Within, hstep])

variable {ok : σ → α → Prop}

/-- The side condition splits over a concatenation of runs. -/
theorem within_append {s : σ} {as bs : List α} : Within step ok s (as ++ bs) ↔
      Within step ok s as ∧ ∀ t, exec step s as = some t → Within step ok t bs := by
  induction as generalizing s with
  | nil => simp [Within]
  | cons _ _ ih =>
    simp only [List.cons_append, Within, ih, exec_cons_eq_some]
    constructor
    · rintro ⟨hok, h⟩
      refine ⟨⟨hok, fun s' hs' => (h s' hs').1⟩, ?_⟩
      rintro t ⟨s', hs', ht⟩
      exact (h s' hs').2 t ht
    · rintro ⟨⟨hok, h⟩, hbs⟩
      exact ⟨hok, fun s' hs' => ⟨h s' hs', fun t ht => hbs t ⟨s', hs', ht⟩⟩⟩

lemma exists_of_not_within {s : σ} (h : ¬Within step ok s as) :
    ∃ before a after t, as = before ++ a :: after ∧ exec step s before = some t ∧ ¬ok t a := by
  induction as generalizing s with
  | nil => exact absurd trivial h
  | cons a as ih =>
    by_cases hok : ok s a
    · obtain ⟨s', hs', hrest⟩ : ∃ s', step s a = some s' ∧ ¬Within step ok s' as := by
        simpa [Within, hok] using h
      obtain ⟨before, b, after, t, rfl, ht, hb⟩ := ih hrest
      exact ⟨a :: before, b, after, t, rfl, by simp [hs', ht], hb⟩
    · exact ⟨[], a, as, s, rfl, rfl, hok⟩

theorem Within.exec {Inv : σ → Prop} {ok : σ → α → Prop}
    (h : ∀ ⦃s a s'⦄, Inv s → ok s a → step s a = some s' → Inv s')
    {s s' : σ} {as : List α} (hs : Inv s) (hok : Within step ok s as)
    (hrun : exec step s as = some s') : Inv s' := by
  induction as generalizing s with
  | nil =>
    rw [exec_nil, some.injEq] at hrun
    exact hrun ▸ hs
  | cons _ _ ih =>
    obtain ⟨t, hstep, hrest⟩ := (exec_cons_eq_some step).mp hrun
    exact ih (h hs hok.1 hstep) (hok.2 t hstep) hrest

theorem Within.of_invariant {ok ok' : σ → α → Prop} (h : ∀ ⦃s a s'⦄, Inv s → ok s a → step s a = some s' → Inv s')
    (hok' : ∀ ⦃s a⦄, Inv s → ok s a → ok' s a) {s : σ} (hs : Inv s) (hok : Within step ok s as) :
    Within step ok' s as := by
  induction as generalizing s with
  | nil => trivial
  | cons _ _ ih =>
    exact ⟨hok' hs hok.1, fun s' hstep => ih (h hs hok.1 hstep) (hok.2 s' hstep)⟩

/-- A condition that every state passes back to the one before it holds at every step of a run to a state
that meets it. -/
theorem within_of_final {Inv Q : σ → Prop} (hInv : Preserves step Inv)
    (hQ : ∀ ⦃s a s'⦄, Inv s → step s a = some s' → Q s' → Q s) {s s' : σ} (hs : Inv s)
    (hrun : exec step s as = some s') (hfinal : Q s') : Q s ∧ Within step (fun s _ => Q s) s as := by
  induction as generalizing s with
  | nil =>
    rw [exec_nil, some.injEq] at hrun
    exact ⟨hrun ▸ hfinal, trivial⟩
  | cons _ _ ih =>
    obtain ⟨t, hstep, hrest⟩ := (exec_cons_eq_some step).mp hrun
    obtain ⟨ht, hwithin⟩ := ih (hInv hs hstep) hrest
    have hQs : Q s := hQ hs hstep ht
    refine ⟨hQs, hQs, fun t' ht' => ?_⟩
    obtain rfl : t = t' := some.inj (hstep.symm.trans ht')
    exact hwithin

/-- A property that a step keeps exactly when the step meets a condition holds at the end of a run exactly
when it held at the start and every step met the condition. -/
theorem final_iff_within {Inv Q : σ → Prop} (hInv : Preserves step Inv)
    (hQ : ∀ ⦃s a s'⦄, Inv s → step s a = some s' → (Q s' ↔ Q s ∧ ok s a)) {s s' : σ} (hs : Inv s)
    (hrun : exec step s as = some s') : Q s' ↔ Q s ∧ Within step ok s as := by
  induction as generalizing s with
  | nil =>
    rw [exec_nil, some.injEq] at hrun
    rw [hrun]
    exact ⟨fun h => ⟨h, trivial⟩, And.left⟩
  | cons _ _ ih =>
    obtain ⟨t, hstep, hrest⟩ := (exec_cons_eq_some step).mp hrun
    rw [ih (hInv hs hstep) hrest, hQ hs hstep, and_assoc]
    refine and_congr_right fun _ => and_congr_right fun _ => ⟨fun h t' ht' => ?_, fun h => h t hstep⟩
    exact some.inj (hstep.symm.trans ht') ▸ h

variable (step) in
def InfiniteRun (states : ℕ → σ) (labels : ℕ → α) : Prop :=
  ∀ n, step (states n) (labels n) = some (states (n + 1))

theorem InfiniteRun.invariant {states : ℕ → σ} {labels : ℕ → α} (hrun : InfiniteRun step states labels)
    (h : Preserves step Inv) (hs : Inv (states 0)) (n : ℕ) : Inv (states n) := by
  induction n with
  | zero => exact hs
  | succ n ih => exact h ih (hrun n)

/-- The response rule: while a request is pending (`P`), every step answers it (`Q`) or leaves it
pending without raising its rank, and a step that drives it (`D`) lowers the rank.  When such a step
always comes, the request is answered. -/
theorem answered_of_rank {P Q D : ℕ → Prop} (rank : ℕ → ℕ) (hstep : ∀ n, P n → Q n ∨
      P (n + 1) ∧ rank (n + 1) ≤ rank n ∧ (D n → rank (n + 1) < rank n))
    (hfair : ∀ n, P n → ∃ m, n ≤ m ∧ D m) {n : ℕ} (hn : P n) :
    ∃ m, n ≤ m ∧ P m ∧ Q m := by
  -- Outer induction on the rank, inner induction on the distance to the driving step.
  induction hrank : rank n using Nat.strongRecOn generalizing n with
  | ind r ih =>
    obtain ⟨m, _, hdrives⟩ := hfair n hn
    have hreach : ∀ d k, k + d = m → n ≤ k → P k → rank k ≤ r → ∃ m, n ≤ m ∧ P m ∧ Q m := by
      intro d
      induction d with
      | zero =>
        intro k hk hnk hpending hbound
        have hkm : k = m := by omega
        rcases hstep k hpending with hanswers | ⟨hpending', -, hlower⟩
        · exact ⟨k, hnk, hpending, hanswers⟩
        · have hless := hlower (hkm ▸ hdrives)
          obtain ⟨m', _, hfound⟩ := ih (rank (k + 1)) (by omega) hpending' rfl
          exact ⟨m', by omega, hfound⟩
      | succ _ ihd =>
        intro k hk hnk hpending hbound
        rcases hstep k hpending with hanswers | ⟨hpending', _, -⟩
        · exact ⟨k, hnk, hpending, hanswers⟩
        · exact ihd (k + 1) (by omega) (by omega) hpending' (by omega)
    exact hreach (m - n) n (by omega) (Nat.le_refl n) hn (Nat.le_of_eq hrank)

end ExecutableSystem
