import Mathlib.Data.List.Basic

/-!
# Transactions that answer or raise

A transaction is a computation in `Except`: it answers with a value, or it raises an error and
leaves nothing behind.  The rules below invert successful runs: of a sequence of steps, of a guard
that raises when a condition is met, and of a traversal of a list.
-/

namespace Transaction

open List

universe u

variable {ε : Type*} {β γ : Type u} {f : β → Except ε γ}

/-- A sequence of two steps answers when both do. -/
theorem bind_eq_ok {x : Except ε β} {c : γ} : x >>= f = .ok c ↔ ∃ b, x = .ok b ∧ f b = .ok c := by
  cases x <;> simp [bind, Except.bind]

/-- A step whose answer is mapped answers when it does. -/
theorem map_eq_ok {δ δ' : Type*} {x : Except ε δ} {f : δ → δ'} {d : δ'} :
    x.map f = .ok d ↔ ∃ b, x = .ok b ∧ f b = d := by
  cases x <;> simp [Except.map]

@[simp] theorem mapError_eq_ok {ε' δ : Type*} {x : Except ε δ} {f : ε → ε'} {d : δ} :
    x.mapError f = .ok d ↔ x = .ok d := by
  cases x <;> simp [Except.mapError]

theorem toOption_eq_some {δ : Type*} {x : Except ε δ} {d : δ} : x.toOption = some d ↔ x = .ok d := by
  cases x <;> simp [Except.toOption]

@[simp] lemma pure_eq_ok {b c : β} : (pure b : Except ε β) = .ok c ↔ b = c := by
  simp [pure, Except.pure]

@[simp] lemma throw_ne_ok {e : ε} {b : β} : (throw e : Except ε β) ≠ .ok b := by
  simp [throw, throwThe, MonadExceptOf.throw]

def throwWhen (condition : Prop) [Decidable condition] (e : ε) : Except ε Unit :=
  if condition then .error e else .ok ()

@[simp] lemma throwWhen_eq_ok {condition : Prop} [Decidable condition] {e : ε} {u : Unit} :
    throwWhen condition e = .ok u ↔ ¬condition := by
  unfold throwWhen
  split_ifs with h <;> simp [h]

theorem check_bind_eq_ok {δ : Type} {x : Except ε Unit} {f : Unit → Except ε δ} {d : δ} :
    x >>= f = .ok d ↔ x = .ok () ∧ f () = .ok d := by
  rw [bind_eq_ok]
  constructor
  · rintro ⟨⟨⟩, hx, hf⟩
    exact ⟨hx, hf⟩
  · rintro ⟨hx, hf⟩
    exact ⟨(), hx, hf⟩

lemma of_check {δ : Type} {x : Except ε Unit} {f : Unit → Except ε δ} {d : δ} (h : x >>= f = .ok d) : f () = .ok d :=
  (check_bind_eq_ok.mp h).2

lemma of_bind {x : Except ε β} {c : γ} (h : x >>= f = .ok c) : ∃ b, f b = .ok c :=
  (bind_eq_ok.mp h).imp fun _ => And.right

/-- A guard is not met before the rest answers. -/
theorem throwWhen_bind_eq_ok {δ : Type} {condition : Prop} [Decidable condition] {e : ε}
    {f : Unit → Except ε δ} {d : δ} :
    throwWhen condition e >>= f = .ok d ↔ ¬condition ∧ f () = .ok d := by
  rw [check_bind_eq_ok, throwWhen_eq_ok]

lemma of_throwWhen {δ : Type} {condition : Prop} [Decidable condition] {e : ε} {f : Unit → Except ε δ} {d : δ}
    (h : throwWhen condition e >>= f = .ok d) : f () = .ok d :=
  (throwWhen_bind_eq_ok.mp h).2

def getOrThrow (value : Option β) (e : ε) : Except ε β :=
  match value with
  | none => .error e
  | some b => .ok b

@[simp] lemma getOrThrow_eq_ok {value : Option β} {e : ε} {b : β} :
    getOrThrow value e = .ok b ↔ value = some b := by
  cases value <;> simp [getOrThrow]

/-- Raise the error that a query found. -/
def throwSome (e : Option ε) : Except ε Unit :=
  match e with
  | none => .ok ()
  | some e => .error e

@[simp] lemma throwSome_eq_ok {e : Option ε} {u : Unit} : throwSome e = .ok u ↔ e = none := by
  cases e <;> simp [throwSome]

variable {xs : List β}

theorem forM_eq_ok {f : β → Except ε PUnit.{u + 1}} {r : PUnit} : xs.forM f = .ok r ↔ ∀ x ∈ xs, f x = .ok ⟨⟩ := by
  induction xs with
  | nil => simp [pure, Except.pure]
  | cons x xs ih =>
    have hcons : (x :: xs).forM f = f x >>= fun _ => xs.forM f := rfl
    rw [hcons, bind_eq_ok, forall_mem_cons, ← ih]
    constructor
    · rintro ⟨⟨⟩, hx, hxs⟩
      exact ⟨hx, hxs⟩
    · rintro ⟨hx, hxs⟩
      exact ⟨⟨⟩, hx, hxs⟩

theorem mem_of_mapM_eq_ok {ys : List γ} (h : xs.mapM f = .ok ys) {y : γ} (hy : y ∈ ys) :
    ∃ x ∈ xs, f x = .ok y := by
  induction xs generalizing ys with
  | nil =>
    rw [mapM_nil, pure_eq_ok] at h
    rw [← h] at hy
    cases hy
  | cons x _ ih =>
    rw [mapM_cons, bind_eq_ok] at h
    obtain ⟨_, hz, hrest⟩ := h
    obtain ⟨_, hzs, hys⟩ := bind_eq_ok.mp hrest
    rw [pure_eq_ok] at hys
    rw [← hys] at hy
    rcases mem_cons.mp hy with rfl | hmem
    · exact ⟨x, mem_cons_self, hz⟩
    · obtain ⟨x', hx', hfx'⟩ := ih hzs hmem
      exact ⟨x', mem_cons_of_mem x hx', hfx'⟩

theorem mapM_eq_ok_map {g : β → γ} (h : ∀ x ∈ xs, f x = .ok (g x)) : xs.mapM f = .ok (xs.map g) := by
  induction xs with
  | nil => rfl
  | cons x xs ih =>
    obtain ⟨hx, hxs⟩ := forall_mem_cons.mp h
    rw [mapM_cons, bind_eq_ok]
    exact ⟨g x, hx, bind_eq_ok.mpr ⟨xs.map g, ih hxs, rfl⟩⟩

/-- A traversal whose every step answers, with an image that is known, answers with the known images. -/
theorem exists_mapM_eq_ok {δ : Type*} {g : γ → δ} {k : β → δ} (h : ∀ x ∈ xs, ∃ y, f x = .ok y ∧ g y = k x) :
    ∃ ys, xs.mapM f = .ok ys ∧ ys.map g = xs.map k := by
  induction xs with
  | nil => exact ⟨[], rfl, rfl⟩
  | cons _ _ ih =>
    obtain ⟨⟨y, hy, hgy⟩, hxs⟩ := forall_mem_cons.mp h
    obtain ⟨ys, hys, hgys⟩ := ih hxs
    refine ⟨y :: ys, ?_, ?_⟩
    · rw [mapM_cons, bind_eq_ok]
      exact ⟨y, hy, bind_eq_ok.mpr ⟨ys, hys, rfl⟩⟩
    · rw [map_cons, map_cons, hgy, hgys]

theorem mapM_eq_ok_iff {g : β → γ} (hg : ∀ x y, f x = .ok y → y = g x) {ys : List γ} :
    xs.mapM f = .ok ys ↔ ys = xs.map g ∧ ∀ x ∈ xs, f x = .ok (g x) := by
  induction xs generalizing ys with
  | nil =>
    rw [mapM_nil, pure_eq_ok]
    simp [eq_comm]
  | cons x xs ih =>
    rw [mapM_cons, bind_eq_ok]
    constructor
    · rintro ⟨y, hy, hrest⟩
      obtain ⟨_, hys', hys⟩ := bind_eq_ok.mp hrest
      obtain ⟨rfl, hall⟩ := ih.mp hys'
      rw [pure_eq_ok] at hys
      have hyg := hg x y hy
      subst hyg hys
      exact ⟨rfl, forall_mem_cons.mpr ⟨hy, hall⟩⟩
    · rintro ⟨rfl, hall⟩
      obtain ⟨hx, hxs⟩ := forall_mem_cons.mp hall
      exact ⟨g x, hx, bind_eq_ok.mpr ⟨xs.map g, ih.mpr ⟨rfl, hxs⟩, rfl⟩⟩

/-- A traversal that threads a state: what each of its steps keeps of the elements that it has passed
holds of the whole list at its end. -/
theorem foldlM_eq_ok_invariant {f : γ → β → Except ε γ} {P : List β → γ → Prop} {c c' : γ}
    (hstep : ∀ done x c c', x ∈ xs → P done c → f c x = .ok c' → P (done ++ [x]) c') (h : xs.foldlM f c = .ok c')
    (hc : P [] c) : P xs c' := by
  have hrest : ∀ rest done c, (∀ x ∈ rest, x ∈ xs) → P done c → rest.foldlM f c = .ok c' →
      P (done ++ rest) c' := by
    intro rest
    induction rest with
    | nil =>
      intro done c _ hdone hfold
      rw [foldlM_nil, pure_eq_ok] at hfold
      rwa [List.append_nil, ← hfold]
    | cons x _ ih =>
      intro done c hmem hdone hfold
      rw [foldlM_cons, bind_eq_ok] at hfold
      obtain ⟨c₁, hx, hfold⟩ := hfold
      have hnext : P (done ++ [x]) c₁ := hstep done x c c₁ (hmem x mem_cons_self) hdone hx
      have hend := ih (done ++ [x]) c₁ (fun y hy => hmem y (mem_cons_of_mem x hy)) hnext hfold
      rwa [append_assoc] at hend
  exact hrest xs [] c (fun _ hx => hx) hc h

end Transaction
