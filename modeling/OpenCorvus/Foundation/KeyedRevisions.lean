import Mathlib.Logic.Relation
import Mathlib.Data.List.Basic
import Mathlib.Data.Nat.Init

/-!
# Chains of keyed revisions

Each revision of a chain is a partial map from keys to entries, and its successor keeps every key and
relates the two entries of a key by a step relation.  Then every later revision keeps the key, with an
entry that the steps in between reach; and where a property of the entry is lost, it is lost at one of
these steps.
-/

namespace KeyedRevisions

open Relation

variable {γ κ ε : Type*} {entry : γ → κ → Option ε} {R : ε → ε → Prop} {chain : List γ}

def Carries (entry : γ → κ → Option ε) (R : ε → ε → Prop) (former latter : γ) : Prop :=
  ∀ k e, entry former k = some e → ∃ e', entry latter k = some e' ∧ R e e'

def Linked (entry : γ → κ → Option ε) (R : ε → ε → Prop) (chain : List γ) : Prop :=
  ∀ n former latter, chain[n]? = some former → chain[n + 1]? = some latter → Carries entry R former latter

lemma exists_getElem?_of_le {i j : ℕ} {latter : γ} (hij : i ≤ j) (hj : chain[j]? = some latter) :
    ∃ former, chain[i]? = some former := by
  have hlength : j < chain.length := (List.getElem?_eq_some_iff.mp hj).1
  exact ⟨chain[i], List.getElem?_eq_getElem (by omega)⟩

theorem Linked.carries (h : Linked entry R chain) {i j : ℕ} {former latter : γ} (hij : i ≤ j)
    (hi : chain[i]? = some former) (hj : chain[j]? = some latter) :
    Carries entry (ReflTransGen R) former latter := by
  induction j, hij using Nat.le_induction generalizing latter with
  | base =>
    rw [hi, Option.some.injEq] at hj
    subst hj
    exact fun k e he => ⟨e, he, ReflTransGen.refl⟩
  | succ j _ ih =>
    intro k e he
    obtain ⟨middle, hmiddle⟩ := exists_getElem?_of_le (Nat.le_succ j) hj
    obtain ⟨e', he', hreach⟩ := ih hmiddle k e he
    obtain ⟨e'', he'', hstep⟩ := h j middle latter hmiddle hj k e' he'
    exact ⟨e'', he'', hreach.tail hstep⟩

/-- The crossing rule: a property that an entry had and its successor under the same key has not is
lost between two adjacent revisions. -/
theorem Linked.exists_crossing (h : Linked entry R chain) {P : ε → Prop} {i j : ℕ}
    {former latter : γ} {k : κ} {e e' : ε} (hij : i ≤ j) (hi : chain[i]? = some former)
    (hj : chain[j]? = some latter) (he : entry former k = some e) (he' : entry latter k = some e')
    (hP : P e) (hP' : ¬P e') :
    ∃ m prior current a b, i ≤ m ∧ m < j ∧ chain[m]? = some prior ∧ chain[m + 1]? = some current ∧
      entry prior k = some a ∧ entry current k = some b ∧ R a b ∧ P a ∧ ¬P b := by
  induction j, hij using Nat.le_induction generalizing latter e' with
  | base =>
    rw [hi, Option.some.injEq] at hj
    subst hj
    rw [he, Option.some.injEq] at he'
    exact absurd (he' ▸ hP) hP'
  | succ j hij ih =>
    obtain ⟨middle, hmiddle⟩ := exists_getElem?_of_le (Nat.le_succ j) hj
    obtain ⟨a, ha, -⟩ := h.carries hij hi hmiddle k e he
    by_cases hPa : P a
    · -- The property is still there one revision before: it is lost at the last step.
      obtain ⟨b, hb, hstep⟩ := h j middle latter hmiddle hj k a ha
      have hbe : b = e' := Option.some.inj (hb.symm.trans he')
      subst hbe
      exact ⟨j, middle, latter, a, b, hij, by omega, hmiddle, hj, ha, hb, hstep, hPa, hP'⟩
    · obtain ⟨m, prior, current, a', b', him, _, hrest⟩ := ih hmiddle ha hPa
      exact ⟨m, prior, current, a', b', him, by omega, hrest⟩

end KeyedRevisions
