import Mathlib.Data.List.Basic

/-!
# Append-only logs

A log is the list of its rows in the order in which they were appended.  Nothing is said here about
what the rows are.  A condition on an append, which reads the log before it and the appended row, holds
of a whole log when it held at each of its appends.
-/

namespace AppendOnlyLog

variable {ρ : Type*} {Q : List ρ → ρ → Prop} {log : List ρ} {row : ρ}

def AtEachAppend (Q : List ρ → ρ → Prop) (log : List ρ) : Prop :=
  ∀ before row after, log = before ++ row :: after → Q before row

lemma AtEachAppend.nil : AtEachAppend Q [] := by
  intro before row after h
  have hne : before ++ row :: after ≠ [] := by simp
  exact absurd h.symm hne

theorem AtEachAppend.concat (h : AtEachAppend Q log) (hrow : Q log row) : AtEachAppend Q (log ++ [row]) := by
  intro before row' after hsplit
  rcases List.eq_nil_or_concat after with rfl | ⟨after', last, rfl⟩
  · obtain ⟨rfl, hlast⟩ := List.append_inj' hsplit rfl
    rw [List.cons.injEq] at hlast
    exact hlast.1 ▸ hrow
  · have hassoc : before ++ row' :: (after'.concat last) = (before ++ row' :: after') ++ [last] := by
      simp
    rw [hassoc] at hsplit
    exact h before row' after' (List.append_inj' hsplit rfl).1

lemma AtEachAppend.getElem? (h : AtEachAppend Q log) {n : ℕ} (hn : log[n]? = some row) : Q (log.take n) row := by
  obtain ⟨_, hrow⟩ := List.getElem?_eq_some_iff.mp hn
  refine h (log.take n) row (log.drop (n + 1)) ?_
  rw [← hrow, List.getElem_cons_drop, List.take_append_drop]

end AppendOnlyLog
