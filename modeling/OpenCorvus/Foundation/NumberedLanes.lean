import OpenCorvus.Foundation.EcmaScript

/-!
# Rows numbered in lanes

A table holds the rows of many lanes, and each row carries its number within its lane.  When every row is
inserted under the number after the highest one of its lane, the numbers of a lane are 1, 2, 3 and so on, in
order of insertion: there is no gap, and no number is given twice.
-/

namespace NumberedLanes

open List

variable {ρ κ : Type*} [DecidableEq κ] (lane : ρ → κ) (number : ρ → ℕ)

def inLane (rows : List ρ) (k : κ) : List ρ := rows.filter fun row => lane row = k

def frontier (rows : List ρ) (k : κ) : ℕ := EcmaScript.maxOrZero ((inLane lane rows k).map number)

def Dense (rows : List ρ) : Prop :=
  ∀ k, (inLane lane rows k).map number = List.range' 1 (inLane lane rows k).length

variable {lane number} {rows : List ρ} {k : κ} {row : ρ}

@[simp] lemma mem_inLane : row ∈ inLane lane rows k ↔ row ∈ rows ∧ lane row = k := by
  simp [inLane]

lemma inLane_concat :
    inLane lane (rows ++ [row]) k = inLane lane rows k ++ if lane row = k then [row] else [] := by
  unfold inLane
  rw [filter_append]
  split_ifs with h <;> simp [h]

lemma frontier_concat_of_ne (h : lane row ≠ k) :
    frontier lane number (rows ++ [row]) k = frontier lane number rows k := by
  unfold frontier
  rw [inLane_concat, if_neg h, List.append_nil]

@[simp] lemma Dense.nil : Dense lane number [] := fun _ => rfl

section

variable (h : Dense lane number rows)

include h

lemma Dense.mem_numbers {n : ℕ} :
    n ∈ (inLane lane rows k).map number ↔ 1 ≤ n ∧ n ≤ (inLane lane rows k).length := by
  rw [h k, mem_range'_1]
  omega

lemma Dense.number_mem (hrow : row ∈ rows) : 1 ≤ number row ∧ number row ≤ (inLane lane rows (lane row)).length :=
  h.mem_numbers.mp (List.mem_map_of_mem (mem_inLane.mpr ⟨hrow, rfl⟩))

lemma Dense.frontier_eq : frontier lane number rows k = (inLane lane rows k).length := by
  refine le_antisymm (EcmaScript.maxOrZero_le_iff.mpr fun n hn => (h.mem_numbers.mp hn).2) ?_
  rcases Nat.eq_zero_or_pos (inLane lane rows k).length with _ | hpos
  · omega
  · exact EcmaScript.maxOrZero_le_iff.mp le_rfl _ (h.mem_numbers.mpr ⟨hpos, le_rfl⟩)

lemma Dense.le_frontier (hrow : row ∈ rows) :
    1 ≤ number row ∧ number row ≤ frontier lane number rows (lane row) := by
  rw [h.frontier_eq]
  exact h.number_mem hrow

lemma Dense.exists_number {n : ℕ} (hpos : 1 ≤ n) (hle : n ≤ frontier lane number rows k) :
    ∃ row ∈ rows, lane row = k ∧ number row = n := by
  rw [h.frontier_eq] at hle
  obtain ⟨row, hrow, hn⟩ := List.mem_map.mp (h.mem_numbers.mpr ⟨hpos, hle⟩)
  obtain ⟨hmem, hlane⟩ := mem_inLane.mp hrow
  exact ⟨row, hmem, hlane, hn⟩

lemma Dense.eq_of_number {other : ρ} (hrow : row ∈ rows) (hother : other ∈ rows) (hlane : lane row = lane other)
    (hnumber : number row = number other) : row = other := by
  have hnodup : ((inLane lane rows (lane other)).map number).Nodup := by
    rw [h]
    exact nodup_range'
  exact inj_on_of_nodup_map hnodup (mem_inLane.mpr ⟨hrow, hlane⟩) (mem_inLane.mpr ⟨hother, rfl⟩) hnumber

theorem Dense.concat (hnext : number row = frontier lane number rows (lane row) + 1) :
    Dense lane number (rows ++ [row]) := by
  intro k
  rw [inLane_concat]
  split_ifs with hlane
  · subst hlane
    have hnumber : number row = 1 + (inLane lane rows (lane row)).length := by
      rw [hnext, h.frontier_eq, Nat.add_comm]
    rw [map_append, h, length_append, length_singleton, range'_concat,
      map_singleton, hnumber, Nat.one_mul]
  · rw [List.append_nil, h]

lemma Dense.frontier_concat (hnext : number row = frontier lane number rows (lane row) + 1) :
    frontier lane number (rows ++ [row]) k =
      frontier lane number rows k + if lane row = k then 1 else 0 := by
  rw [(h.concat hnext).frontier_eq, h.frontier_eq, inLane_concat]
  split_ifs <;> simp

end

end NumberedLanes
