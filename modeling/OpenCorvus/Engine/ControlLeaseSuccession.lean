import OpenCorvus.Engine.ControlLeaseFrames
import OpenCorvus.Foundation.OrderBy

/-!
# Leases that succeed one another

The leases of a target succeed one another when each was taken after the ones before it had expired.  Then the
last one is the current one, and only this one can be moved by a release or a renewal.
-/

namespace OpenCorvus.Engine

open UniqueIndex OrderBy List

variable {db db' : ControlLeaseTables} {target : EngineControlActivationTarget} {targetID : String}
  {rows : List ControlLease}

def Succeeding (rows : List ControlLease) : Prop :=
  rows.Pairwise fun earlier later =>
    earlier.timeActivated < later.timeActivated ∧ earlier.expiresAt ≤ later.timeActivated

@[simp] lemma Succeeding.nil : Succeeding [] := List.Pairwise.nil

lemma Succeeding.concat (h : Succeeding rows) {lease : ControlLease}
    (hlast : ∀ earlier ∈ rows, earlier.timeActivated < lease.timeActivated ∧
      earlier.expiresAt ≤ lease.timeActivated) : Succeeding (rows ++ [lease]) := by
  refine pairwise_append.mpr ⟨h, pairwise_singleton _ _, fun earlier hearlier later hlater => ?_⟩
  rw [mem_singleton.mp hlater]
  exact hlast earlier hearlier

lemma Succeeding.current_eq_getLast? (h : Succeeding (db.ofTarget target targetID)) :
    currentControlLeaseInTransaction db target targetID = (db.ofTarget target targetID).getLast? :=
  argmax_of_pairwise (h.imp fun hlt => Prod.Lex.toLex_lt_toLex.mpr (Or.inl hlt.1))

lemma Succeeding.eq_or_before (h : Succeeding (db.ofTarget target targetID)) {current lease : ControlLease}
    (hcurrent : currentControlLeaseInTransaction db target targetID = some current)
    (hlease : lease ∈ db.ofTarget target targetID) :
    lease = current ∨ lease.timeActivated < current.timeActivated ∧
      lease.expiresAt ≤ current.timeActivated := by
  rw [h.current_eq_getLast?, getLast?_eq_some_iff] at hcurrent
  obtain ⟨_, hfront⟩ := hcurrent
  rw [hfront] at h hlease
  rcases mem_concat.mp hlease with hold | hlast
  · exact Or.inr ((pairwise_append.mp h).2.2 lease hold current (mem_singleton_self _))
  · exact Or.inl hlast

lemma Moves.succeeding {leaseID : String} (hmoves : Moves db db' leaseID)
    (hids : PrimaryKey ControlLease.id (db.rowsOf target)) {current : ControlLease}
    (hcurrent : currentControlLeaseInTransaction db target targetID = some current)
    (hid : current.id = leaseID) (h : ∀ other, Succeeding (db.ofTarget target other)) (other : String) :
    Succeeding (db'.ofTarget target other) := by
  by_cases hother : other = targetID
  · subst hother
    have hlast := h other
    have hfront := hcurrent
    rw [hlast.current_eq_getLast?, getLast?_eq_some_iff] at hfront
    obtain ⟨front, hfront⟩ := hfront
    obtain ⟨f, hleases, hf⟩ := hmoves
    obtain ⟨hmem, htarget, -⟩ := mem_of_currentControlLease hcurrent
    have hrows := ofTarget_of_map hleases (fun lease => (hf lease).1) target other
    rw [hfront] at hrows hlast
    obtain ⟨hpairs, -, hbefore⟩ := pairwise_append.mp hlast
    -- The leases before the current one stay as they are.
    have hkept : front.map f = front := by
      refine (map_congr_left fun lease hlease => ?_).trans (List.map_id _)
      have hof : lease ∈ db.ofTarget target other := hfront ▸ mem_append_left _ hlease
      rw [ControlLeaseTables.mem_ofTarget] at hof
      refine (hf lease).2 fun hsame => ?_
      have heq : lease = current :=
        hids.eq_of_id (mem_filter.mpr ⟨hof.1, by simpa using hof.2.1⟩)
          (mem_filter.mpr ⟨hmem, by simpa using htarget⟩) (hsame.trans hid.symm)
      have hlt := (hbefore lease hlease current (mem_singleton_self _)).1
      rw [heq] at hlt
      exact absurd hlt (lt_irrefl _)
    rw [hrows, map_append, hkept, map_singleton]
    refine Succeeding.concat hpairs fun earlier hearlier => ?_
    rw [(hf current).1.timeActivated]
    exact hbefore earlier hearlier current (mem_singleton_self _)
  · rw [hmoves.ofTarget_other hids hcurrent hid hother]
    exact h other

end OpenCorvus.Engine
