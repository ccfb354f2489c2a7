import Mathlib.Data.List.Basic
import Mathlib.Data.List.Flatten
import Mathlib.Order.Nat

/-!
# Replacing intervals of a list

Replacements of intervals are spliced into a list from the last to the first.  The list with all replacements made at
once keeps every item that is in no interval.  Where every interval ends before the next one begins, the two are the
same; an insertion that comes behind an interval which reaches over its position loses one item for every item of
the list that it pushes out.
-/

namespace Splice

open List

variable {α : Type*}

/-- A segment that replaces the `size` items from `start` on. -/
structure Replacement (α : Type*) where
  start : ℕ
  size : ℕ
  segment : List α
deriving DecidableEq

namespace Replacement

/-- The first position behind the interval. -/
def stop (r : Replacement α) : ℕ := r.start + r.size

/-- The interval has a position. -/
def Covers (r : Replacement α) (i : ℕ) : Prop := r.start ≤ i ∧ i < r.stop

instance (r : Replacement α) (i : ℕ) : Decidable (r.Covers i) :=
  inferInstanceAs (Decidable (_ ∧ _))

/-- No position is in both intervals. -/
def Disjoint (r s : Replacement α) : Prop := ∀ i, ¬(r.Covers i ∧ s.Covers i)

lemma start_le_stop (r : Replacement α) : r.start ≤ r.stop := Nat.le_add_right _ _

end Replacement

/-- Replace one interval. -/
def splice (r : Replacement α) (items : List α) : List α :=
  items.take r.start ++ (r.segment ++ items.drop r.stop)

/-- Replace the intervals one after another, from the last to the first. -/
def spliceAll (rs : List (Replacement α)) (items : List α) : List α := rs.foldr splice items

def piece (rs : List (Replacement α)) (items : List α) (i : ℕ) : List α :=
  (rs.filter fun r => r.start = i).flatMap (·.segment) ++
    if ∃ r ∈ rs, r.Covers i then [] else items[i]?.toList

/-- Replace all intervals at once. -/
def simultaneous (rs : List (Replacement α)) (items : List α) : List α :=
  (List.range (items.length + 1)).flatMap (piece rs items)

/-- Every interval ends before the next one begins. -/
def Chain (rs : List (Replacement α)) : Prop := rs.Pairwise fun r s => r.stop ≤ s.start

/-- The result from a position on, up to the end of the last interval. -/
def kept (items : List α) : ℕ → List (Replacement α) → List α
  | _, [] => []
  | pos, r :: rs => (items.take r.start).drop pos ++ (r.segment ++ kept items r.stop rs)

def endFrom : ℕ → List (Replacement α) → ℕ
  | pos, [] => pos
  | _, r :: rs => endFrom r.stop rs

lemma endFrom_concat (pos : ℕ) (rs : List (Replacement α)) (r : Replacement α) : endFrom pos (rs ++ [r]) = r.stop := by
  induction rs generalizing pos with
  | nil => rfl
  | cons first _ ih => exact ih first.stop

variable {items : List α} {pos : ℕ} {rs : List (Replacement α)}

lemma spliceAll_eq_kept (hchain : Chain rs) (hstart : ∀ r ∈ rs, pos ≤ r.start)
    (hstop : ∀ r ∈ rs, r.stop ≤ items.length) :
    spliceAll rs items = items.take pos ++ (kept items pos rs ++ items.drop (endFrom pos rs)) := by
  induction rs generalizing pos with
  | nil => exact (take_append_drop pos items).symm
  | cons r rs ih =>
    obtain ⟨hfirst, hrest⟩ := pairwise_cons.mp hchain
    have hle : r.stop ≤ items.length := hstop r mem_cons_self
    have hpos : pos ≤ r.start := hstart r mem_cons_self
    have hbelow := ih hrest hfirst fun s hs => hstop s (mem_cons_of_mem r hs)
    have hlength : (items.take r.stop).length = r.stop := length_take_of_le hle
    have htake : (spliceAll rs items).take r.start = items.take r.start := by
      rw [hbelow, take_append_of_le_length (hlength.symm ▸ r.start_le_stop), take_take,
        Nat.min_eq_left r.start_le_stop]
    have hdrop : (spliceAll rs items).drop r.stop = kept items r.stop rs ++ items.drop (endFrom r.stop rs) := by
      rw [hbelow, drop_append_of_le_length hlength.ge, drop_eq_nil_of_le hlength.le, nil_append]
    have hsplit : items.take r.start = items.take pos ++ (items.take r.start).drop pos := by
      conv_lhs => rw [← take_append_drop pos (items.take r.start)]
      rw [take_take, Nat.min_eq_left hpos]
    have hstep : spliceAll (r :: rs) items = splice r (spliceAll rs items) := rfl
    rw [hstep, splice, htake, hdrop, hsplit]
    simp [kept, endFrom]

lemma kept_congr {items' : List α} {bound : ℕ} (hitems : items.take bound = items'.take bound)
    (hstart : ∀ r ∈ rs, r.start ≤ bound) :
    kept items pos rs = kept items' pos rs := by
  induction rs generalizing pos with
  | nil => rfl
  | cons r _ ih =>
    have hle : r.start ≤ bound := hstart r mem_cons_self
    have htake : items.take r.start = items'.take r.start := by
      have hcut := congrArg (List.take r.start) hitems
      rwa [take_take, take_take, Nat.min_eq_left hle] at hcut
    rw [kept, kept, htake, ih fun s hs => hstart s (mem_cons_of_mem r hs)]

lemma flatMap_getElem?_range' (items : List α) (pos n : ℕ) :
    ((List.range' pos n).flatMap fun i => items[i]?.toList) = (items.take (pos + n)).drop pos := by
  induction n with
  | zero => simp
  | succ n ih =>
    rw [range'_concat, flatMap_append, ih, ← Nat.add_assoc, take_add_one, drop_append]
    by_cases hlt : pos + n < items.length
    · have hlength : (items.take (pos + n)).length = pos + n := length_take_of_le hlt.le
      rw [hlength, Nat.sub_eq_zero_of_le (Nat.le_add_right pos n), drop_zero]
      simp
    · simp [getElem?_eq_none (Nat.not_lt.mp hlt)]

lemma piece_of_forall_lt_start {i : ℕ} (h : ∀ r ∈ rs, i < r.start) : piece rs items i = items[i]?.toList := by
  have hfilter : (rs.filter fun r => r.start = i) = [] := by
    refine filter_eq_nil_iff.mpr fun r hr => ?_
    have hlt := h r hr
    simp only [decide_eq_true_eq]
    omega
  have hcovers : ¬∃ r ∈ rs, r.Covers i := by
    rintro ⟨r, hr, hle, -⟩
    exact absurd (h r hr) (Nat.not_lt.mpr hle)
  rw [piece, hfilter, if_neg hcovers]
  rfl

/-- Behind an interval it no longer matters. -/
lemma piece_cons_of_stop_le {r : Replacement α} {i : ℕ} (hstart : r.start ≠ i) (hstop : r.stop ≤ i) :
    piece (r :: rs) items i = piece rs items i := by
  have hnot : ¬r.Covers i := fun hcovers => absurd hcovers.2 (Nat.not_lt.mpr hstop)
  have hiff : (∃ s ∈ r :: rs, s.Covers i) ↔ ∃ s ∈ rs, s.Covers i := by simp [hnot]
  rw [piece, piece, filter_cons_of_neg (by simp [hstart])]
  congr 1
  simp only [hiff]

lemma flatMap_piece_start {r : Replacement α} (hchain : Chain (r :: rs)) (hstop : r.stop ≤ items.length) :
    (List.range' r.start (items.length + 1 - r.start)).flatMap (piece (r :: rs) items) =
      r.segment ++ (List.range' r.stop (items.length + 1 - r.stop)).flatMap (piece rs items) := by
  have hfirst : ∀ s ∈ rs, r.stop ≤ s.start := (pairwise_cons.mp hchain).1
  have hstartStop := r.start_le_stop
  have hhead : List.range' r.start (items.length + 1 - r.start) =
      r.start :: List.range' (r.start + 1) (items.length - r.start) := by
    have hcount : items.length + 1 - r.start = items.length - r.start + 1 := by omega
    rw [hcount, range'_succ]
  by_cases hsize : r.size = 0
  · -- An insertion: its position is the first one behind it.
    have hsame : r.stop = r.start := by simp [Replacement.stop, hsize]
    have hnot : ∀ i, ¬r.Covers i := fun i hcovers => by
      have hlt := hcovers.2
      have hle := hcovers.1
      omega
    have hpiece : piece (r :: rs) items r.start = r.segment ++ piece rs items r.start := by
      have hiff : (∃ s ∈ r :: rs, s.Covers r.start) ↔ ∃ s ∈ rs, s.Covers r.start := by simp [hnot]
      rw [piece, piece, filter_cons_of_pos (by simp), flatMap_cons, append_assoc]
      simp only [hiff]
    have hbehind : (List.range' (r.start + 1) (items.length - r.start)).flatMap (piece (r :: rs) items) =
        (List.range' (r.start + 1) (items.length - r.start)).flatMap (piece rs items) := by
      refine flatMap_congr fun i hi => ?_
      have hlt := (mem_range'_1.mp hi).1
      exact piece_cons_of_stop_le (by omega) (by omega)
    rw [hsame, hhead, flatMap_cons, flatMap_cons, hpiece, hbehind, append_assoc]
  · -- A replacement: nothing stands at the positions that are left of its interval.
    have hlt : r.start < r.stop := Nat.lt_add_of_pos_right (Nat.pos_of_ne_zero hsize)
    have hrange : List.range' (r.start + 1) (items.length - r.start) =
        List.range' (r.start + 1) (r.size - 1) ++ List.range' r.stop (items.length + 1 - r.stop) := by
      have hcount : items.length - r.start = (r.size - 1) + (items.length + 1 - r.stop) := by
        unfold Replacement.stop at *
        omega
      have hnext : r.start + 1 + 1 * (r.size - 1) = r.stop := by
        unfold Replacement.stop
        omega
      rw [hcount, ← range'_append, hnext]
    have hcovered : ∀ i, r.start ≤ i → i < r.stop → ∃ s ∈ r :: rs, s.Covers i :=
      fun i hle hlt => ⟨r, mem_cons_self, hle, hlt⟩
    have hfilter : ∀ i < r.stop, (rs.filter fun s => s.start = i) = [] := by
      intro i hi
      refine filter_eq_nil_iff.mpr fun s hs => ?_
      have hle := hfirst s hs
      simp only [decide_eq_true_eq]
      omega
    have hpiece : piece (r :: rs) items r.start = r.segment := by
      rw [piece, filter_cons_of_pos (by simp), hfilter r.start hlt, if_pos (hcovered r.start le_rfl hlt)]
      simp
    have hinside : (List.range' (r.start + 1) (r.size - 1)).flatMap (piece (r :: rs) items) = [] := by
      refine flatMap_eq_nil_iff.mpr fun i hi => ?_
      obtain ⟨_, _⟩ := mem_range'_1.mp hi
      have hi' : i < r.stop := by
        unfold Replacement.stop
        omega
      have hne : r.start ≠ i := by omega
      rw [piece, filter_cons_of_neg (by simp [hne]), hfilter i hi', if_pos (hcovered i (by omega) hi')]
      rfl
    have hbehind : (List.range' r.stop (items.length + 1 - r.stop)).flatMap (piece (r :: rs) items) =
        (List.range' r.stop (items.length + 1 - r.stop)).flatMap (piece rs items) := by
      refine flatMap_congr fun i hi => ?_
      have hle := (mem_range'_1.mp hi).1
      exact piece_cons_of_stop_le (by omega) hle
    rw [hhead, flatMap_cons, hpiece, hrange, flatMap_append, hinside, hbehind, nil_append]

/-- From a position on, replacing all intervals at once keeps what is between them. -/
lemma flatMap_piece_eq_kept (hchain : Chain rs) (hpos : pos ≤ items.length) (hstart : ∀ r ∈ rs, pos ≤ r.start)
    (hstop : ∀ r ∈ rs, r.stop ≤ items.length) :
    (List.range' pos (items.length + 1 - pos)).flatMap (piece rs items) =
      kept items pos rs ++ items.drop (endFrom pos rs) := by
  induction rs generalizing pos with
  | nil =>
    have hpiece : ∀ i ∈ List.range' pos (items.length + 1 - pos), piece [] items i = items[i]?.toList :=
      fun i _ => piece_of_forall_lt_start (by simp)
    have hall : items.take (pos + (items.length + 1 - pos)) = items := take_of_length_le (by omega)
    rw [flatMap_congr hpiece, flatMap_getElem?_range', hall]
    rfl
  | cons r rs ih =>
    obtain ⟨hfirst, hrest⟩ := pairwise_cons.mp hchain
    have hle : r.stop ≤ items.length := hstop r mem_cons_self
    have hge : pos ≤ r.start := hstart r mem_cons_self
    have hstartStop := r.start_le_stop
    have hrange : List.range' pos (items.length + 1 - pos) =
        List.range' pos (r.start - pos) ++ List.range' r.start (items.length + 1 - r.start) := by
      have hcount : items.length + 1 - pos = (r.start - pos) + (items.length + 1 - r.start) := by omega
      have hnext : pos + 1 * (r.start - pos) = r.start := by omega
      rw [hcount, ← range'_append, hnext]
    have hbefore : ∀ i ∈ List.range' pos (r.start - pos), piece (r :: rs) items i = items[i]?.toList := by
      intro i hi
      have hlt := (mem_range'_1.mp hi).2
      refine piece_of_forall_lt_start fun s hs => ?_
      rcases mem_cons.mp hs with rfl | hs
      · omega
      · have hles := hfirst s hs
        omega
    have hnext : pos + (r.start - pos) = r.start := by omega
    rw [hrange, flatMap_append, flatMap_congr hbefore, flatMap_getElem?_range', hnext,
      flatMap_piece_start hchain hle, ih hrest hle hfirst fun s hs => hstop s (mem_cons_of_mem r hs)]
    simp [kept, endFrom]

/-- Intervals that follow one another are replaced one after another as they are all at once. -/
theorem spliceAll_eq_simultaneous (hchain : Chain rs) (hstop : ∀ r ∈ rs, r.stop ≤ items.length) :
    spliceAll rs items = simultaneous rs items := by
  rw [spliceAll_eq_kept hchain (fun r _ => Nat.zero_le r.start) hstop, simultaneous, range_eq_range',
    ← flatMap_piece_eq_kept hchain (Nat.zero_le _) (fun r _ => Nat.zero_le r.start) hstop]
  simp

lemma spliceAll_insertions {front rear : List α} (h : ∀ r ∈ rs, r.start = front.length ∧ r.size = 0) :
    spliceAll rs (front ++ rear) = front ++ (rs.flatMap (·.segment) ++ rear) := by
  induction rs with
  | nil => rfl
  | cons r rs ih =>
    obtain ⟨hstart, hsize⟩ := h r mem_cons_self
    have hstop : r.stop = front.length := by simp [Replacement.stop, hstart, hsize]
    have hstep : spliceAll (r :: rs) (front ++ rear) = splice r (spliceAll rs (front ++ rear)) := rfl
    rw [hstep, ih fun s hs => h s (mem_cons_of_mem r hs), splice, hstart, hstop]
    simp

lemma drop_one_concat_eq_self_iff {x : α} : (items ++ [x]).drop 1 = items ↔ ∀ y ∈ items, y = x := by
  induction items with
  | nil => simp
  | cons first rest ih =>
    have hdrop : ((first :: rest) ++ [x]).drop 1 = rest ++ [x] := rfl
    rw [hdrop]
    cases rest with
    | nil => simp [eq_comm]
    | cons second rest =>
      have hdrop' : ((second :: rest) ++ [x]).drop 1 = rest ++ [x] := rfl
      rw [hdrop'] at ih
      constructor
      · intro h
        obtain ⟨hhead, htail⟩ := cons.inj h
        subst hhead
        have hall := ih.mp htail
        intro y hy
        rcases mem_cons.mp hy with rfl | hy
        · exact hall y mem_cons_self
        · exact hall y hy
      · intro h
        have htail := ih.mpr fun y hy => h y (mem_cons_of_mem first hy)
        have hhead : second = first := by rw [h second (by simp), h first mem_cons_self]
        rw [cons_append, htail, hhead]

variable {rs behind : List (Replacement α)} {r : Replacement α} {front : List α} {last : α}

variable (hchain : Chain (rs ++ [r])) (hstart : r.start ≤ front.length)
  (hstop : r.stop = front.length + 1) (hbehind : ∀ s ∈ behind, s.start = front.length ∧ s.size = 0)

include hchain hstart hstop hbehind

lemma spliceAll_behind :
    spliceAll (rs ++ r :: behind) (front ++ [last]) =
      kept (front ++ [last]) 0 (rs ++ [r]) ++ (behind.flatMap (·.segment) ++ [last]).drop 1 := by
  have hbefore : ∀ s ∈ rs, s.stop ≤ r.start := fun s hs =>
    (pairwise_append.mp hchain).2.2 s hs r (mem_singleton.mpr rfl)
  have hstarts : ∀ s ∈ rs ++ [r], s.start ≤ front.length := by
    intro s hs
    rcases mem_append.mp hs with hs | hs
    · exact (s.start_le_stop.trans (hbefore s hs)).trans hstart
    · exact (mem_singleton.mp hs) ▸ hstart
  have hstops : ∀ s ∈ rs ++ [r], s.stop ≤ (front ++ (behind.flatMap (·.segment) ++ [last])).length := by
    intro s hs
    have hle : s.stop ≤ front.length + 1 := by
      rcases mem_append.mp hs with hs | hs
      · exact (hbefore s hs).trans (hstart.trans (Nat.le_succ _))
      · exact (mem_singleton.mp hs) ▸ hstop.le
    refine hle.trans ?_
    simp
  have happly : spliceAll (rs ++ r :: behind) (front ++ [last]) =
      spliceAll (rs ++ [r]) (spliceAll behind (front ++ [last])) := by
    simp [spliceAll]
  have hcongr : kept (front ++ (behind.flatMap (·.segment) ++ [last])) 0 (rs ++ [r]) =
      kept (front ++ [last]) 0 (rs ++ [r]) :=
    kept_congr (by simp) hstarts
  rw [happly, spliceAll_insertions hbehind, spliceAll_eq_kept hchain (fun s _ => Nat.zero_le s.start) hstops,
    hcongr, endFrom_concat, hstop, take_zero, nil_append, drop_append]
  simp

/-- Replaced at once, the insertions follow the interval. -/
lemma simultaneous_behind :
    simultaneous (rs ++ r :: behind) (front ++ [last]) =
      kept (front ++ [last]) 0 (rs ++ [r]) ++ behind.flatMap (·.segment) := by
  have hbefore : ∀ s ∈ rs, s.stop ≤ r.start := fun s hs =>
    (pairwise_append.mp hchain).2.2 s hs r (mem_singleton.mpr rfl)
  have hstops : ∀ s ∈ rs ++ [r], s.stop ≤ (front ++ [last]).length := by
    intro s hs
    rw [length_append, length_singleton]
    rcases mem_append.mp hs with hs | hs
    · exact (hbefore s hs).trans (hstart.trans (Nat.le_succ _))
    · exact (mem_singleton.mp hs) ▸ hstop.le
  have hkept := spliceAll_eq_kept hchain (fun s _ => Nat.zero_le s.start) hstops
  rw [spliceAll_eq_simultaneous hchain hstops, endFrom_concat, hstop] at hkept
  have hkept' : simultaneous (rs ++ [r]) (front ++ [last]) = kept (front ++ [last]) 0 (rs ++ [r]) := by
    simpa using hkept
  have hnone : ∀ s ∈ behind, ∀ i, ¬s.Covers i := by
    rintro s hs _ ⟨_, hlt⟩
    have hsize := (hbehind s hs).2
    unfold Replacement.stop at hlt
    omega
  have hcovers : ∀ i, (∃ s ∈ rs ++ r :: behind, s.Covers i) ↔ ∃ s ∈ rs ++ [r], s.Covers i := by
    intro i
    constructor
    · rintro ⟨s, hs, hcovers⟩
      refine ⟨s, ?_, hcovers⟩
      rcases mem_append.mp hs with hs | hs
      · exact mem_append_left _ hs
      · rcases mem_cons.mp hs with rfl | hs
        · simp
        · exact absurd hcovers (hnone s hs i)
    · rintro ⟨s, hs, hcovers⟩
      refine ⟨s, ?_, hcovers⟩
      rcases mem_append.mp hs with hs | hs
      · exact mem_append_left _ hs
      · simp [mem_singleton.mp hs]
  have hfilter : ∀ i, ((rs ++ r :: behind).filter fun s => s.start = i) =
      ((rs ++ [r]).filter fun s => s.start = i) ++ behind.filter fun s => s.start = i := by
    intro i
    rw [← filter_append, append_assoc]
    rfl
  have hpiece : ∀ i, i ≠ front.length →
      piece (rs ++ r :: behind) (front ++ [last]) i = piece (rs ++ [r]) (front ++ [last]) i := by
    intro i hi
    have hnil : (behind.filter fun s => s.start = i) = [] := by
      refine filter_eq_nil_iff.mpr fun s hs => ?_
      simp [(hbehind s hs).1, Ne.symm hi]
    rw [piece, piece, hfilter, hnil, List.append_nil]
    simp only [hcovers]
  have hpieceLast : piece (rs ++ r :: behind) (front ++ [last]) front.length =
      piece (rs ++ [r]) (front ++ [last]) front.length ++ behind.flatMap (·.segment) := by
    have hall : (behind.filter fun s => s.start = front.length) = behind :=
      filter_eq_self.mpr fun s hs => by simp [(hbehind s hs).1]
    have hcover : ∃ s ∈ rs ++ [r], s.Covers front.length :=
      ⟨r, by simp, hstart, hstop ▸ Nat.lt_succ_self _⟩
    rw [piece, piece, if_pos ((hcovers _).mpr hcover), if_pos hcover, hfilter, hall]
    simp
  have hpieceEnd : piece (rs ++ [r]) (front ++ [last]) (front.length + 1) = [] := by
    have hnil : ((rs ++ [r]).filter fun s => s.start = front.length + 1) = [] := by
      refine filter_eq_nil_iff.mpr fun s hs => ?_
      have hle : s.start ≤ front.length := by
        rcases mem_append.mp hs with hs | hs
        · exact (s.start_le_stop.trans (hbefore s hs)).trans hstart
        · exact (mem_singleton.mp hs) ▸ hstart
      simp only [decide_eq_true_eq]
      omega
    have hitem : (front ++ [last])[front.length + 1]? = none := by simp
    rw [piece, hnil, hitem]
    simp
  have hlength : (front ++ [last]).length + 1 = front.length + 1 + 1 := by simp
  have hfront : ∀ i ∈ List.range front.length,
      piece (rs ++ r :: behind) (front ++ [last]) i = piece (rs ++ [r]) (front ++ [last]) i :=
    fun i hi => hpiece i (mem_range.mp hi).ne
  rw [← hkept', simultaneous, simultaneous, hlength, range_succ, range_succ, flatMap_append,
    flatMap_append, flatMap_append, flatMap_append, flatMap_congr hfront]
  simp [hpieceLast, hpiece (front.length + 1) (Nat.succ_ne_self _), hpieceEnd]

/-- Insertions that come behind an interval which reaches over them are kept exactly if they insert nothing but
copies of the last item. -/
theorem spliceAll_behind_eq_simultaneous_iff :
    spliceAll (rs ++ r :: behind) (front ++ [last]) = simultaneous (rs ++ r :: behind) (front ++ [last]) ↔
      ∀ s ∈ behind, ∀ x ∈ s.segment, x = last := by
  rw [spliceAll_behind hchain hstart hstop hbehind, simultaneous_behind hchain hstart hstop hbehind,
    append_cancel_left_eq, drop_one_concat_eq_self_iff]
  simp only [mem_flatMap]
  exact ⟨fun h s hs x hx => h x ⟨s, hs, hx⟩, fun h x hx => hx.elim fun s hs => h s hs.1 x hs.2⟩

end Splice
