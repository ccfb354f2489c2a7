import Mathlib.Algebra.Order.Group.Unbundled.Abs
import Mathlib.Data.Rat.Floor
import Mathlib.Tactic.Linarith
import OpenCorvus.Foundation.ArraySort

/-!
# The ranking of Memory search results

Candidates are scored, filtered and sorted by a comparator that takes scores within a tolerance for equal and then
prefers the newer one.  This is not transitive: no order suits it for three candidates, each newer than the next and
close to it, of which the oldest beats the newest by more than the tolerance.  The ranking is a function of the set
of candidates, and respects the scores up to the tolerance, on every host, exactly when there are no such three.

The formula of the score is left open.
-/

namespace OpenCorvus.Memory

open ArraySort List

inductive MemoryKind where
  | note
  | episode
  | fact
  | lesson
  | profile
  | userMessage
  | projectContext

/-- `kind in KIND_WEIGHT`. -/
def isSearchableKind : MemoryKind → Bool
  | .profile | .lesson | .fact | .note | .episode => true
  | .userMessage | .projectContext => false

inductive MemorySource where
  | agent
  | compaction
  | user
  | reflection

/-- A row of the full-text query; a metric of `none` is not a number. -/
structure ScoredCandidateRow where
  chunkID : String
  fileID : String
  title : String
  content : String
  source : MemorySource
  kind : MemoryKind
  key : Option String
  importance : Option ℚ
  confidence : Option ℚ
  timeCreated : ℤ
  rank : ℚ

structure MemorySearchResult where
  chunkID : String
  fileID : String
  fileTitle : String
  content : String
  source : MemorySource
  kind : MemoryKind
  key : Option String
  importance : ℤ
  confidence : ℤ
  score : ℚ
  timeCreated : ℤ

def clampScore (value : Option ℚ) (defaultValue : ℤ) : ℤ :=
  match value with
  | none => defaultValue
  | some value => max 0 (min 100 ⌊value + 1 / 2⌋)

def compareResults (a b : MemorySearchResult) : ℚ :=
  if 1 / 1000 < |b.score - a.score| then b.score - a.score else b.timeCreated - a.timeCreated

/-- The result of a candidate that is searchable and scores high enough. -/
def candidateResult (scoreOf : ScoredCandidateRow → ℚ) (minScore : ℚ) (row : ScoredCandidateRow) :
    Option MemorySearchResult :=
  if isSearchableKind row.kind then
    if scoreOf row < minScore then none
    else
      some {
        chunkID := row.chunkID
        fileID := row.fileID
        fileTitle := row.title
        content := row.content
        source := row.source
        kind := row.kind
        key := row.key
        importance := clampScore row.importance 60
        confidence := clampScore row.confidence 75
        score := scoreOf row
        timeCreated := row.timeCreated }
  else none

def rankCandidates (host : Host MemorySearchResult) (scoreOf : ScoredCandidateRow → ℚ) (minScore : ℚ) (limit : ℕ)
    (rows : List ScoredCandidateRow) : List MemorySearchResult :=
  (host.sort compareResults (rows.filterMap (candidateResult scoreOf minScore))).take limit

/-- The ranking is the same for every order of the rows, and ranks no result above one that scores higher by more
than the tolerance. -/
def RankingConsistent (host : Host MemorySearchResult) (scoreOf : ScoredCandidateRow → ℚ) (minScore : ℚ) (limit : ℕ)
    (rows : List ScoredCandidateRow) : Prop :=
  (∀ rows' : List ScoredCandidateRow, rows'.Perm rows →
    rankCandidates host scoreOf minScore limit rows' = rankCandidates host scoreOf minScore limit rows) ∧
  (rankCandidates host scoreOf minScore limit rows).Pairwise fun above below => below.score ≤ above.score + 1 / 1000

/-- Each of the three is as new as the next and within the tolerance of it, and the last one beats the first. -/
structure Cycle (a b c : MemorySearchResult) : Prop where
  newer : b.timeCreated ≤ a.timeCreated
  newer' : c.timeCreated ≤ b.timeCreated
  close : |b.score - a.score| ≤ 1 / 1000
  close' : |c.score - b.score| ≤ 1 / 1000
  beats : a.score + 1 / 1000 < c.score

/-- No three of the candidates that are ranked form a cycle. -/
def Acyclic (scoreOf : ScoredCandidateRow → ℚ) (minScore : ℚ) (rows : List ScoredCandidateRow) : Prop :=
  ∀ a ∈ rows.filterMap (candidateResult scoreOf minScore), ∀ b ∈ rows.filterMap (candidateResult scoreOf minScore),
    ∀ c ∈ rows.filterMap (candidateResult scoreOf minScore), ¬Cycle a b c

section

variable {a b c : MemorySearchResult} {results : List MemorySearchResult}

lemma compareResults_le_zero_iff : compareResults a b ≤ 0 ↔
    b.score + 1 / 1000 < a.score ∨ |b.score - a.score| ≤ 1 / 1000 ∧ b.timeCreated ≤ a.timeCreated := by
  unfold compareResults
  split_ifs with hfar
  · rcases lt_abs.mp hfar with h | h
    · refine iff_of_false (by linarith) ?_
      rintro (hbeats | ⟨hclose, -⟩)
      · linarith
      · linarith
    · exact iff_of_true (by linarith) (.inl (by linarith))
  · have hclose := not_lt.mp hfar
    rw [sub_nonpos, Int.cast_le, or_iff_right, and_iff_right hclose]
    have := abs_le.mp hclose
    linarith

lemma Cycle.not_consistentOn (h : Cycle a b c) (ha : a ∈ results) (hb : b ∈ results) (hc : c ∈ results) :
    ¬ConsistentOn compareResults results := by
  intro hconsistent
  have hac := hconsistent.trans a ha b hb c hc (compareResults_le_zero_iff.mpr (.inr ⟨h.close, h.newer⟩))
    (compareResults_le_zero_iff.mpr (.inr ⟨h.close', h.newer'⟩))
  have hbeats := h.beats
  rcases compareResults_le_zero_iff.mp hac with hfar | ⟨hclose, -⟩
  · linarith
  · have := abs_le.mp hclose
    linarith

lemma consistentOn_of_forall_not_cycle (h : ∀ a ∈ results, ∀ b ∈ results, ∀ c ∈ results, ¬Cycle a b c) :
    ConsistentOn compareResults results where
  total x _ y _ := by
    rw [compareResults_le_zero_iff, compareResults_le_zero_iff, abs_sub_comm]
    rcases lt_or_ge (1 / 1000) |x.score - y.score| with hfar | hclose
    · rcases lt_abs.mp hfar with hlt | hlt
      · exact .inl (.inl (by linarith))
      · exact .inr (.inl (by linarith))
    · rcases le_total x.timeCreated y.timeCreated with hle | hle
      · exact .inr (.inr ⟨hclose, hle⟩)
      · exact .inl (.inr ⟨hclose, hle⟩)
  trans x hx y hy z hz hxy hyz := by
    rw [compareResults_le_zero_iff] at hxy hyz ⊢
    by_contra hxz
    rw [not_or, not_lt, not_and, not_le] at hxz
    obtain ⟨hle, holder⟩ := hxz
    rcases hxy with hxy | ⟨hxy, hnewer⟩ <;> rcases hyz with hyz | ⟨hyz, hnewer'⟩
    · linarith
    · -- the second and third are newer than the first, which beats the second
      have hyz' := abs_le.mp hyz
      have hclose : |z.score - x.score| ≤ 1 / 1000 := abs_le.mpr ⟨by linarith, by linarith⟩
      exact h y hy z hz x hx ⟨hnewer', (holder hclose).le, hyz, by rwa [abs_sub_comm], hxy⟩
    · have hxy' := abs_le.mp hxy
      have hclose : |z.score - x.score| ≤ 1 / 1000 := abs_le.mpr ⟨by linarith, by linarith⟩
      exact h z hz x hx y hy ⟨(holder hclose).le, hnewer, by rwa [abs_sub_comm], hxy, hyz⟩
    · rcases lt_or_ge (x.score + 1 / 1000) z.score with hbeats | hbelow
      · exact h x hx y hy z hz ⟨hnewer, hnewer', hxy, hyz, hbeats⟩
      · have hclose : |z.score - x.score| ≤ 1 / 1000 := abs_le.mpr ⟨by linarith, by linarith⟩
        exact absurd (hnewer'.trans hnewer) (not_le.mpr (holder hclose))

end

section

variable {scoreOf : ScoredCandidateRow → ℚ} {minScore : ℚ} {limit : ℕ} {rows : List ScoredCandidateRow}
  {row row' : ScoredCandidateRow} {result result' : MemorySearchResult}

lemma candidateResult_timeCreated (h : candidateResult scoreOf minScore row = some result) :
    result.timeCreated = row.timeCreated := by
  unfold candidateResult at h
  split_ifs at h
  rw [← Option.some.inj h]

lemma eq_of_timeCreated_eq (hdistinct : (rows.map (·.timeCreated)).Nodup)
    (hresult : result ∈ rows.filterMap (candidateResult scoreOf minScore))
    (hresult' : result' ∈ rows.filterMap (candidateResult scoreOf minScore))
    (h : result.timeCreated = result'.timeCreated) : result = result' := by
  obtain ⟨row, hrow, hsome⟩ := mem_filterMap.mp hresult
  obtain ⟨row', hrow', hsome'⟩ := mem_filterMap.mp hresult'
  rw [candidateResult_timeCreated hsome, candidateResult_timeCreated hsome'] at h
  obtain rfl := inj_on_of_nodup_map hdistinct hrow hrow' h
  exact Option.some.inj (hsome.symm.trans hsome')

lemma rankingConsistent_of_acyclic (host : Host MemorySearchResult) (hdistinct : (rows.map (·.timeCreated)).Nodup)
    (h : Acyclic scoreOf minScore rows) : RankingConsistent host scoreOf minScore limit rows := by
  have hconsistent := consistentOn_of_forall_not_cycle h
  constructor
  · intro rows' hperm
    refine congrArg (List.take limit) (host.sort_eq_of_perm (hperm.filterMap _) hconsistent fun x hx y hy hxy hyx => ?_)
    refine eq_of_timeCreated_eq hdistinct hx hy ?_
    rcases compareResults_le_zero_iff.mp hxy with hxy | ⟨hxy, hle⟩ <;>
      rcases compareResults_le_zero_iff.mp hyx with hyx | ⟨hyx, hle'⟩
    · linarith
    · linarith [(abs_le.mp hyx).2]
    · linarith [(abs_le.mp hxy).2]
    · exact le_antisymm hle' hle
  · refine ((host.sorted _ _ hconsistent).sublist (take_sublist _ _)).imp fun hle => ?_
    rcases compareResults_le_zero_iff.mp hle with hfar | ⟨hclose, -⟩
    · linarith
    · linarith [(abs_le.mp hclose).2]

/-- On a host that leaves inconsistent arrays alone, a ranking that is the same for every order has no cycle. -/
lemma acyclic_of_rankingConsistent (hlimit : limit ≠ 0)
    (h : RankingConsistent lazyHost scoreOf minScore limit rows) : Acyclic scoreOf minScore rows := by
  intro a ha b hb c hc hcycle
  obtain ⟨limit, rfl⟩ := Nat.exists_eq_succ_of_ne_zero hlimit
  have hhead (result : MemorySearchResult) (hresult : result ∈ rows.filterMap (candidateResult scoreOf minScore)) :
      (rankCandidates lazyHost scoreOf minScore (limit + 1) rows).head? = some result := by
    obtain ⟨row, hrow, hsome⟩ := mem_filterMap.mp hresult
    obtain ⟨before, after, rfl⟩ := append_of_mem hrow
    have hperm : (row :: (before ++ after)).Perm (before ++ row :: after) := perm_middle.symm
    have hmem (other : MemorySearchResult) := (hperm.filterMap (candidateResult scoreOf minScore)).mem_iff (a := other)
    rw [← h.1 _ hperm, rankCandidates,
      sort_lazyHost (hcycle.not_consistentOn ((hmem a).mpr ha) ((hmem b).mpr hb) ((hmem c).mpr hc)),
      filterMap_cons, hsome, take_succ_cons, head?_cons]
  have hsame := Option.some.inj ((hhead a ha).symm.trans (hhead c hc))
  have hbeats := hcycle.beats
  rw [hsame] at hbeats
  linarith

theorem rankingConsistent_iff (hdistinct : (rows.map (·.timeCreated)).Nodup) :
    (∀ host, RankingConsistent host scoreOf minScore limit rows) ↔ limit = 0 ∨ Acyclic scoreOf minScore rows := by
  constructor
  · intro h
    by_cases hlimit : limit = 0
    · exact .inl hlimit
    · exact .inr (acyclic_of_rankingConsistent hlimit (h lazyHost))
  · rintro (rfl | hacyclic) host
    · exact ⟨fun _ _ => by rw [rankCandidates, rankCandidates, take_zero, take_zero],
        by rw [rankCandidates, take_zero]; exact List.Pairwise.nil⟩
    · exact rankingConsistent_of_acyclic host hdistinct hacyclic

end

def factRow (chunkID : String) (rank : ℚ) (timeCreated : ℤ) : ScoredCandidateRow where
  chunkID
  fileID := "file"
  title := ""
  content := ""
  source := .agent
  kind := .fact
  key := none
  importance := some 60
  confidence := some 75
  timeCreated
  rank

/-- Three facts, each newer than the next, whose scores rise by less than the tolerance. -/
def risingRows : List ScoredCandidateRow :=
  [factRow "new" (5000 / 10000) 3, factRow "middle" (5008 / 10000) 2, factRow "old" (5016 / 10000) 1]

theorem rankingConsistent_iff_rising :
    (∀ host, RankingConsistent host (·.rank) (1 / 10) 6 risingRows) ↔ 6 = 0 ∨ Acyclic (·.rank) (1 / 10) risingRows :=
  rankingConsistent_iff (by decide)

theorem not_rankingConsistent_rising : ¬RankingConsistent insertionHost (·.rank) (1 / 10) 6 risingRows := by
  exact fun h => absurd h.2 (by decide +kernel)

end OpenCorvus.Memory
