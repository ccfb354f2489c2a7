import Mathlib.Data.List.Infix
import Mathlib.Order.Basic
import Mathlib.Order.Nat

/-!
# Files behind links

A tree of names in which a name can be a link to another path, and two names can lead to one file.  A path
has a place, where the links among its directories have been followed already; reading and writing also
follow the links that stand at the place itself, removing takes away what stands there.
-/

namespace LinkedFiles

open List Option

/-- What stands at a place. -/
inductive Entry (ν : Type*) where
  | directory
  | file (identity : ℕ)
  | link (target : List ν)

/-- Why an operation fails. -/
inductive Code where
  | noEntry
  | exists_
  | notDirectory
  | isDirectory
  | loop
deriving DecidableEq

/-- Files by their identities, and the names that lead to them. -/
structure Files (ν α : Type*) where
  /-- The path with the links among its directories followed. -/
  place : List ν → List ν
  entries : List ν → Option (Entry ν)
  contents : ℕ → α
  next : ℕ
  file_lt : ∀ p i, entries p = some (.file i) → i < next

namespace Files

variable {ν α : Type*}

/-! ## Following links -/

def follow (t : Files ν α) : ℕ → List ν → Option (List ν)
  | 0, _ => none
  | n + 1, p =>
    match t.entries p with
    | some (.link target) => t.follow n (t.place target)
    | some .directory => some p
    | some (.file _) => some p
    | none => some p

def chain (t : Files ν α) : ℕ → List ν → List (List ν)
  | 0, _ => []
  | n + 1, p =>
    p ::
      match t.entries p with
      | some (.link target) => t.chain n (t.place target)
      | some .directory => []
      | some (.file _) => []
      | none => []

/-- At most forty links are followed. -/
def limit : ℕ := 41

def target? (t : Files ν α) (p : List ν) : Option (List ν) := t.follow limit (t.place p)

def way (t : Files ν α) (p : List ν) : List (List ν) := t.chain limit (t.place p)

/-- What a path leads to. -/
def stat (t : Files ν α) (p : List ν) : Except Code (Entry ν) :=
  match t.target? p with
  | none => .error .loop
  | some q =>
    match t.entries q with
    | none => .error .noEntry
    | some entry => .ok entry

def lstat (t : Files ν α) (p : List ν) : Except Code (Entry ν) :=
  match t.entries (t.place p) with
  | none => .error .noEntry
  | some entry => .ok entry

def identity? (t : Files ν α) (p : List ν) : Option ℕ :=
  match t.stat p with
  | .ok (.file i) => some i
  | .ok .directory => none
  | .ok (.link _) => none
  | .error _ => none

def readFile (t : Files ν α) (p : List ν) : Except Code α :=
  match t.stat p with
  | .error code => .error code
  | .ok .directory => .error .isDirectory
  | .ok (.link _) => .error .loop
  | .ok (.file i) => .ok (t.contents i)

/-! ## Changing files -/

section Changes

variable [DecidableEq ν]

def setContent (t : Files ν α) (i : ℕ) (content : α) : Files ν α :=
  { t with contents := fun j => if j = i then content else t.contents j }

def createAt (t : Files ν α) (p : List ν) (content : α) : Files ν α where
  place := t.place
  entries := fun q => if q = p then some (.file t.next) else t.entries q
  contents := fun j => if j = t.next then content else t.contents j
  next := t.next + 1
  file_lt := fun q i h => by
    split_ifs at h
    · cases h
      exact Nat.lt_succ_self _
    · exact (t.file_lt q i h).trans (Nat.lt_succ_self _)

def createDirectoryAt (t : Files ν α) (p : List ν) : Files ν α where
  place := t.place
  entries := fun q => if q = p then some .directory else t.entries q
  contents := t.contents
  next := t.next
  file_lt := fun q i h => by
    split_ifs at h
    · cases h
    · exact t.file_lt q i h

/-- Nothing stands at a place any more. -/
def removeAt (t : Files ν α) (p : List ν) : Files ν α where
  place := t.place
  entries := fun q => if q = p then none else t.entries q
  contents := t.contents
  next := t.next
  file_lt := fun q i h => by
    split_ifs at h
    exact t.file_lt q i h

def create (t : Files ν α) (p : List ν) (content : α) : Except Code (Files ν α) :=
  match t.entries p.dropLast with
  | some .directory => .ok (t.createAt p content)
  | some (.file _) => .error .notDirectory
  | some (.link _) => .error .notDirectory
  | none => .error .noEntry

def writeFile (t : Files ν α) (p : List ν) (content : α) : Except Code (Files ν α) :=
  match t.target? p with
  | none => .error .loop
  | some q =>
    match t.entries q with
    | none => t.create q content
    | some .directory => .error .isDirectory
    | some (.link _) => .error .loop
    | some (.file i) => .ok (t.setContent i content)

/-- `writeFile` with the flag `wx`. -/
def writeNew (t : Files ν α) (p : List ν) (content : α) : Except Code (Files ν α) :=
  match t.entries (t.place p) with
  | none => t.create (t.place p) content
  | some _ => .error .exists_

def rm (t : Files ν α) (p : List ν) : Except Code (Files ν α) :=
  match t.entries (t.place p) with
  | none => .error .noEntry
  | some .directory => .error .isDirectory
  | some (.file _) => .ok (t.removeAt (t.place p))
  | some (.link _) => .ok (t.removeAt (t.place p))

def makeDirectory (t : Files ν α) (p : List ν) : Except Code (Files ν α) :=
  match t.stat p with
  | .ok .directory => .ok t
  | .ok (.file _) => .error .notDirectory
  | .ok (.link _) => .error .loop
  | .error code =>
    match t.entries (t.place p) with
    | none => .ok (t.createDirectoryAt (t.place p))
    | some _ => .error code

def mkdir (t : Files ν α) (p : List ν) : Except Code (Files ν α) := p.inits.foldlM makeDirectory t

end Changes

/-! ## What a path leads over -/

variable {t t' t'' : Files ν α} {p q : List ν} {n : ℕ}

attribute [local simp] follow chain

lemma follow_mem_chain (h : t.follow n p = some q) : q ∈ t.chain n p ∧ ∀ target, t.entries q ≠ some (.link target) := by
  induction n generalizing p with
  | zero => cases h
  | succ _ ih =>
    rw [follow] at h
    rw [chain]
    cases hentry : t.entries p with
    | none =>
      rw [hentry] at h
      obtain rfl := some.inj h
      simp [hentry]
    | some entry =>
      rw [hentry] at h
      cases entry with
      | link =>
        obtain ⟨hmem, hlink⟩ := ih h
        exact ⟨mem_cons_of_mem _ hmem, hlink⟩
      | directory | file =>
        obtain rfl := some.inj h
        simp [hentry]

lemma entries_ne_none_of_mem_chain (h : t.follow n p = some q) (hentry : t.entries q ≠ none) :
    ∀ place ∈ t.chain n p, t.entries place ≠ none := by
  induction n generalizing p with
  | zero => cases h
  | succ _ ih =>
    intro place hplace
    rw [follow] at h
    rw [chain] at hplace
    cases hp : t.entries p with
    | none =>
      rw [hp] at h
      obtain rfl := some.inj h
      exact absurd hp hentry
    | some entry =>
      rw [hp] at h hplace
      rcases mem_cons.mp hplace with rfl | hplace
      · simp [hp]
      · cases entry with
        | link => exact ih h place hplace
        | directory | file => exact absurd hplace not_mem_nil

/-- Links that stand as they stood lead to where they led. -/
lemma follow_congr (hplace : t'.place = t.place) (h : ∀ place ∈ t.chain n p, t'.entries place = t.entries place) :
    t'.follow n p = t.follow n p := by
  induction n generalizing p with
  | zero => rfl
  | succ _ ih =>
    rw [chain] at h
    have hp : t'.entries p = t.entries p := h p mem_cons_self
    rw [follow, follow, hp]
    cases hentry : t.entries p with
    | none => rfl
    | some entry =>
      cases entry with
      | link =>
        rw [hentry] at h
        rw [hplace]
        exact ih fun place hmem => h place (mem_cons_of_mem p hmem)
      | directory | file => rfl

variable {i : ℕ}

lemma target_of_identity (h : t.identity? p = some i) :
    ∃ q, t.target? p = some q ∧ t.entries q = some (.file i) := by
  unfold identity? stat at h
  cases htarget : t.target? p with
  | none => simp [htarget] at h
  | some q =>
    refine ⟨q, rfl, ?_⟩
    rw [htarget] at h
    dsimp only at h
    cases hentry : t.entries q with
    | none => simp [hentry] at h
    | some entry =>
      rw [hentry] at h
      cases entry with
      | directory | link => cases h
      | file =>
        obtain rfl := some.inj h
        rfl

lemma identity_of_target (htarget : t.target? p = some q) (hentry : t.entries q = some (.file i)) :
    t.identity? p = some i := by
  simp [identity?, stat, htarget, hentry]

lemma entries_ne_none_of_mem_way (h : t.identity? p = some i) : ∀ place ∈ t.way p, t.entries place ≠ none := by
  obtain ⟨_, htarget, hentry⟩ := target_of_identity h
  exact entries_ne_none_of_mem_chain htarget (by simp [hentry])

lemma identity_of_readFile {content : α} (h : t.readFile p = .ok content) :
    ∃ i, t.identity? p = some i ∧ t.contents i = content := by
  unfold readFile at h
  unfold identity?
  cases hstat : t.stat p with
  | error =>
    rw [hstat] at h
    cases h
  | ok entry =>
    rw [hstat] at h
    cases entry with
    | directory | link => cases h
    | file i => exact ⟨i, rfl, Except.ok.inj h⟩

/-! ## Later states -/

structure Later (t t' : Files ν α) : Prop where
  place_eq : t'.place = t.place
  links : ∀ p target, t'.entries p = some (.link target) → t.entries p = some (.link target)
  files : ∀ p i, t'.entries p = some (.file i) → i < t.next → t.entries p = some (.file i)
  next_le : t.next ≤ t'.next

lemma Later.refl (t : Files ν α) : Later t t :=
  ⟨rfl, fun _ _ h => h, fun _ _ h _ => h, le_rfl⟩

lemma Later.trans (h : Later t t') (h' : Later t' t'') : Later t t'' where
  place_eq := h'.place_eq.trans h.place_eq
  links := fun p target hp => h.links p target (h'.links p target hp)
  files := fun p i hp hi => h.files p i (h'.files p i hp (hi.trans_le h.next_le)) hi
  next_le := h.next_le.trans h'.next_le

lemma Later.chain_subset (h : Later t t') : t'.chain n p ⊆ t.chain n p := by
  induction n generalizing p with
  | zero => exact Subset.refl _
  | succ _ ih =>
    intro place hplace
    rw [chain] at hplace ⊢
    rcases mem_cons.mp hplace with rfl | hplace
    · exact mem_cons_self
    · cases hentry : t'.entries p with
      | none =>
        rw [hentry] at hplace
        exact absurd hplace not_mem_nil
      | some entry =>
        rw [hentry] at hplace
        cases entry with
        | link target =>
          rw [h.links p target hentry]
          rw [h.place_eq] at hplace
          exact mem_cons_of_mem p (ih hplace)
        | directory | file => exact absurd hplace not_mem_nil

lemma Later.follow_eq (h : Later t t') (hfollow : t'.follow n p = some q) (hentry : t'.entries q = some (.file i))
    (hi : i < t.next) : t.follow n p = some q := by
  induction n generalizing p with
  | zero => cases hfollow
  | succ _ ih =>
    rw [follow] at hfollow ⊢
    cases hp : t'.entries p with
    | none =>
      rw [hp] at hfollow
      obtain rfl := some.inj hfollow
      rw [hp] at hentry
      cases hentry
    | some entry =>
      rw [hp] at hfollow
      cases entry with
      | link target =>
        rw [h.links p target hp]
        rw [h.place_eq] at hfollow
        exact ih hfollow
      | directory =>
        obtain rfl := some.inj hfollow
        rw [hp] at hentry
        cases hentry
      | file j =>
        obtain rfl := some.inj hfollow
        obtain rfl : j = i := by
          rw [hp] at hentry
          cases hentry
          rfl
        rw [h.files p j hp hi]

/-- A path leads to a file that is not new only if it led to it before. -/
lemma Later.identity_eq (h : Later t t') (hidentity : t'.identity? p = some i) (hi : i < t.next) :
    t.identity? p = some i := by
  obtain ⟨q, htarget, hentry⟩ := target_of_identity hidentity
  have htarget' : t.target? p = some q := by
    unfold target? at htarget ⊢
    rw [h.place_eq] at htarget
    exact h.follow_eq htarget hentry hi
  exact identity_of_target htarget' (h.files q i hentry hi)

lemma identity_lt (h : t.identity? p = some i) : i < t.next := by
  obtain ⟨q, -, hentry⟩ := target_of_identity h
  exact t.file_lt q i hentry

/-! ## Reading what was there -/

structure Keeps (t t' : Files ν α) (p : List ν) : Prop where
  entries_eq : ∀ place ∈ t.way p, t'.entries place = t.entries place
  contents_eq : ∀ i, t.identity? p = some i → t'.contents i = t.contents i

lemma Keeps.refl (t : Files ν α) (p : List ν) : Keeps t t p := ⟨fun _ _ => rfl, fun _ _ => rfl⟩

/-- A path that is kept leads to what it led to. -/
lemma Keeps.stat_eq (h : Keeps t t' p) (hlater : Later t t') : t'.stat p = t.stat p := by
  have htarget : t'.target? p = t.target? p := by
    unfold target?
    rw [hlater.place_eq]
    exact follow_congr hlater.place_eq h.entries_eq
  unfold stat
  rw [htarget]
  cases hq : t.target? p with
  | none => rfl
  | some q =>
    have hentry : t'.entries q = t.entries q := h.entries_eq q (follow_mem_chain hq).1
    dsimp only
    rw [hentry]

lemma Keeps.readFile_eq (h : Keeps t t' p) (hlater : Later t t') : t'.readFile p = t.readFile p := by
  unfold readFile
  rw [h.stat_eq hlater]
  cases hstat : t.stat p with
  | error => rfl
  | ok entry =>
    cases entry with
    | directory | link => rfl
    | file i =>
      have hidentity : t.identity? p = some i := by simp [identity?, hstat]
      dsimp only
      rw [h.contents_eq i hidentity]

/-! ## What the operations do -/

section Operations

variable [DecidableEq ν] {content : α} {i : ℕ}

/-- With a new file no link is new, and no file stands where it did not. -/
lemma later_createAt : Later t (t.createAt q content) where
  place_eq := rfl
  links := fun p target hp => by
    unfold createAt at hp
    dsimp only at hp
    split_ifs at hp
    · cases hp
    · exact hp
  files := fun p i hp hi => by
    unfold createAt at hp
    dsimp only at hp
    split_ifs at hp with hpq
    · obtain rfl : t.next = i := by
        cases hp
        rfl
      exact absurd hi (Nat.lt_irrefl _)
    · exact hp
  next_le := Nat.le_succ _

/-- A path that leads to a file leads over no place where nothing stands. -/
lemma Keeps.createAt (h : Keeps t t' p) (hlater : Later t t') (hidentity : t.identity? p = some i)
    (hnone : t'.entries q = none) : Keeps t (t'.createAt q content) p where
  entries_eq := fun place hplace => by
    have hentry := h.entries_eq place hplace
    have hne : place ≠ q := by
      rintro rfl
      rw [hnone] at hentry
      exact entries_ne_none_of_mem_way hidentity place hplace hentry.symm
    simp [Files.createAt, hne, hentry]
  contents_eq := fun j hj => by
    have hlt : j < t'.next := (identity_lt hj).trans_le hlater.next_le
    simp [Files.createAt, hlt.ne, h.contents_eq j hj]

lemma create_eq (h : t.create q content = .ok t') : t' = t.createAt q content := by
  unfold create at h
  split at h <;> cases h
  rfl

lemma writeFile_cases (h : t.writeFile p content = .ok t') :
    (∃ q, t.target? p = some q ∧ t.entries q = none ∧ t' = t.createAt q content) ∨
      ∃ i, t.identity? p = some i ∧ t' = t.setContent i content := by
  unfold writeFile at h
  split at h
  · cases h
  · rename_i q htarget
    split at h
    · rename_i hnone
      exact Or.inl ⟨q, htarget, hnone, create_eq h⟩
    · cases h
    · cases h
    · rename_i i hentry
      cases h
      exact Or.inr ⟨i, identity_of_target htarget hentry, rfl⟩

omit [DecidableEq ν] in
lemma later_setContent : Later t (t.setContent i content) :=
  ⟨rfl, fun _ _ h => h, fun _ _ h _ => h, le_rfl⟩

lemma later_writeFile (h : t.writeFile p content = .ok t') : Later t t' := by
  obtain ⟨_, -, -, rfl⟩ | ⟨_, -, rfl⟩ := writeFile_cases h
  · exact later_createAt
  · exact later_setContent

lemma Keeps.writeFile (h : Keeps t t' p) (hlater : Later t t') (hidentity : t.identity? p = some i)
    (hwrite : t'.writeFile q content = .ok t'') (hother : t.identity? q ≠ some i) : Keeps t t'' p := by
  obtain ⟨_, -, hnone, rfl⟩ | ⟨j, hj, rfl⟩ := writeFile_cases hwrite
  · exact h.createAt hlater hidentity hnone
  · refine ⟨h.entries_eq, fun k hk => ?_⟩
    obtain rfl : i = k := some.inj (hidentity.symm.trans hk)
    have hne : i ≠ j := by
      rintro rfl
      exact hother (hlater.identity_eq hj (identity_lt hidentity))
    simp [setContent, hne, h.contents_eq i hk]

lemma writeNew_eq (h : t.writeNew p content = .ok t') :
    t.entries (t.place p) = none ∧ t' = t.createAt (t.place p) content := by
  unfold writeNew at h
  split at h
  · rename_i hnone
    exact ⟨hnone, create_eq h⟩
  · cases h

lemma later_writeNew (h : t.writeNew p content = .ok t') : Later t t' := by
  obtain ⟨-, rfl⟩ := writeNew_eq h
  exact later_createAt

lemma Keeps.writeNew (h : Keeps t t' p) (hlater : Later t t') (hidentity : t.identity? p = some i)
    (hwrite : t'.writeNew q content = .ok t'') : Keeps t t'' p := by
  obtain ⟨hnone, rfl⟩ := writeNew_eq hwrite
  exact h.createAt hlater hidentity hnone

lemma rm_eq (h : t.rm p = .ok t') : t' = t.removeAt (t.place p) := by
  unfold rm at h
  split at h <;> cases h
  all_goals rfl

lemma later_rm (h : t.rm p = .ok t') : Later t t' := by
  obtain rfl := rm_eq h
  refine ⟨rfl, fun q target hq => ?_, fun q i hq _ => ?_, le_rfl⟩
  · unfold removeAt at hq
    dsimp only at hq
    split_ifs at hq
    exact hq
  · unfold removeAt at hq
    dsimp only at hq
    split_ifs at hq
    exact hq

lemma Keeps.rm (h : Keeps t t' p) (hlater : Later t t') (hrm : t'.rm q = .ok t'') (hway : t.place q ∉ t.way p) :
    Keeps t t'' p := by
  obtain rfl := rm_eq hrm
  refine ⟨fun place hplace => ?_, h.contents_eq⟩
  have hne : place ≠ t'.place q := by
    rintro rfl
    rw [hlater.place_eq] at hplace
    exact hway hplace
  simp [removeAt, hne, h.entries_eq place hplace]

lemma makeDirectory_cases (h : t.makeDirectory q = .ok t') :
    t' = t ∨ (t.entries (t.place q) = none ∧ t' = t.createDirectoryAt (t.place q)) := by
  unfold makeDirectory at h
  split at h
  · cases h
    exact Or.inl rfl
  · cases h
  · cases h
  · split at h
    · rename_i hnone
      cases h
      exact Or.inr ⟨hnone, rfl⟩
    · cases h

lemma later_makeDirectory (h : t.makeDirectory q = .ok t') : Later t t' := by
  obtain rfl | ⟨-, rfl⟩ := makeDirectory_cases h
  · exact Later.refl _
  · refine ⟨rfl, fun p target hp => ?_, fun p i hp _ => ?_, le_rfl⟩
    · unfold createDirectoryAt at hp
      dsimp only at hp
      split_ifs at hp
      · cases hp
      · exact hp
    · unfold createDirectoryAt at hp
      dsimp only at hp
      split_ifs at hp
      · cases hp
      · exact hp

lemma Keeps.makeDirectory (h : Keeps t t' p) (hidentity : t.identity? p = some i)
    (hmake : t'.makeDirectory q = .ok t'') : Keeps t t'' p := by
  obtain rfl | ⟨hnone, rfl⟩ := makeDirectory_cases hmake
  · exact h
  · refine ⟨fun place hplace => ?_, h.contents_eq⟩
    have hentry := h.entries_eq place hplace
    have hne : place ≠ t'.place q := by
      rintro rfl
      rw [hnone] at hentry
      exact entries_ne_none_of_mem_way hidentity _ hplace hentry.symm
    simp [createDirectoryAt, hne, hentry]

lemma later_and_keeps_mkdir (hmkdir : t'.mkdir q = .ok t'') :
    Later t' t'' ∧ ∀ {t : Files ν α} {p : List ν} {i : ℕ}, Keeps t t' p → t.identity? p = some i → Keeps t t'' p := by
  unfold mkdir at hmkdir
  generalize q.inits = dirs at hmkdir
  induction dirs generalizing t' with
  | nil =>
    cases hmkdir
    exact ⟨Later.refl _, fun h _ => h⟩
  | cons dir _ ih =>
    rw [foldlM_cons] at hmkdir
    cases hdir : t'.makeDirectory dir with
    | error =>
      rw [hdir] at hmkdir
      cases hmkdir
    | ok =>
      rw [hdir] at hmkdir
      obtain ⟨hlater, hkeeps⟩ := ih hmkdir
      refine ⟨(later_makeDirectory hdir).trans hlater, fun h hidentity => ?_⟩
      exact hkeeps (h.makeDirectory hidentity hdir) hidentity

end Operations

end Files

end LinkedFiles
