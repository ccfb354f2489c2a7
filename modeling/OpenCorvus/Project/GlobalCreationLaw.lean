import OpenCorvus.Project.GlobalCreationReplay

/-!
# A global creation request has one outcome

Whatever the callers do, in whatever order and wherever they crash, the tables keep their shape and rows only grow.
Hence an allocation is bound to one Project and ends in one way; what a materialization returns is this Project,
because it reads the binding again at the end.
-/

namespace OpenCorvus.Project

open ExecutableSystem Interleaving Json Transaction UniqueIndex List Option
open EcmaScript (trim)

/-! ## What the callers rely on -/

section World

variable {θ : Type}

structure Tables (s : CreationWorld θ) : Prop where
  allocations : AllocationTable s.db.allocations
  projects : PrimaryKey ProjectRow.id s.db.projects

def Known (s : CreationWorld θ) (id generation : String) : Prop :=
  Occurs s.db.projects id generation ∨ (id, generation) ∈ s.deletions

structure WorldGrew (s s' : CreationWorld θ) : Prop where
  allocations : TableGrew s.db.allocations s'.db.allocations
  known : ∀ id generation, Known s id generation → Known s' id generation
  deletions : ∀ deleted ∈ s.deletions, deleted ∈ s'.deletions

open WorldGrew

variable {s s' s'' : CreationWorld θ}

lemma WorldGrew.refl (s : CreationWorld θ) : WorldGrew s s := ⟨TableGrew.refl _, fun _ _ h => h, fun _ h => h⟩

open WorldGrew

lemma WorldGrew.trans (h : WorldGrew s s') (h' : WorldGrew s' s'') : WorldGrew s s'' :=
  ⟨h.allocations.trans h'.allocations, fun id generation hknown => h'.known id generation (h.known id generation hknown),
    fun deleted hdeleted => h'.deletions deleted (h.deletions deleted hdeleted)⟩

lemma worldGrew_of_projects (hgrew : TableGrew s.db.allocations s'.db.allocations) (hdeletions : s'.deletions = s.deletions)
    (hprojects : ∀ project ∈ s.db.projects, Occurs s'.db.projects project.id project.generation) : WorldGrew s s' := by
  refine ⟨hgrew, fun id generation hknown => ?_, fun deleted hdeleted => hdeletions ▸ hdeleted⟩
  rcases hknown with ⟨project, hproject, rfl, rfl⟩ | hdeleted
  · exact .inl (hprojects project hproject)
  · exact .inr (hdeletions ▸ hdeleted)

/-! ## Calls -/

variable {choice : CreationChoice}

/-- A transaction raises and changes nothing, or it answers. -/
lemma transact_cases {β : Type} {result : Except CreationError (CreationDatabase × β)}
    {reply : Except CreationError β} (h : transact choice s result = (reply, s')) :
    (s' = s ∧ ∃ refused, reply = .error refused) ∨
      ∃ db value, result = .ok (db, value) ∧ reply = .ok value ∧ s' = { s with db } := by
  unfold transact at h
  split at h
  · obtain ⟨rfl, rfl⟩ := Prod.mk.inj h
    exact .inl ⟨rfl, _, rfl⟩
  · split at h
    · next db value =>
      obtain ⟨rfl, rfl⟩ := Prod.mk.inj h
      exact .inr ⟨db, value, rfl, rfl, rfl⟩
    · obtain ⟨rfl, rfl⟩ := Prod.mk.inj h
      exact .inl ⟨rfl, _, rfl⟩

/-- A transaction that changes nothing. -/
lemma transact_same {β : Type} (hchoice : choice.failure = none) (value : β) :
    transact choice s (.ok (s.db, value)) = (.ok value, s) := by
  rw [transact, hchoice]

lemma transact_error {β : Type} (choice : CreationChoice) (s : CreationWorld θ) (refused : CreationError) :
    ∃ raised, transact (β := β) choice s (.error refused) = (.error raised, s) := by
  unfold transact
  cases choice.failure <;> exact ⟨_, rfl⟩

/-- A call that may fail does nothing then. -/
lemma attempt_cases {β : Type} {value : β} {reply : Except CreationError β}
    (h : attempt choice s value s'' = (reply, s')) :
    (s' = s ∧ ∃ refused, reply = .error refused) ∨ (s' = s'' ∧ reply = .ok value) := by
  unfold attempt at h
  split at h
  · obtain ⟨rfl, rfl⟩ := Prod.mk.inj h
    exact .inl ⟨rfl, _, rfl⟩
  · obtain ⟨rfl, rfl⟩ := Prod.mk.inj h
    exact .inr ⟨rfl, rfl⟩

lemma tables_of_same (h : Tables s) (hdb : s'.db = s.db) (hdeletions : s'.deletions = s.deletions) :
    Tables s' ∧ WorldGrew s s' := by
  refine ⟨⟨hdb ▸ h.allocations, hdb ▸ h.projects⟩, worldGrew_of_projects (hdb ▸ TableGrew.refl _) hdeletions ?_⟩
  exact fun project hproject => ⟨project, hdb ▸ hproject, rfl, rfl⟩

lemma tables_of_allocations (h : Tables s) {allocations : List GlobalCreationAllocation} {targets : Targets}
    (htable : AllocationTable allocations) (hgrew : TableGrew s.db.allocations allocations) :
    Tables { s with db := { s.db with allocations, targets } } ∧
      WorldGrew s { s with db := { s.db with allocations, targets } } :=
  ⟨⟨htable, h.projects⟩, worldGrew_of_projects hgrew rfl fun project hproject => ⟨project, hproject, rfl, rfl⟩⟩

lemma applyChange_grew {made : Change} {reply : Except CreationError Unit} (h : Tables s)
    (hchange : applyChange choice s made = (reply, s')) : Tables s' ∧ WorldGrew s s' := by
  have hrefl : Tables s ∧ WorldGrew s s := ⟨h, refl s⟩
  have hattempt : ∀ s'', attempt choice s () s'' = (reply, s') → (Tables s'' ∧ WorldGrew s s'') →
      Tables s' ∧ WorldGrew s s' := by
    intro s'' heq hgrew
    rcases attempt_cases heq with ⟨rfl, -⟩ | ⟨rfl, -⟩
    · exact hrefl
    · exact hgrew
  cases made with
  | insertProject =>
    simp only [applyChange] at hchange
    split at hchange
    · obtain ⟨-, rfl⟩ := Prod.mk.inj hchange
      exact hrefl
    · next hfresh =>
      refine hattempt _ hchange ⟨⟨h.allocations, h.projects.concat fun present hpresent heq => ?_⟩,
        worldGrew_of_projects (TableGrew.refl _) rfl fun project hproject => ?_⟩
      · exact hfresh ⟨present, hpresent, heq⟩
      · exact ⟨project, mem_append_left _ hproject, rfl, rfl⟩
  | updateProject =>
    simp only [applyChange] at hchange
    split at hchange
    · obtain ⟨-, rfl⟩ := Prod.mk.inj hchange
      exact hrefl
    · next hsame =>
      refine hattempt _ hchange ⟨⟨h.allocations, h.projects.map fun present => ?_⟩,
        worldGrew_of_projects (TableGrew.refl _) rfl fun project hproject => ⟨_, List.mem_map_of_mem hproject, ?_⟩⟩
      · split
        · next heq => exact heq.symm
        · rfl
      · split
        · next heq =>
          refine ⟨heq.symm, ?_⟩
          by_contra hne
          exact hsame ⟨project, hproject, heq, fun hgeneration => hne hgeneration.symm⟩
        · exact ⟨rfl, rfl⟩
  | deleteProject id =>
    simp only [applyChange] at hchange
    split at hchange
    · next db generations hdelete =>
      obtain ⟨htable, hgrew, hkeys, hprojects⟩ := deleteProject_eq_ok h.allocations h.projects hdelete
      refine hattempt _ hchange ⟨⟨htable, hkeys⟩, hgrew, fun id generation hknown => ?_,
        fun deleted hdeleted => mem_append_left _ hdeleted⟩
      rcases hknown with ⟨project, hproject, rfl, rfl⟩ | hdeleted
      · rcases hprojects project hproject with hoccurs | hdeleted
        · exact .inl hoccurs
        · exact .inr (mem_append_right _ hdeleted)
      · exact .inr (mem_append_left _ hdeleted)
    · obtain ⟨-, rfl⟩ := Prod.mk.inj hchange
      exact hrefl
  | writeTargets =>
    exact hattempt _ hchange (tables_of_allocations h h.allocations (TableGrew.refl _))
  | makeDirectory | removeDirectory => exact hattempt _ hchange (tables_of_same h rfl rfl)

end World

section Callers

variable {θ : Type} [DecidableEq θ] {host : Host} {authority : TargetAuthority} {t : θ} {c : CreationCommand}
  {choice : CreationChoice} {s s' : CreationWorld θ}

theorem performCreation_grew {reply : c.Reply} (h : Tables s)
    (hperform : performCreation host authority t c choice s = some (reply, s')) : Tables s' ∧ WorldGrew s s' := by
  have hrefl : Tables s ∧ WorldGrew s s := ⟨h, WorldGrew.refl s⟩
  cases c with
  | find | readBound =>
    rcases transact_cases (some.inj hperform) with ⟨rfl, -⟩ | ⟨_, _, hresult, -, rfl⟩
    · exact hrefl
    · obtain ⟨_, -, hrow⟩ := map_eq_ok.mp hresult
      obtain ⟨rfl, -⟩ := Prod.mk.inj hrow
      exact hrefl
  | reserve =>
    rcases transact_cases (some.inj hperform) with ⟨rfl, -⟩ | ⟨_, _, hresult, -, rfl⟩
    · exact hrefl
    · obtain ⟨⟨_, _⟩, hreserve, hrow⟩ := map_eq_ok.mp hresult
      obtain ⟨rfl, -⟩ := Prod.mk.inj hrow
      obtain ⟨htable, hgrew, -⟩ := reserve_eq_ok h.allocations hreserve
      exact tables_of_allocations h htable hgrew
  | accept =>
    rcases transact_cases (some.inj hperform) with ⟨rfl, -⟩ | ⟨_, _, hresult, -, rfl⟩
    · exact hrefl
    · obtain ⟨_, haccept, hrow⟩ := map_eq_ok.mp hresult
      obtain ⟨rfl, -⟩ := Prod.mk.inj hrow
      obtain ⟨htable, hgrew, hprojects, -⟩ := acceptInTransaction_eq_ok h.allocations haccept
      refine ⟨⟨htable, hprojects ▸ h.projects⟩, worldGrew_of_projects hgrew rfl fun project hproject => ?_⟩
      exact ⟨project, hprojects ▸ hproject, rfl, rfl⟩
  | reject =>
    rcases transact_cases (some.inj hperform) with ⟨rfl, -⟩ | ⟨_, _, hresult, -, rfl⟩
    · exact hrefl
    · obtain ⟨⟨_, _⟩, hreject, hrow⟩ := map_eq_ok.mp hresult
      obtain ⟨rfl, -⟩ := Prod.mk.inj hrow
      obtain ⟨htable, hgrew, -⟩ := reject_eq_ok h.allocations hreject
      exact tables_of_allocations h htable hgrew
  | lock =>
    simp only [performCreation] at hperform
    split at hperform
    · rcases attempt_cases (some.inj hperform) with ⟨rfl, -⟩ | ⟨rfl, -⟩
      · exact hrefl
      · exact tables_of_same h rfl rfl
    · cases hperform
  | unlock directory =>
    have hreleased : ∀ released : CreationWorld θ, released = (if s.locks directory = some t then
        { s with locks := Function.update s.locks directory none } else s) →
        released.db = s.db ∧ released.deletions = s.deletions := by
      rintro _ rfl
      split <;> exact ⟨rfl, rfl⟩
    obtain ⟨hdb, hdeletions⟩ := hreleased _ rfl
    rcases attempt_cases (some.inj hperform) with ⟨rfl, -⟩ | ⟨rfl, -⟩
    · exact tables_of_same h hdb hdeletions
    · exact tables_of_same h hdb hdeletions
  | mkdirs | remove =>
    rcases attempt_cases (some.inj hperform) with ⟨rfl, -⟩ | ⟨rfl, -⟩
    · exact hrefl
    · exact tables_of_same h rfl rfl
  | mkdir directory =>
    have hmade : makeDirectory choice s directory = (reply, s') := some.inj hperform
    unfold makeDirectory at hmade
    split at hmade
    · obtain ⟨-, rfl⟩ := Prod.mk.inj hmade
      exact hrefl
    · rcases attempt_cases hmade with ⟨rfl, -⟩ | ⟨rfl, -⟩
      · exact hrefl
      · exact tables_of_same h rfl rfl
  | isGitRepo =>
    obtain ⟨-, rfl⟩ := Prod.mk.inj (some.inj hperform)
    exact hrefl
  | effect | discover | acquire =>
    rcases attempt_cases (some.inj hperform) with ⟨rfl, -⟩ | ⟨rfl, -⟩ <;> exact hrefl
  | register =>
    rcases transact_cases (some.inj hperform) with ⟨rfl, -⟩ | ⟨_, _, hresult, -, rfl⟩
    · exact hrefl
    · obtain ⟨htable, hgrew, hkeys, hprojects, -⟩ := registerProject_eq_ok h.allocations h.projects hresult
      exact ⟨⟨htable, hkeys⟩, worldGrew_of_projects hgrew rfl hprojects⟩
  | change => exact applyChange_grew h (some.inj hperform)

/-! ## Answers -/

def BoundTo (allocation : AllocationInput) (created : CarryingProject) (s : CreationWorld θ) : Prop :=
  ∃ row ∈ s.db.allocations, row.id = allocation.id ∧ row.materializedProjectID = some created.project.id ∧
    ∃ generation, row.materializedProjectGeneration = some generation ∧
      (created.project.generation = generation ∨ (created.project.id, created.project.generation) ∈ s.deletions)

def Tells (s : CreationWorld θ) : CreationOperation → CreationAnswer → Prop
  | .find input, .found (some row) | .reserve input, .reserved row =>
    Answers input row ∧ ∃ row' ∈ s.db.allocations, Grew row row'
  | .accept input, .accepted => ∃ row ∈ s.db.allocations, row.id = input.allocationID ∧ AcceptedBy input row
  | .reject allocationID error, .rejection outcome => ∃ row ∈ s.db.allocations, row.id = allocationID ∧
      (outcome = .rejected → RejectedWith error row) ∧ (outcome = .accepted → row.acceptedTargetID.isSome)
  | .materialize allocation, .materialized created => BoundTo allocation created s
  | _, _ => True

/-! ## Programs -/

/-- What the callers rely on and guarantee: the tables keep their shape, and rows only grow. -/
def creationProtocol (host : Host) (authority : TargetAuthority) :
    Protocol (CreationWorld θ) θ CreationCommand CreationCommand.Reply CreationOperation where
  step t c s reply s' := ∃ choice, performCreation host authority t c choice s = some (reply, s')
  inv := Tables
  rely _ := WorldGrew
  guar _ _ := WorldGrew
  rely_refl _ := WorldGrew.refl
  rely_trans := WorldGrew.trans
  rely_of_guar _ _ h := h

/-- An assertion about the value of a program that returns. -/
def Yields {α : Type} (Q : α → CreationWorld θ → Prop) (result : Except CreationError α) (s : CreationWorld θ) : Prop :=
  ∀ value, result = .ok value → Q value s

/-- An assertion that lasts while rows grow. -/
def Lasting {α : Type} (Q : α → CreationWorld θ → Prop) : Prop := ∀ ⦃value s s'⦄, WorldGrew s s' → Q value s → Q value s'

section Programs

variable {α β : Type} {operation : CreationOperation} {Q : α → CreationWorld θ → Prop}

lemma Lasting.stable (hQ : Lasting Q) : (creationProtocol host authority).Stable t (Yields Q) :=
  fun _ _ _ hgrew _ h value hvalue => hQ hgrew (h value hvalue)

lemma wp_raise {refused : CreationError} :
    (creationProtocol host authority).wp t operation (.done (.error refused)) (Yields Q) s := by
  intro s' _ _ value hvalue
  cases hvalue

lemma wp_return (hQ : Lasting Q) {value : α} (h : Q value s) :
    (creationProtocol host authority).wp t operation (.done (.ok value)) (Yields Q) s := by
  intro s' hgrew _ found hfound
  obtain rfl := Except.ok.inj hfound
  exact hQ hgrew h

lemma wp_perform {c : CreationCommand} {next : c.Reply → Creation α}
    {post : Except CreationError α → CreationWorld θ → Prop}
    (h : ∀ s₁ s₂ choice reply, WorldGrew s s₁ → Tables s₁ →
      performCreation host authority t c choice s₁ = some (reply, s₂) → Tables s₂ → WorldGrew s₁ s₂ →
      (creationProtocol host authority).wp t operation (next reply) post s₂) :
    (creationProtocol host authority).wp t operation (.call c next) post s := by
  rintro s₁ hgrew hinv reply s₂ ⟨choice, hperform⟩
  obtain ⟨hinv', hgrew'⟩ := performCreation_grew hinv hperform
  exact ⟨hinv', hgrew', h s₁ s₂ choice reply hgrew hinv hperform hinv' hgrew'⟩

/-- Rows grow during every program. -/
lemma wp_grew (p : Creation α) {begun : CreationWorld θ} (hbegun : WorldGrew begun s) :
    (creationProtocol host authority).wp t operation p (fun _ s' => WorldGrew begun s') s := by
  induction p generalizing s with
  | done => exact fun s' hgrew _ => hbegun.trans hgrew
  | call _ _ ih =>
    exact wp_perform fun s₁ s₂ choice reply hgrew _ _ _ hgrew' => ih reply ((hbegun.trans hgrew).trans hgrew')

lemma wp_then {p : Creation β} {f : β → Creation α} (hQ : Lasting Q) (hinv : Tables s)
    (h : ∀ value s', WorldGrew s s' → Tables s' →
      (creationProtocol host authority).wp t operation (f value) (Yields Q) s') :
    (creationProtocol host authority).wp t operation (p >>= f) (Yields Q) s := by
  refine Protocol.wp_bind hQ.stable hinv ((wp_grew p (WorldGrew.refl s)).mono fun result s' hinv' hgrew => ?_)
  cases result with
  | ok value => exact h value s' hgrew hinv'
  | error => exact fun value hvalue => absurd hvalue (by simp)

lemma wp_seq {R : β → CreationWorld θ → Prop} {p : Creation β} {f : β → Creation α} (hQ : Lasting Q) (hinv : Tables s)
    (hp : (creationProtocol host authority).wp t operation p (Yields R) s)
    (h : ∀ value s', Tables s' → R value s' →
      (creationProtocol host authority).wp t operation (f value) (Yields Q) s') :
    (creationProtocol host authority).wp t operation (p >>= f) (Yields Q) s := by
  refine Protocol.wp_bind hQ.stable hinv (hp.mono fun result s' hinv' hvalue => ?_)
  cases result with
  | ok value => exact h value s' hinv' (hvalue value rfl)
  | error => exact fun value hvalue => absurd hvalue (by simp)

lemma wp_catch {p : Creation α} {f : CreationError → Creation α} (hQ : Lasting Q) (hinv : Tables s)
    (hp : (creationProtocol host authority).wp t operation p (Yields Q) s)
    (h : ∀ refused s', Tables s' → (creationProtocol host authority).wp t operation (f refused) (Yields Q) s') :
    (creationProtocol host authority).wp t operation (p.rescue f) (Yields Q) s := by
  refine Protocol.wp_rescue hQ.stable hinv (hp.mono fun result s' hinv' hvalue => ?_)
  cases result with
  | ok => exact hvalue
  | error refused => exact h refused s' hinv'

/-! ## Materialization -/

def Seen (project : ProjectRow) (s : CreationWorld θ) : Prop := Known s project.id project.generation

omit [DecidableEq θ] in
lemma lasting_seen : Lasting (θ := θ) Seen := fun _ _ _ hgrew h => hgrew.known _ _ h

variable {directory allocationID : String}

lemma wp_fromDirectory :
    (creationProtocol host authority).wp t operation (Creation.fromDirectory directory allocationID) (Yields Seen) s := by
  refine wp_perform fun s₁ s₂ choice found _ _ _ _ _ => ?_
  cases found with
  | error => exact wp_raise
  | ok =>
    refine wp_perform fun s₃ s₄ choice' registered _ hinv hperform hinv' _ => ?_
    rcases transact_cases (some.inj hperform) with ⟨-, _, rfl⟩ | ⟨_, project, hregister, rfl, rfl⟩
    · exact wp_raise
    · obtain ⟨-, -, -, -, hmem⟩ := registerProject_eq_ok hinv.allocations hinv.projects hregister
      change (creationProtocol host authority).wp t operation (Creation.effect .afterCommit >>= fun _ => pure project)
        (Yields Seen) _
      refine wp_then lasting_seen hinv' fun _ s' hgrew _ => wp_return lasting_seen (hgrew.known _ _ ?_)
      exact .inl ⟨project, hmem, rfl, rfl⟩

lemma wp_initGit :
    (creationProtocol host authority).wp t operation (Creation.initGit directory allocationID) (Yields Seen) s := by
  refine wp_perform fun s₁ s₂ choice holds _ _ _ hinv _ => ?_
  refine wp_then lasting_seen hinv fun _ s' _ hinv' => ?_
  refine wp_seq lasting_seen hinv' wp_fromDirectory fun project s₃ hinv₃ hseen => ?_
  exact wp_then lasting_seen hinv₃ fun _ ended hgrew _ => wp_return lasting_seen (hgrew.known _ _ hseen)

lemma wp_compensateCreation {cause : CreationError} (hinv : Tables s) :
    (creationProtocol host authority).wp t operation (Creation.compensateCreation directory cause)
      (Yields fun owner s => ∀ project ∈ owner, Seen project s) s := by
  have hlasting : Lasting (θ := θ) fun (owner : Option ProjectRow) s => ∀ project ∈ owner, Seen project s :=
    fun _ _ _ hgrew h project hproject => lasting_seen hgrew (h project hproject)
  refine wp_then hlasting hinv fun _ s' _ _ => wp_perform fun s₁ s₂ choice decided _ hinv₁ hperform hinv₂ _ => ?_
  rcases attempt_cases (some.inj hperform) with ⟨-, _, rfl⟩ | ⟨rfl, rfl⟩
  · exact wp_raise
  · have hdecision : ∀ project exact, decision choice s₂ = .owned project exact → project ∈ s₂.db.projects := by
      intro project exact h
      unfold decision at h
      split at h
      · next owner howner =>
        obtain ⟨rfl, -⟩ := Decision.owned.inj h
        obtain ⟨_, -, hfind⟩ := bind_eq_some_iff.mp howner
        exact mem_of_find?_eq_some hfind
      · cases h
    simp only [Creation.expect, Prog.bind_ok]
    cases hd : decision choice s₂ with
    | owned project exact =>
      refine wp_then hlasting hinv₂ fun _ s₃ hgrew _ => ?_
      by_cases hexact : exact = false
      · rw [if_pos hexact]
        exact wp_raise
      · rw [if_neg hexact]
        refine wp_return hlasting fun found hfound => ?_
        obtain rfl := some.inj hfound
        exact lasting_seen hgrew (.inl ⟨project, hdecision project exact hd, rfl, rfl⟩)
    | admitted =>
      refine wp_then hlasting hinv₂ fun _ s₃ _ hinv₃ => wp_then hlasting hinv₃ fun _ s₄ _ hinv₄ => ?_
      refine wp_perform fun s₅ s₆ choice' removed _ _ _ hinv₆ _ => ?_
      refine wp_then hlasting hinv₆ fun _ s₇ _ hinv₇ => wp_then hlasting hinv₇ fun _ s₈ _ hinv₈ =>
        wp_then hlasting hinv₈ fun _ s₉ _ hinv₉ => wp_then hlasting hinv₉ fun _ s₁₀ _ _ => ?_
      exact wp_return hlasting fun found hfound => (by simp at hfound)

def SeenCarrying (created : CarryingProject) (s : CreationWorld θ) : Prop := Seen created.project s

omit [DecidableEq θ] in
lemma lasting_seenCarrying : Lasting (θ := θ) SeenCarrying := fun _ _ _ hgrew h => lasting_seen hgrew h

lemma wp_create (hinv : Tables s) :
    (creationProtocol host authority).wp t operation (Creation.create host directory allocationID)
      (Yields SeenCarrying) s := by
  unfold Creation.create
  split
  · exact wp_raise
  · refine wp_then lasting_seenCarrying hinv fun _ s₁ _ hinv₁ => wp_catch lasting_seenCarrying hinv₁ ?_ ?_
    · refine wp_then lasting_seenCarrying hinv₁ fun _ s₂ _ hinv₂ =>
        wp_then lasting_seenCarrying hinv₂ fun _ s₃ _ hinv₃ => ?_
      exact wp_seq lasting_seenCarrying hinv₃ wp_initGit fun project s₄ _ hseen =>
        wp_return lasting_seenCarrying hseen
    · intro cause s₂ hinv₂
      have hlasting : Lasting (θ := θ) fun (owner : Option ProjectRow) s => ∀ project ∈ owner, Seen project s :=
        fun _ _ _ hgrew h project hproject => lasting_seen hgrew (h project hproject)
      refine wp_seq lasting_seenCarrying hinv₂
        (wp_catch hlasting hinv₂ (wp_compensateCreation hinv₂) fun _ _ _ => wp_raise) fun owner s₃ _ hseen => ?_
      cases owner with
      | none => exact wp_raise
      | some project => exact wp_return lasting_seenCarrying (hseen project rfl)

lemma wp_withProcessLock {run : Creation α} (hQ : Lasting Q)
    (h : ∀ s', Tables s' → (creationProtocol host authority).wp t operation run (Yields Q) s') :
    (creationProtocol host authority).wp t operation (Creation.withProcessLock directory run) (Yields Q) s := by
  refine wp_perform fun s₁ s₂ choice locked _ _ _ hinv₂ _ => wp_then hQ hinv₂ fun _ s₃ _ hinv₃ => ?_
  refine Protocol.wp_handle ((h s₃ hinv₃).mono fun result s₄ _ hresult => ?_) hinv₃
  refine wp_perform fun s₅ s₆ choice' released hgrew _ _ hinv₆ hgrew' => ?_
  cases result with
  | ok value =>
    exact wp_then hQ hinv₆ fun _ s₇ hgrew₇ _ =>
      wp_return hQ (hQ ((hgrew.trans hgrew').trans hgrew₇) (hresult value rfl))
  | error => exact wp_raise

end Programs

variable {allocation : AllocationInput}

lemma readBound_eq_ok {db : CreationDatabase} {bound : CarryingProject}
    (h : readBound db allocation = .ok (some bound)) :
    ∃ row ∈ db.allocations, row.id = allocation.id ∧ row.materializedProjectID = some bound.project.id ∧
      row.materializedProjectGeneration = some bound.project.generation ∧ bound.project ∈ db.projects := by
  obtain ⟨row, hfind, h⟩ := bind_eq_ok.mp h
  rw [getOrThrow_eq_ok] at hfind
  have hid : row.id = allocation.id := by simpa using find?_some hfind
  split at h
  · cases h
  · next projectID hproject =>
    obtain ⟨project, hfound, h⟩ := bind_eq_ok.mp h
    rw [getOrThrow_eq_ok] at hfound
    obtain ⟨hgeneration, hpure⟩ := throwWhen_bind_eq_ok.mp h
    obtain rfl := some.inj (pure_eq_ok.mp hpure)
    rw [not_not] at hgeneration
    have hprojectID : project.id = projectID := by simpa using find?_some hfound
    refine ⟨row, mem_of_find?_eq_some hfind, hid, ?_, hgeneration.symm, mem_of_find?_eq_some hfound⟩
    rw [(filter_eq_some_iff.mp hproject).1]
    exact congrArg some hprojectID.symm

omit [DecidableEq θ] in
lemma lasting_boundTo (allocation : AllocationInput) : Lasting (θ := θ) (BoundTo allocation) := by
  rintro _ _ _ hgrew ⟨row, hrow, hid, hproject, generation, hgeneration, hcreated⟩
  obtain ⟨row', hrow', hgrew'⟩ := hgrew.allocations row hrow
  obtain ⟨hproject', hgeneration'⟩ := hgrew'.binding_eq hproject
  exact ⟨row', hrow', hgrew'.id_eq.trans hid, hproject', generation, hgeneration'.trans hgeneration,
    hcreated.imp_right (hgrew.deletions _)⟩

lemma wp_materializeProject {operation : CreationOperation} :
    (creationProtocol host authority).wp t operation (Creation.materializeProject host allocation)
      (Yields (BoundTo allocation)) s := by
  have hlasting := lasting_boundTo (θ := θ) allocation
  refine wp_perform fun s₁ s₂ choice reply _ _ hperform hinv₂ _ => ?_
  rcases transact_cases (some.inj hperform) with ⟨-, refused, rfl⟩ | ⟨db, bound, hresult, rfl, rfl⟩
  · exact wp_raise
  · obtain ⟨bound', hread, heq⟩ := map_eq_ok.mp hresult
    obtain ⟨rfl, rfl⟩ := Prod.mk.inj heq
    cases bound' with
    | some =>
      obtain ⟨row, hrow, hid, hproject, hgeneration, -⟩ := readBound_eq_ok hread
      exact wp_return hlasting ⟨row, hrow, hid, hproject, _, hgeneration, .inl rfl⟩
    | none =>
      refine wp_then hlasting hinv₂ fun _ s₃ _ hinv₃ => ?_
      refine wp_seq hlasting hinv₃ (wp_withProcessLock lasting_seenCarrying fun s' hinv => wp_create hinv)
        fun created s₄ _ hseen => ?_
      refine wp_perform fun s₅ s₆ choice' reply' hgrew hinv₅ hperform' _ _ => ?_
      have hseen₅ : SeenCarrying created s₅ := lasting_seenCarrying hgrew hseen
      rcases transact_cases (some.inj hperform') with ⟨-, _, rfl⟩ | ⟨_, bound, hresult', rfl, rfl⟩
      · exact wp_raise
      · obtain ⟨bound', hread', heq'⟩ := map_eq_ok.mp hresult'
        obtain ⟨rfl, rfl⟩ := Prod.mk.inj heq'
        simp only [Creation.expect, Prog.handle]
        cases bound' with
        | none => exact wp_raise
        | some bound =>
          by_cases hsame : bound.project.id = created.project.id
          · rw [if_pos (by simpa using hsame)]
            obtain ⟨row, hrow, hid, hproject, hgeneration, hmem⟩ := readBound_eq_ok hread'
            refine wp_return hlasting ⟨row, hrow, hid, hsame ▸ hproject, _, hgeneration, ?_⟩
            -- The occurrence that the caller has seen is still there, or it was deleted.
            rcases hseen₅ with ⟨_, hpresent, hpresentID, hpresentGeneration⟩ | hdeleted
            · left
              rw [← hpresentGeneration, hinv₅.projects.eq_of_id hpresent hmem (hpresentID.trans hsame.symm)]
            · exact .inr hdeleted
          · rw [if_neg (by simpa using hsame)]
            exact wp_raise

/-! ## Every operation -/

def Posted (operation : CreationOperation) (_ : CreationWorld θ) (result : Except CreationError CreationAnswer)
    (s : CreationWorld θ) : Prop :=
  Yields (fun answer s => Tells s operation answer) result s

omit [DecidableEq θ] in
lemma lasting_tells (operation : CreationOperation) :
    Lasting (θ := θ) fun answer s => Tells s operation answer := by
  intro answer s s' hgrew h
  have hrow : ∀ row ∈ s.db.allocations, ∃ row' ∈ s'.db.allocations, Grew row row' := hgrew.allocations
  cases operation with
  | find =>
    cases answer with
    | found found =>
      cases found with
      | none => trivial
      | some =>
        obtain ⟨hanswers, row', hrow', hgrew'⟩ := h
        obtain ⟨row'', hrow'', hgrew''⟩ := hrow row' hrow'
        exact ⟨hanswers, row'', hrow'', hgrew'.trans hgrew''⟩
    | _ => trivial
  | reserve =>
    cases answer with
    | reserved =>
      obtain ⟨hanswers, row', hrow', hgrew'⟩ := h
      obtain ⟨row'', hrow'', hgrew''⟩ := hrow row' hrow'
      exact ⟨hanswers, row'', hrow'', hgrew'.trans hgrew''⟩
    | _ => trivial
  | accept =>
    cases answer with
    | accepted =>
      obtain ⟨row, hmem, hid, haccepted⟩ := h
      obtain ⟨row', hrow', hgrew'⟩ := hrow row hmem
      exact ⟨row', hrow', hgrew'.id_eq.trans hid, haccepted.grew hgrew'⟩
    | _ => trivial
  | reject =>
    cases answer with
    | rejection =>
      obtain ⟨row, hmem, hid, hrejected, haccepted⟩ := h
      obtain ⟨row', hrow', hgrew'⟩ := hrow row hmem
      refine ⟨row', hrow', hgrew'.id_eq.trans hid, fun hout => (hrejected hout).grew hgrew', fun hout => ?_⟩
      obtain ⟨targetID, htarget⟩ := isSome_iff_exists.mp (haccepted hout)
      have hkept := congrArg (fun columns => columns.2.1) (hgrew'.acceptance_eq htarget)
      exact isSome_iff_exists.mpr ⟨targetID, hkept.trans htarget⟩
    | _ => trivial
  | materialize allocation =>
    cases answer with
    | materialized => exact lasting_boundTo allocation hgrew h
    | _ => trivial
  | change => cases answer <;> trivial

theorem wp_code (operation : CreationOperation) (hinv : Tables s) :
    (creationProtocol host authority).wp t operation (operation.code host) (Posted operation s) s := by
  have hlasting := lasting_tells (θ := θ) operation
  cases operation with
  | find =>
    refine wp_perform fun s₁ s₂ choice reply _ hinv hperform _ _ => ?_
    rcases transact_cases (some.inj hperform) with ⟨-, _, rfl⟩ | ⟨_, row, hresult, rfl, rfl⟩
    · exact wp_raise
    · obtain ⟨found, hfind, heq⟩ := map_eq_ok.mp hresult
      obtain ⟨rfl, rfl⟩ := Prod.mk.inj heq
      refine wp_return hlasting ?_
      cases found with
      | none => trivial
      | some row =>
        obtain ⟨hmem, hanswers⟩ := find_eq_ok hinv.allocations hfind
        exact ⟨hanswers, row, hmem, Grew.refl row⟩
  | reserve =>
    refine wp_perform fun s₁ s₂ choice reply _ hinv hperform _ _ => ?_
    rcases transact_cases (some.inj hperform) with ⟨-, _, rfl⟩ | ⟨_, _, hresult, rfl, rfl⟩
    · exact wp_raise
    · obtain ⟨⟨_, reserved⟩, hreserve, heq⟩ := map_eq_ok.mp hresult
      obtain ⟨rfl, rfl⟩ := Prod.mk.inj heq
      obtain ⟨-, -, hmem, hanswers⟩ := reserve_eq_ok hinv.allocations hreserve
      exact wp_return hlasting ⟨hanswers, reserved, hmem, Grew.refl reserved⟩
  | accept =>
    refine wp_perform fun s₁ s₂ choice reply _ hinv hperform _ _ => ?_
    rcases transact_cases (some.inj hperform) with ⟨-, _, rfl⟩ | ⟨_, _, hresult, rfl, rfl⟩
    · exact wp_raise
    · obtain ⟨_, haccept, heq⟩ := map_eq_ok.mp hresult
      obtain ⟨rfl, -⟩ := Prod.mk.inj heq
      obtain ⟨-, -, -, row, hmem, hid, haccepted⟩ := acceptInTransaction_eq_ok hinv.allocations haccept
      exact wp_return hlasting ⟨row, hmem, hid, haccepted⟩
  | reject =>
    refine wp_perform fun s₁ s₂ choice reply _ hinv hperform _ _ => ?_
    rcases transact_cases (some.inj hperform) with ⟨-, _, rfl⟩ | ⟨_, _, hresult, rfl, rfl⟩
    · exact wp_raise
    · obtain ⟨⟨_, _⟩, hreject, heq⟩ := map_eq_ok.mp hresult
      obtain ⟨rfl, rfl⟩ := Prod.mk.inj heq
      obtain ⟨-, -, row, hmem, hid, houtcome⟩ := reject_eq_ok hinv.allocations hreject
      exact wp_return hlasting ⟨row, hmem, hid, houtcome⟩
  | materialize =>
    exact wp_seq hlasting hinv wp_materializeProject fun created s' _ hbound => wp_return hlasting hbound
  | change =>
    refine wp_perform fun s₁ s₂ choice reply _ _ _ _ _ => ?_
    cases reply with
    | error => exact wp_raise
    | ok => exact wp_return hlasting trivial

/-! ## Runs -/

section Runs

variable {host : Host} {authority : TargetAuthority}

lemma creationCrashed_grew {s : CreationWorld θ} (t : θ) (hinv : Tables s) :
    Tables (creationCrashed t s) ∧ WorldGrew s (creationCrashed t s) :=
  tables_of_same hinv rfl rfl

lemma creation_follows : Machine.Follows (creationProtocol (θ := θ) host authority) Posted (fun _ _ => True)
    (performCreation host authority) (CreationOperation.code host) creationCrashed where
  step hperform _ := ⟨_, hperform⟩
  code _ operation _ hinv := wp_code operation hinv
  crash_inv t _ hinv := (creationCrashed_grew t hinv).1
  crash_rely hinv _ := (creationCrashed_grew _ hinv).2

/-- What holds of the callers after every step: their programs are verified, and all that was answered is still
true. -/
structure Truthful (host : Host) (authority : TargetAuthority) (m : CreationCallers θ) : Prop where
  sound : Machine.Sound (creationProtocol host authority) Posted m
  told : ∀ r ∈ m.returned, ∀ answer, r.result = .ok answer → Tells m.shared r.operation answer

variable {m m' : CreationCallers θ} {event : Event θ CreationChoice CreationOperation}

lemma creationStep_grew (hinv : Tables m.shared) (hstep : creationStep host authority m event = some m') :
    WorldGrew m.shared m'.shared := by
  cases event with
  | begin =>
    simp only [creationStep, Machine.next] at hstep
    split at hstep
    · cases hstep
    · obtain rfl := some.inj hstep
      exact WorldGrew.refl _
  | step =>
    simp only [creationStep, Machine.next] at hstep
    split at hstep
    · obtain ⟨⟨_, _⟩, hperform, rfl⟩ := map_eq_some_iff.mp hstep
      exact (performCreation_grew hinv hperform).2
    · cases hstep
  | finish =>
    simp only [creationStep, Machine.next] at hstep
    split at hstep
    · obtain rfl := some.inj hstep
      exact WorldGrew.refl _
    · cases hstep
  | crash t =>
    obtain rfl := some.inj hstep
    exact (creationCrashed_grew t hinv).2

lemma returned_of_step (hstep : creationStep host authority m event = some m') :
    ∀ r ∈ m'.returned, r ∈ m.returned ∨ r.ended = m'.shared := by
  intro r hr
  cases event with
  | finish =>
    simp only [creationStep, Machine.next] at hstep
    split at hstep
    · obtain rfl := some.inj hstep
      rcases mem_concat.mp hr with hold | hnew
      · exact .inl hold
      · obtain rfl := hnew
        exact .inr rfl
    · cases hstep
  | begin =>
    simp only [creationStep, Machine.next] at hstep
    split at hstep
    · cases hstep
    · obtain rfl := some.inj hstep
      exact .inl hr
  | step =>
    simp only [creationStep, Machine.next] at hstep
    split at hstep
    · obtain ⟨⟨_, _⟩, -, rfl⟩ := map_eq_some_iff.mp hstep
      exact .inl hr
    · cases hstep
  | crash =>
    obtain rfl := some.inj hstep
    exact .inl hr

theorem truthful_step : Preserves (creationStep (θ := θ) host authority) (Truthful host authority) := by
  intro m event m' h hstep
  have hsound := h.sound.next creation_follows (fun _ _ => trivial) hstep
  refine ⟨hsound, fun r hr answer hanswer => ?_⟩
  rcases returned_of_step hstep r hr with hold | hended
  · exact lasting_tells r.operation (creationStep_grew h.sound.inv hstep) (h.told r hold answer hanswer)
  · exact hended ▸ hsound.returned r hr answer hanswer

/-- The tables before the first request. -/
lemma truthful_empty : Truthful host authority (Machine.idle (CreationWorld.empty θ)) := by
  refine ⟨Machine.Sound.idle ⟨⟨?_, ?_, ?_, ?_, ?_, ?_⟩, ?_⟩, ?_⟩
  · exact primaryKey_nil
  · exact primaryKey_nil
  · exact primaryKey_nil
  · exact fun row hrow => absurd hrow not_mem_nil
  · exact fun row hrow => absurd hrow not_mem_nil
  · exact fun row hrow => absurd hrow not_mem_nil
  · exact primaryKey_nil
  · exact fun r hr => absurd hr not_mem_nil

/-! ## The law -/

/-- A call repeats what a row tells: it answers so, and changes nothing.  A call that tells otherwise raises, and
changes nothing either. -/
structure Replays (host : Host) (authority : TargetAuthority) (s : CreationWorld θ) (row : GlobalCreationAllocation) :
    Prop where
  find : ∀ input, Answers input row → ∀ t choice, choice.failure = none →
    performCreation host authority t (.find input) choice s = some (.ok (some row), s)
  reserve : ∀ input, Answers input row → ∀ t choice, choice.failure = none →
    performCreation host authority t (.reserve input) choice s = some (.ok row, s)
  otherContract : ∀ input, row.kind = input.kind → row.requestID = trim input.requestID → ¬Answers input row →
    ∀ t choice, (∃ refused, performCreation host authority t (.find input) choice s = some (.error refused, s)) ∧
      ∃ refused, performCreation host authority t (.reserve input) choice s = some (.error refused, s)
  accept : ∀ input, row.id = input.allocationID → AcceptedBy input row → ∀ t choice, choice.failure = none →
    performCreation host authority t (.accept input) choice s = some (.ok (), s)
  otherTarget : ∀ input, row.id = input.allocationID → row.acceptedTargetID.isSome ∨ row.rejectedError.isSome →
    ¬AcceptedBy input row → ∀ t choice,
      ∃ refused, performCreation host authority t (.accept input) choice s = some (.error refused, s)
  reject : ∀ error, RejectedWith error row → ∀ t choice, choice.failure = none →
    performCreation host authority t (.reject row.id error) choice s = some (.ok .rejected, s)
  otherError : ∀ error, row.rejectedError.isSome → ¬RejectedWith error row → ∀ t choice,
    ∃ refused, performCreation host authority t (.reject row.id error) choice s = some (.error refused, s)
  rejectAccepted : ∀ error, row.acceptedTargetID.isSome → (∃ rejection, parseRejection error.serialized = .ok rejection) →
    ∀ t choice, choice.failure = none →
      performCreation host authority t (.reject row.id error) choice s = some (.ok .accepted, s)

structure OneOutcome (host : Host) (authority : TargetAuthority) (s : CreationWorld θ) : Prop where
  /-- A kind and a request id have one allocation. -/
  unique : ∀ row ∈ s.db.allocations, ∀ row' ∈ s.db.allocations, row.kind = row'.kind → row.requestID = row'.requestID →
    row = row'
  /-- An acceptance is whole, and it is by a target of the carrying Project. -/
  acceptance : ∀ row ∈ s.db.allocations, acceptedTarget row = .ok none ∨ ∃ target,
    acceptedTarget row = .ok (some target) ∧ row.materializedProjectID = some target.projectID
  /-- A rejection is whole. -/
  rejection : ∀ row ∈ s.db.allocations, throwIfRejected row = .ok () ∨
    ∃ name data, throwIfRejected row = .error (.rejection name data)
  /-- An accepted row is not rejected. -/
  exclusive : ∀ row ∈ s.db.allocations, acceptedTarget row ≠ .ok none → throwIfRejected row = .ok ()
  replays : ∀ row ∈ s.db.allocations, Replays host authority s row

lemma replays_of_mem {s : CreationWorld θ} (h : Tables s) {row : GlobalCreationAllocation}
    (hrow : row ∈ s.db.allocations) : Replays host authority s row where
  find input hanswers t choice hchoice := by
    have hfind := find_replay h.allocations hrow hanswers
    rw [performCreation, hfind]
    exact congrArg some (transact_same hchoice _)
  reserve input hanswers t choice hchoice := by
    have hreserve := reserve_replay h.allocations hrow hanswers choice.name choice.now
    rw [performCreation, hreserve]
    exact congrArg some (transact_same hchoice _)
  otherContract input hkind hrequestID hother t choice := by
    obtain ⟨refused, hfind⟩ := find_conflict h.allocations hrow hkind hrequestID hother
    obtain ⟨refused', hreserve⟩ :=
      reserve_conflict h.allocations hrow hkind hrequestID hother choice.name choice.now
    constructor
    · obtain ⟨raised, hraised⟩ := transact_error (β := Option GlobalCreationAllocation) choice s refused
      rw [performCreation, hfind]
      exact ⟨raised, congrArg some hraised⟩
    · obtain ⟨raised, hraised⟩ := transact_error (β := GlobalCreationAllocation) choice s refused'
      rw [performCreation, hreserve]
      exact ⟨raised, congrArg some hraised⟩
  accept input hid haccepted t choice hchoice := by
    have haccept := accept_replay authority h.allocations hrow hid haccepted
    rw [performCreation, haccept]
    exact congrArg some (transact_same hchoice _)
  otherTarget input hid hsettled hother t choice := by
    obtain ⟨refused, haccept⟩ := accept_conflict authority h.allocations hrow hid hsettled hother
    obtain ⟨raised, hraised⟩ := transact_error (β := Unit) choice s refused
    rw [performCreation, haccept]
    exact ⟨raised, congrArg some hraised⟩
  reject error hrejected t choice hchoice := by
    have hreject := reject_replay h.allocations hrow hrejected choice.now
    rw [performCreation, hreject]
    exact congrArg some (transact_same hchoice _)
  otherError error hsettled hother t choice := by
    obtain ⟨_, hstored⟩ := isSome_iff_exists.mp hsettled
    obtain ⟨refused, hreject⟩ := reject_conflict h.allocations hrow hstored hother choice.now
    obtain ⟨raised, hraised⟩ := transact_error (β := RejectOutcome) choice s refused
    rw [performCreation, hreject]
    exact ⟨raised, congrArg some hraised⟩
  rejectAccepted error hsettled hparse t choice hchoice := by
    obtain ⟨_, htarget⟩ := isSome_iff_exists.mp hsettled
    obtain ⟨_, hparse⟩ := hparse
    have hreject := reject_accepted h.allocations hrow htarget hparse choice.now
    rw [performCreation, hreject]
    exact congrArg some (transact_same hchoice _)

lemma oneOutcome_of_tables {s : CreationWorld θ} (h : Tables s) : OneOutcome host authority s where
  unique row hrow row' hrow' hkind hrequestID :=
    h.allocations.requests.eq_of_id hrow hrow' (Prod.ext hkind hrequestID)
  acceptance row hrow := by
    rcases acceptedTarget_eq (h.allocations.shapes row hrow) with ⟨-, hnone⟩ | ⟨target, -, -, hbound, hsome⟩
    · exact .inl hnone
    · exact .inr ⟨target, hsome, hbound⟩
  rejection row hrow := by
    rcases throwIfRejected_eq (h.allocations.shapes row hrow) (h.allocations.rejections row hrow) with
      ⟨-, -, hnone⟩ | ⟨error, name, data, -, -, -, hsome⟩
    · exact .inl hnone
    · exact .inr ⟨name, data, hsome⟩
  exclusive row hrow haccepted := by
    rcases acceptedTarget_eq (h.allocations.shapes row hrow) with ⟨-, hnone⟩ | ⟨_, htarget, -, -, -⟩
    · exact absurd hnone haccepted
    · obtain ⟨hfalse, -⟩ := accepted_whole (h.allocations.shapes row hrow) htarget
      rcases throwIfRejected_eq (h.allocations.shapes row hrow) (h.allocations.rejections row hrow) with
        ⟨-, -, hnone⟩ | ⟨error, name, data, herror, htruthy, -⟩
      · exact hnone
      · rw [herror, htruthy] at hfalse
        cases hfalse
  replays row hrow := replays_of_mem h hrow

end Runs

end Callers

def chatRequest (requestID : String) : CreationRequest where
  kind := .globalChatStart
  requestID := requestID
  requestContract := .fields [("text", .text "hello"), ("protocol", .text "global-chat-start-request-v2")]
  resolutionSeed := .fields []
  taskResolution := none

/-- A caller that reserves a request; its copy in another process repeats it while a third one binds it. -/
def chatRun : List (Event ℕ CreationChoice CreationOperation) :=
  let allocation : AllocationInput :=
    ⟨allocationID .globalChatStart "r1", .globalChatStart, "r1",
      "/data/projects/2026/01/02/0a1b2c3d-0a1b-4c3d-8a1b-0a1b2c3d4e5f"⟩
  let identity : DirectoryIdentity := ⟨"project_1", allocation.directory, none⟩
  [.begin 0 (.reserve (chatRequest "r1")), .step 0 { name := allocation.directory }, .finish 0,
    .begin 1 (.materialize allocation), .begin 2 (.reserve (chatRequest " r1 ")), .step 1 {}, .step 1 {}, .step 1 {},
    .step 2 {}, .finish 2, .step 1 {}, .step 1 {}, .step 1 {}, .step 1 {}, .step 1 {},
    .step 1 { identity }, .step 1 { name := "generation_1" }, .step 1 {}, .step 1 {}, .step 1 {}, .step 1 {}, .finish 1]

def strictAuthority : TargetAuthority where
  taskRequest _ := .error .schema
  taskResolution _ _ _ _ _ := .error .schema
  chatSession _ _ _ := .error .schema

end OpenCorvus.Project
