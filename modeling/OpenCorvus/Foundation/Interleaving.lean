import OpenCorvus.Foundation.ExecutableSystem

/-!
# Interleaved programs

A program is a finite tree of commands: it issues a command, goes on with the reply, and is done with a value
or an error.  Threads run programs over one shared state; between two commands of one thread the others may
take any number of steps, and a thread may crash at any time.
-/

namespace Interleaving

/-- A program with commands in `κ`, replies in `ρ` to them, errors in `ε` and a value in `α`. -/
inductive Prog (κ : Type) (ρ : κ → Type) (ε α : Type) where
  | done (result : Except ε α)
  | call (command : κ) (next : ρ command → Prog κ ρ ε α)

namespace Prog

variable {κ : Type} {ρ : κ → Type} {ε α β : Type}

/-- Go on with the result of a program, be it a value or an error. -/
def handle : Prog κ ρ ε α → (Except ε α → Prog κ ρ ε β) → Prog κ ρ ε β
  | done result, f => f result
  | call command next, f => call command fun reply => (next reply).handle f

def bind (p : Prog κ ρ ε α) (f : α → Prog κ ρ ε β) : Prog κ ρ ε β :=
  p.handle fun
    | .ok value => f value
    | .error error => done (.error error)

instance : Monad (Prog κ ρ ε) where
  pure value := done (.ok value)
  bind := bind

/-- `throw`. -/
def raise (error : ε) : Prog κ ρ ε α := done (.error error)

/-- `try … catch`. -/
def rescue (p : Prog κ ρ ε α) (f : ε → Prog κ ρ ε α) : Prog κ ρ ε α :=
  p.handle fun
    | .ok value => done (.ok value)
    | .error error => f error

@[simp] lemma pure_eq (value : α) : (pure value : Prog κ ρ ε α) = done (.ok value) := rfl

@[simp] lemma bind_ok (value : α) (f : α → Prog κ ρ ε β) : (done (.ok value) >>= f) = f value := rfl

end Prog

/-- What the threads `θ` rely on, and what they guarantee in an operation `ω`, when their commands change the
state `σ`. -/
structure Protocol (σ θ κ : Type) (ρ : κ → Type) (ω : Type) where
  /-- A thread's command may turn one state into another and be replied to. -/
  step : θ → (c : κ) → σ → ρ c → σ → Prop
  inv : σ → Prop
  rely : θ → σ → σ → Prop
  guar : θ → ω → σ → σ → Prop
  rely_refl : ∀ t s, rely t s s
  rely_trans : ∀ {t s s' s''}, rely t s s' → rely t s' s'' → rely t s s''
  rely_of_guar : ∀ {t u operation s s'}, inv s → t ≠ u → guar t operation s s' → rely u s s'

namespace Protocol

variable {σ θ κ : Type} {ρ : κ → Type} {ε α β ω : Type} (P : Protocol σ θ κ ρ ω) (t : θ) (operation : ω)

/-- Started in the state, the program keeps the invariant and the guarantee at every command and ends in
`post`, whatever the others do in between. -/
def wp : Prog κ ρ ε α → (Except ε α → σ → Prop) → σ → Prop
  | .done result, post, s => ∀ s', P.rely t s s' → P.inv s' → post result s'
  | .call c next, post, s => ∀ s', P.rely t s s' → P.inv s' → ∀ reply s'', P.step t c s' reply s'' →
      P.inv s'' ∧ P.guar t operation s' s'' ∧ wp (next reply) post s''

variable {P t operation} {p : Prog κ ρ ε α} {post post' : Except ε α → σ → Prop} {s s' : σ}

/-- What the others do is no harm to a verified program. -/
lemma wp.rely (h : P.wp t operation p post s) (hrely : P.rely t s s') : P.wp t operation p post s' := by
  cases p <;> exact fun s'' hrely' => h s'' (P.rely_trans hrely hrely')

/-- A weaker end. -/
lemma wp.mono (h : P.wp t operation p post s) (hpost : ∀ result s', P.inv s' → post result s' → post' result s') :
    P.wp t operation p post' s := by
  induction p generalizing s with
  | done result => exact fun s' hrely hinv => hpost result s' hinv (h s' hrely hinv)
  | call _ _ ih =>
    intro s' hrely hinv reply s'' hstep
    obtain ⟨hinv', hguar, hnext⟩ := h s' hrely hinv reply s'' hstep
    exact ⟨hinv', hguar, ih reply hnext⟩

lemma wp_handle {f : Except ε α → Prog κ ρ ε β} {post : Except ε β → σ → Prop}
    (h : P.wp t operation p (fun result => P.wp t operation (f result) post) s) (hinv : P.inv s) :
    P.wp t operation (p.handle f) post s := by
  induction p generalizing s with
  | done => exact h s (P.rely_refl t s) hinv
  | call _ _ ih =>
    intro s' hrely hinv' reply s'' hstep
    obtain ⟨hinv'', hguar, hnext⟩ := h s' hrely hinv' reply s'' hstep
    exact ⟨hinv'', hguar, ih reply hnext hinv''⟩

variable (P t) in
/-- What the others do is no harm to the assertion. -/
def Stable (post : Except ε α → σ → Prop) : Prop :=
  ∀ ⦃result s s'⦄, P.rely t s s' → P.inv s' → post result s → post result s'

/-- An end that lasts. -/
lemma Stable.done {post : Except ε α → σ → Prop} (hstable : P.Stable t post) {result : Except ε α}
    (h : post result s) : P.wp t operation (.done result) post s :=
  fun _ hrely hinv => hstable hrely hinv h

lemma wp_bind {f : α → Prog κ ρ ε β} {post : Except ε β → σ → Prop} (hstable : P.Stable t post) (hinv : P.inv s)
    (h : P.wp t operation p (fun result s' =>
      match result with
      | .ok value => P.wp t operation (f value) post s'
      | .error error => post (.error error) s') s) :
    P.wp t operation (p >>= f) post s := by
  refine wp_handle (h.mono fun result s' _ hresult => ?_) hinv
  cases result with
  | ok => exact hresult
  | error => exact hstable.done hresult

lemma wp_rescue {f : ε → Prog κ ρ ε α} (hstable : P.Stable t post) (hinv : P.inv s)
    (h : P.wp t operation p (fun result s' =>
      match result with
      | .ok value => post (.ok value) s'
      | .error error => P.wp t operation (f error) post s') s) :
    P.wp t operation (p.rescue f) post s := by
  refine wp_handle (h.mono fun result s' _ hresult => ?_) hinv
  cases result with
  | ok => exact hstable.done hresult
  | error => exact hresult

end Protocol

/-- A thread that runs the code of an operation `ω`. -/
structure Running (σ κ : Type) (ρ : κ → Type) (ε α ω : Type) where
  operation : ω
  /-- The state in which the operation began. -/
  begun : σ
  rest : Prog κ ρ ε α

structure Returned (σ ε α ω : Type) where
  operation : ω
  begun : σ
  ended : σ
  result : Except ε α

structure Machine (σ θ κ : Type) (ρ : κ → Type) (ε α ω : Type) where
  shared : σ
  threads : θ → Option (Running σ κ ρ ε α ω)
  returned : List (Returned σ ε α ω)

/-- What happens next; `ι` is what a command leaves open. -/
inductive Event (θ ι ω : Type) where
  | begin (t : θ) (operation : ω)
  | step (t : θ) (choice : ι)
  | finish (t : θ)
  | crash (t : θ)

section Machine

variable {σ θ κ : Type} {ρ : κ → Type} {ε α ω ι : Type} [DecidableEq θ]
  (perform : θ → (c : κ) → ι → σ → Option (ρ c × σ))
  (code : ω → Prog κ ρ ε α) (crashed : θ → σ → σ)

def Machine.next (m : Machine σ θ κ ρ ε α ω) : Event θ ι ω → Option (Machine σ θ κ ρ ε α ω)
  | .begin t operation =>
    match m.threads t with
    | some _ => none
    | none => some { m with threads := Function.update m.threads t (some ⟨operation, m.shared, code operation⟩) }
  | .step t choice =>
    match m.threads t with
    | some ⟨operation, begun, .call c next⟩ =>
      (perform t c choice m.shared).map fun (reply, shared) =>
        { m with
          shared
          threads := Function.update m.threads t (some ⟨operation, begun, next reply⟩) }
    | _ => none
  | .finish t =>
    match m.threads t with
    | some ⟨operation, begun, .done result⟩ =>
      some
        { m with
          threads := Function.update m.threads t none
          returned := m.returned ++ [⟨operation, begun, m.shared, result⟩] }
    | _ => none
  | .crash t => some { m with shared := crashed t m.shared, threads := Function.update m.threads t none }

def Machine.idle (shared : σ) : Machine σ θ κ ρ ε α ω := ⟨shared, fun _ => none, []⟩

end Machine

namespace Machine

variable {σ θ κ : Type} {ρ : κ → Type} {ε α ω ι : Type} [DecidableEq θ]
  {perform : θ → (c : κ) → ι → σ → Option (ρ c × σ)}
  {code : ω → Prog κ ρ ε α} {crashed : θ → σ → σ} {m m' : Machine σ θ κ ρ ε α ω}

structure Sound (P : Protocol σ θ κ ρ ω) (post : ω → σ → Except ε α → σ → Prop)
    (m : Machine σ θ κ ρ ε α ω) : Prop where
  inv : P.inv m.shared
  running : ∀ t running, m.threads t = some running →
    P.wp t running.operation running.rest (post running.operation running.begun) m.shared
  returned : ∀ r ∈ m.returned, post r.operation r.begun r.result r.ended

structure Follows (P : Protocol σ θ κ ρ ω) (post : ω → σ → Except ε α → σ → Prop) (ok : σ → σ → Prop)
    (perform : θ → (c : κ) → ι → σ → Option (ρ c × σ)) (code : ω → Prog κ ρ ε α) (crashed : θ → σ → σ) : Prop where
  step : ∀ {t c choice s reply s'}, perform t c choice s = some (reply, s') → ok s s' → P.step t c s reply s'
  code : ∀ t operation s, P.inv s → P.wp t operation (code operation) (post operation s) s
  crash_inv : ∀ t s, P.inv s → P.inv (crashed t s)
  crash_rely : ∀ {t u s}, P.inv s → t ≠ u → P.rely u s (crashed t s)

variable {P : Protocol σ θ κ ρ ω} {post : ω → σ → Except ε α → σ → Prop} {ok : σ → σ → Prop}

omit [DecidableEq θ] in
lemma Sound.idle {shared : σ} (h : P.inv shared) : Sound P post (Machine.idle (θ := θ) (κ := κ) (ρ := ρ) shared) :=
  ⟨h, fun _ _ hrunning => (nomatch hrunning), fun _ hr => (nomatch hr)⟩

def Meets (ok : σ → σ → Prop) (perform : θ → (c : κ) → ι → σ → Option (ρ c × σ)) (code : ω → Prog κ ρ ε α)
    (crashed : θ → σ → σ) (m : Machine σ θ κ ρ ε α ω) (event : Event θ ι ω) : Prop :=
  ∀ m', m.next perform code crashed event = some m' → ok m.shared m'.shared

lemma forall_update {β : Type*} {Q : θ → β → Prop} {threads : θ → Option β} {t : θ} {value : Option β}
    (hself : ∀ x, value = some x → Q t x) (hothers : ∀ u x, t ≠ u → threads u = some x → Q u x) :
    ∀ u x, Function.update threads t value u = some x → Q u x := by
  intro u x hx
  by_cases htu : u = t
  · subst htu
    rw [Function.update_self] at hx
    exact hself x hx
  · rw [Function.update_of_ne htu] at hx
    exact hothers u x (Ne.symm htu) hx

theorem Sound.next (hfollows : Follows P post ok perform code crashed) (h : Sound P post m)
    {event : Event θ ι ω} (hok : Meets ok perform code crashed m event)
    (hstep : m.next perform code crashed event = some m') : Sound P post m' := by
  have hmeets := hok m' hstep
  cases event with
  | begin t operation =>
    simp only [Machine.next] at hstep
    split at hstep
    · cases hstep
    · obtain rfl := Option.some.inj hstep
      refine ⟨h.inv, forall_update (fun running hnew => ?_) fun u running _ hold => ?_, h.returned⟩
      · obtain rfl := Option.some.inj hnew
        exact hfollows.code t operation m.shared h.inv
      · exact h.running u running hold
  | step t =>
    simp only [Machine.next] at hstep
    split at hstep
    · next operation begun c next hthread =>
      obtain ⟨⟨reply, shared⟩, hperform, rfl⟩ := Option.map_eq_some_iff.mp hstep
      obtain ⟨hinv, hguar, hrest⟩ := h.running t _ hthread m.shared (P.rely_refl t m.shared) h.inv reply shared
        (hfollows.step hperform hmeets)
      refine ⟨hinv, forall_update (fun running hnew => ?_) fun u running htu hold => ?_, h.returned⟩
      · obtain rfl := Option.some.inj hnew
        exact hrest
      · exact (h.running u running hold).rely (P.rely_of_guar h.inv htu hguar)
    · cases hstep
  | finish t =>
    simp only [Machine.next] at hstep
    split at hstep
    · next operation begun result hthread =>
      obtain rfl := Option.some.inj hstep
      refine ⟨h.inv, forall_update (fun _ hnew => (nomatch hnew)) fun u running _ hold => ?_, fun r hr => ?_⟩
      · exact h.running u running hold
      · rcases List.mem_append.mp hr with hold | hnew
        · exact h.returned r hold
        · obtain rfl := List.mem_singleton.mp hnew
          exact h.running t _ hthread m.shared (P.rely_refl t m.shared) h.inv
    · cases hstep
  | crash t =>
    obtain rfl := Option.some.inj hstep
    refine ⟨hfollows.crash_inv t m.shared h.inv,
      forall_update (fun _ hnew => (nomatch hnew)) fun u running htu hold => ?_, h.returned⟩
    exact (h.running u running hold).rely (hfollows.crash_rely h.inv htu)

end Machine

end Interleaving
