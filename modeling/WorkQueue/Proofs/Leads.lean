/-!
# What a computation leads to

A call ends in success or in failure, and what it changed before a failure stays. `Leads` says what
holds in either case, and is taken apart along the steps of the computation.
-/

namespace WorkQueue

variable {ε σ α β : Type}

/-- Started in `s`, the computation ends with a value and a state of which `done` holds, or with an
error and a state of which `failed` holds. -/
def Leads (a : EStateM ε σ α) (s : σ) (done : α → σ → Prop) (failed : ε → σ → Prop) : Prop :=
  match a s with
  | .ok x s' => done x s'
  | .error e s' => failed e s'

variable {a : EStateM ε σ α} {s s' : σ} {done done' : α → σ → Prop} {failed failed' : ε → σ → Prop}

theorem leads_iff : Leads a s done failed ↔
    (∀ x s', a s = .ok x s' → done x s') ∧ ∀ e s', a s = .error e s' → failed e s' := by
  unfold Leads
  cases a s <;> simp

theorem Leads.of_ok {x : α} (h : Leads a s done failed) (ha : a s = .ok x s') : done x s' :=
  (leads_iff.1 h).1 x s' ha

theorem Leads.of_error {e : ε} (h : Leads a s done failed) (ha : a s = .error e s') :
    failed e s' :=
  (leads_iff.1 h).2 e s' ha

theorem Leads.mono (h : Leads a s done failed) (hdone : ∀ x s', done x s' → done' x s')
    (hfailed : ∀ e s', failed e s' → failed' e s') : Leads a s done' failed' :=
  leads_iff.2 ⟨fun x s' ha => hdone x s' (h.of_ok ha), fun e s' ha => hfailed e s' (h.of_error ha)⟩

theorem Leads.and (h : Leads a s done failed) (h' : Leads a s done' failed') :
    Leads a s (fun x s' => done x s' ∧ done' x s') fun e s' => failed e s' ∧ failed' e s' :=
  leads_iff.2 ⟨fun _ _ ha => ⟨h.of_ok ha, h'.of_ok ha⟩,
    fun _ _ ha => ⟨h.of_error ha, h'.of_error ha⟩⟩

theorem leads_self (a : EStateM ε σ α) (s : σ) :
    Leads a s (fun x s' => a s = .ok x s') fun e s' => a s = .error e s' :=
  leads_iff.2 ⟨fun _ _ ha => ha, fun _ _ ha => ha⟩

theorem leads_of_ok {x : α} (ha : a s = .ok x s') : Leads a s done failed ↔ done x s' := by
  unfold Leads
  rw [ha]

/-- What cannot fail succeeds. -/
theorem Leads.exists_ok (h : Leads a s done fun _ _ => False) :
    ∃ x s', a s = .ok x s' ∧ done x s' := by
  cases ha : a s with
  | ok x s' => exact ⟨x, s', rfl, h.of_ok ha⟩
  | error e s' => exact (h.of_error ha).elim

/-- What cannot succeed fails. -/
theorem Leads.exists_error (h : Leads a s (fun _ _ => False) failed) :
    ∃ e s', a s = .error e s' ∧ failed e s' := by
  cases ha : a s with
  | ok x s' => exact (h.of_ok ha).elim
  | error e s' => exact ⟨e, s', rfl, h.of_error ha⟩

theorem bind_of_ok {x : α} (ha : a s = .ok x s') (f : α → EStateM ε σ β) :
    (a >>= f) s = f x s' := by
  simp only [bind, EStateM.bind, ha]

/-- Two computations that do the same up to a point, and the same from there. -/
theorem bind_congr_at {b : EStateM ε σ α} {f g : α → EStateM ε σ β} (hab : a s = b s)
    (hfg : ∀ x s', b s = .ok x s' → f x s' = g x s') : (a >>= f) s = (b >>= g) s := by
  simp only [bind, EStateM.bind, hab]
  cases hb : b s with
  | ok x s' => exact hfg x s' hb
  | error e s' => rfl

theorem discard_congr_at {b : EStateM ε σ α} (hab : a s = b s) : discard a s = discard b s := by
  change EStateM.map _ a s = EStateM.map _ b s
  simp only [EStateM.map, hab]

theorem map_of_ok {x : α} (ha : a s = .ok x s') (f : α → β) : (f <$> a) s = .ok (f x) s' := by
  simp only [Functor.map, EStateM.map, ha]

theorem tryCatch_of_ok {x : α} (ha : a s = .ok x s') (handle : ε → EStateM ε σ α) :
    tryCatch a handle s = .ok x s' := by
  change EStateM.tryCatch a handle s = _
  delta EStateM.tryCatch
  simp only [ha]

theorem tryCatch_of_error {e : ε} (ha : a s = .error e s') (handle : ε → EStateM ε σ α) :
    tryCatch a handle s = handle e s' := by
  change EStateM.tryCatch a handle s = _
  delta EStateM.tryCatch
  simp only [ha]
  rfl

/-- The computation ends in this state, in success or in failure. -/
def Ends (a : EStateM ε σ α) (s s' : σ) : Prop :=
  (∃ x, a s = .ok x s') ∨ ∃ e, a s = .error e s'

theorem Leads.of_ends {P : σ → Prop} (h : Leads a s (fun _ => P) fun _ => P) (ha : Ends a s s') :
    P s' := by
  obtain ⟨x, ha⟩ | ⟨e, ha⟩ := ha
  · exact h.of_ok ha
  · exact h.of_error ha

/-! ### Steps -/

@[simp] theorem leads_pure (x : α) : Leads (pure x) s done failed ↔ done x s := Iff.rfl

@[simp] theorem leads_throw (e : ε) : Leads (throw e) s done failed ↔ failed e s := Iff.rfl

@[simp] theorem leads_get {done : σ → σ → Prop} : Leads get s done failed ↔ done s s := Iff.rfl

@[simp] theorem leads_modify (f : σ → σ) {done : PUnit → σ → Prop} :
    Leads (modify f) s done failed ↔ done ⟨⟩ (f s) := Iff.rfl

@[simp] theorem leads_modifyGet (f : σ → α × σ) :
    Leads (modifyGet f) s done failed ↔ done (f s).1 (f s).2 := Iff.rfl

@[simp] theorem leads_bind (a : EStateM ε σ α) (f : α → EStateM ε σ β) {done : β → σ → Prop} :
    Leads (a >>= f) s done failed ↔
      Leads a s (fun x s' => Leads (f x) s' done failed) failed := by
  unfold Leads
  simp only [bind, EStateM.bind]
  cases a s <;> rfl

@[simp] theorem leads_map (f : α → β) (a : EStateM ε σ α) {done : β → σ → Prop} :
    Leads (f <$> a) s done failed ↔ Leads a s (fun x s' => done (f x) s') failed := by
  unfold Leads
  simp only [Functor.map, EStateM.map]
  cases a s <;> rfl

@[simp] theorem leads_discard (a : EStateM ε σ α) {done : PUnit → σ → Prop} :
    Leads (discard a) s done failed ↔ Leads a s (fun _ s' => done ⟨⟩ s') failed :=
  leads_map (Function.const α PUnit.unit) a

@[simp] theorem leads_tryCatch (a : EStateM ε σ α) (handle : ε → EStateM ε σ α) :
    Leads (tryCatch a handle) s done failed ↔
      Leads a s done fun e s' => Leads (handle e) s' done failed := by
  unfold Leads
  cases h : a s with
  | ok x s' => rw [tryCatch_of_ok h]
  | error e s' => rw [tryCatch_of_error h]

@[simp] theorem leads_ofExcept (x : Except ε α) :
    Leads (MonadExcept.ofExcept x) s done failed ↔
      (∀ v, x = .ok v → done v s) ∧ ∀ e, x = .error e → failed e s := by
  cases x <;> simp [MonadExcept.ofExcept]

theorem Leads.imp (h : Leads a s done failed) (hdone : ∀ x s', done x s' → done' x s') :
    Leads a s done' failed := h.mono hdone fun _ _ he => he

theorem Leads.bind {f : α → EStateM ε σ β} {done' : β → σ → Prop} (ha : Leads a s done failed)
    (hf : ∀ x s', done x s' → Leads (f x) s' done' failed) : Leads (a >>= f) s done' failed :=
  (leads_bind a f).2 (ha.imp hf)

/-- What fails at one element of a list fails the run over the list. -/
theorem leads_forM {f : α → EStateM ε σ PUnit}
    (h : ∀ x s, Leads (f x) s (fun _ _ => True) failed) {xs : List α} :
    Leads (forM xs f) s (fun _ _ => True) failed := by
  induction xs generalizing s with
  | nil => exact (leads_pure _).2 trivial
  | cons x xs ih =>
    rw [List.forM_cons, leads_bind]
    exact (h x s).mono (fun _ _ _ => ih) fun _ _ h => h

/-- The same for what holds before and after each element. -/
theorem leads_forM_of_kept {I : σ → Prop} {f : α → EStateM ε σ PUnit} {xs : List α}
    (h : ∀ x ∈ xs, ∀ s, I s → Leads (f x) s (fun _ s' => I s') failed) (hs : I s) :
    Leads (forM xs f) s (fun _ s' => I s') failed := by
  induction xs generalizing s with
  | nil => exact (leads_pure _).2 hs
  | cons x xs ih =>
    rw [List.forM_cons]
    apply (h x List.mem_cons_self s hs).bind
    intro _ s₁ h₁
    exact ih (fun y hy => h y (List.mem_cons_of_mem x hy)) h₁

/-- What one element of a list brings about, and what the later ones keep. -/
theorem leads_forM_of_mem {I P : σ → Prop} {f : α → EStateM ε σ PUnit} {xs : List α} {x : α}
    (hx : x ∈ xs) (hI : ∀ y ∈ xs, ∀ s, I s → Leads (f y) s (fun _ s' => I s') failed)
    (hf : ∀ s, I s → Leads (f x) s (fun _ s' => P s') failed)
    (hP : ∀ y ∈ xs, ∀ s, P s → Leads (f y) s (fun _ s' => P s') failed) (hs : I s) :
    Leads (forM xs f) s (fun _ s' => P s') failed := by
  obtain ⟨before, after, rfl⟩ := List.append_of_mem hx
  rw [List.forM_append]
  apply (leads_forM_of_kept (fun y hy => hI y (List.mem_append_left _ hy)) hs).bind
  intro _ s₁ h₁
  rw [List.forM_cons]
  apply (hf s₁ h₁).bind
  intro _ s₂ h₂
  exact leads_forM_of_kept
    (fun y hy => hP y (List.mem_append_right _ (List.mem_cons_of_mem x hy))) h₂

/-! ### Where only success matters -/

/-- Where the computation succeeds, this holds. -/
def Secures (a : EStateM ε σ α) (s : σ) (done : α → σ → Prop) : Prop :=
  Leads a s done fun _ _ => True

theorem Leads.secures (h : Leads a s done failed) : Secures a s done :=
  h.mono (fun _ _ hx => hx) fun _ _ _ => trivial

theorem secures_any : Secures a s fun _ _ => True :=
  leads_iff.2 ⟨fun _ _ _ => trivial, fun _ _ _ => trivial⟩

theorem Secures.imp (h : Secures a s done) (hdone : ∀ x s', done x s' → done' x s') :
    Secures a s done' := Leads.imp h hdone

theorem Secures.bind {f : α → EStateM ε σ β} {done' : β → σ → Prop} (ha : Secures a s done)
    (hf : ∀ x s', done x s' → Secures (f x) s' done') : Secures (a >>= f) s done' :=
  Leads.bind ha hf

/-! ### How it may fail -/

/-- Whatever error the computation ends in, this holds of it. -/
def Fails (P : ε → Prop) (a : EStateM ε σ α) : Prop :=
  ∀ s, Leads a s (fun _ _ => True) fun e _ => P e

section Fails

variable {P Q : ε → Prop}

theorem fails_pure (x : α) : Fails P (pure x : EStateM ε σ α) := fun _ => trivial

theorem fails_throw {e : ε} (h : P e) : Fails P (throw e : EStateM ε σ α) := fun _ => h

theorem fails_modify {f : σ → σ} : Fails P (modify f : EStateM ε σ PUnit) := fun _ => trivial

theorem Fails.mono (ha : Fails P a) (h : ∀ e, P e → Q e) : Fails Q a :=
  fun s => (ha s).mono (fun _ _ hx => hx) fun e _ he => h e he

theorem Fails.bind {f : α → EStateM ε σ β} (ha : Fails P a) (hf : ∀ x, Fails P (f x)) :
    Fails P (a >>= f) := by
  intro s
  apply (ha s).bind
  intro x s₁ _
  exact hf x s₁

theorem fails_get_bind {f : σ → EStateM ε σ β} (hf : ∀ s, Fails P (f s)) :
    Fails P (get >>= f) := fun s => (leads_bind _ _).2 (hf s s)

theorem fails_ofExcept {x : Except ε α} (h : ∀ e, x = .error e → P e) :
    Fails P (MonadExcept.ofExcept x : EStateM ε σ α) :=
  fun _ => (leads_ofExcept x).2 ⟨fun _ _ => trivial, h⟩

theorem fails_forM {f : α → EStateM ε σ PUnit} (h : ∀ x, Fails P (f x)) (xs : List α) :
    Fails P (forM xs f) := fun _ => leads_forM fun x s => h x s

theorem Fails.discard (ha : Fails P a) : Fails P (discard a) :=
  fun s => (leads_discard a).2 (ha s)

/-- A failure that is handled is replaced by that of the handler. -/
theorem Fails.tryCatch {handle : ε → EStateM ε σ α} (ha : Fails Q a)
    (hh : ∀ e, Q e → Fails P (handle e)) : Fails P (tryCatch a handle) := by
  intro s
  rw [leads_tryCatch]
  apply (ha s).mono
  · intro _ _ _
    trivial
  · intro e s₁ he
    exact hh e he s₁

end Fails

/-! ### What is kept -/

/-- However the computation ends, this holds afterwards if it held before. -/
def Keeps (I : σ → Prop) (a : EStateM ε σ α) : Prop :=
  ∀ s, I s → Leads a s (fun _ s' => I s') fun _ s' => I s'

section Keeps

variable {I : σ → Prop}

theorem keeps_pure (x : α) : Keeps I (pure x : EStateM ε σ α) := fun _ h => h

theorem keeps_throw (e : ε) : Keeps I (throw e : EStateM ε σ α) := fun _ h => h

theorem keeps_modify {f : σ → σ} (h : ∀ s, I s → I (f s)) :
    Keeps I (modify f : EStateM ε σ PUnit) := h

theorem keeps_modifyGet {f : σ → α × σ} (h : ∀ s, I s → I (f s).2) :
    Keeps I (modifyGet f : EStateM ε σ α) := h

theorem keeps_ofExcept (x : Except ε α) :
    Keeps I (MonadExcept.ofExcept x : EStateM ε σ α) := by
  cases x with
  | ok v => exact keeps_pure v
  | error e => exact keeps_throw e

theorem Keeps.bind {f : α → EStateM ε σ β} (ha : Keeps I a) (hf : ∀ x, Keeps I (f x)) :
    Keeps I (a >>= f) := by
  intro s hs
  rw [leads_bind]
  apply (ha s hs).imp
  intro x s₁ h₁
  exact hf x s₁ h₁

/-- What keeps it goes before what may need it. -/
theorem Keeps.leads_bind {f : α → EStateM ε σ β} {done : β → σ → Prop} (ha : Keeps I a) (hs : I s)
    (hfailed : ∀ e s', I s' → failed e s') (hf : ∀ x s', I s' → Leads (f x) s' done failed) :
    Leads (a >>= f) s done failed :=
  ((ha s hs).mono (fun _ _ h => h) hfailed).bind hf

theorem keeps_get_bind {f : σ → EStateM ε σ β} (hf : ∀ s, Keeps I (f s)) :
    Keeps I (get >>= f) := by
  intro s hs
  rw [leads_bind]
  exact hf s s hs

theorem Keeps.tryCatch {handle : ε → EStateM ε σ α} (ha : Keeps I a)
    (hh : ∀ e, Keeps I (handle e)) : Keeps I (tryCatch a handle) := by
  intro s hs
  rw [leads_tryCatch]
  apply (ha s hs).mono
  · intro _ _ h₁
    exact h₁
  · intro e s₁ h₁
    exact hh e s₁ h₁

theorem keeps_forM {f : α → EStateM ε σ PUnit} {xs : List α} (h : ∀ x ∈ xs, Keeps I (f x)) :
    Keeps I (forM xs f) := by
  induction xs with
  | nil => exact keeps_pure _
  | cons x xs ih =>
    rw [List.forM_cons]
    apply (h x List.mem_cons_self).bind
    intro _
    apply ih
    intro y hy
    exact h y (List.mem_cons_of_mem x hy)

end Keeps

end WorkQueue
