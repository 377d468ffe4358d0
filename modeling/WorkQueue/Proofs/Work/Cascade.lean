import WorkQueue.Proofs.Store.Identity
import WorkQueue.Work.Queue

/-!
# The cascade of closings

A change of status climbs from the item along the links to parents. An item that is finished is
closed, by a commit of its own, and the parent that waits for it is looked at next. The climb ends
at the first item after which no parent waits, or at one that cannot be closed. Every closing leaves
one item less that is done, so the steps that a call is given are enough.
-/

namespace WorkQueue.Work

open Time
open Record (Distinct)
open Store (Desk Idle Committed Edit UpdateRefused)

/-! ### Children and parents -/

/-- Some child of the item is not closed. -/
def HasUnclosed (works : List Work) (id : String) : Prop :=
  ∃ c ∈ works, c.parentId = some id ∧ c.status ≠ .closed

instance (works : List Work) (id : String) : Decidable (HasUnclosed works id) :=
  inferInstanceAs (Decidable (∃ c ∈ works, _))

theorem hasUnclosedChildren_iff (s : Store Work) (id : String) :
    hasUnclosedChildren s id = true ↔ HasUnclosed s.records id := by
  have hmem (w : Work) : w ∈ s.list ↔ w ∈ s.records := (LawfulRecord.order_perm s.records).mem_iff
  simp [hasUnclosedChildren, children, HasUnclosed, hmem]

theorem waitingParent?_eq_some {s : Store Work} {w p : Work} : waitingParent? s w = some p ↔
    w.status = .closed ∧ w.parentId = some p.id ∧ s.get? p.id = some p ∧ p.status = .done := by
  unfold waitingParent?
  by_cases hw : w.status = .closed
  · rw [if_pos hw, Option.filter_eq_some_iff, Option.bind_eq_some_iff, decide_eq_true_iff]
    constructor
    · rintro ⟨⟨id, hid, hp⟩, hdone⟩
      have hsame : p.id = id := Record.id_of_find? hp
      exact ⟨hw, hsame ▸ hid, hsame ▸ hp, hdone⟩
    · rintro ⟨-, hid, hp, hdone⟩
      exact ⟨⟨p.id, hid, hp⟩, hdone⟩
  · simp [hw]

/-! ### One item -/

/-- The item is done and all its children are closed. -/
def Closable (s : Store Work) (w : Work) : Prop :=
  w.status = .done ∧ ¬ HasUnclosed s.records w.id

theorem closable_iff {s : Store Work} {w : Work} :
    (w.status = .done ∧ ¬ hasUnclosedChildren s w.id = true) ↔ Closable s w := by
  rw [hasUnclosedChildren_iff, Closable]

def closedAt (t : Stamp) (w : Work) : Work := { w with status := .closed, updatedAt := t }

/-- One item was changed, written and announced. -/
structure Changed (desk : Desk Work) (previous next : Work) (desk' : Desk Work) : Prop where
  edit : Edit desk.store.records desk'.store.records (.updated (some previous) next)
  committed : Committed desk desk'.store.records (.updated (some previous) next) desk'

/-- An item was patched, which `veto` did not refuse. -/
inductive Updated (desk : Desk Work) (id : String) (p : Patch)
    (veto : List Work → Work → Except StoreError Unit) : Work → Desk Work → Prop where
  | intro {previous next : Work} {t : Stamp} {desk' : Desk Work}
      (found : desk.store.get? id = some previous) (patch : Work.patch p previous = .ok next)
      (allowed : veto desk.store.records next = .ok ()) (valid : validate next = .ok ())
      (changed : Changed desk previous { next with updatedAt := t } desk') :
      Updated desk id p veto { next with updatedAt := t } desk'

/-- An item that was looked at stays as it is, or it was finished and is closed. -/
inductive Settled (desk : Desk Work) (w : Work) : Work → Desk Work → Prop where
  | stays (h : ¬ Closable desk.store w) : Settled desk w w desk
  | closes {t : Stamp} {desk' : Desk Work} (h : Closable desk.store w) (valid : validate w = .ok ())
      (changed : Changed desk w (w.closedAt t) desk') : Settled desk w (w.closedAt t) desk'

/-- The item is finished, but closing it failed. -/
structure Stuck (desk : Desk Work) (w : Work) (e : StoreError) (desk' : Desk Work) : Prop where
  closable : Closable desk.store w
  idle : Idle desk desk'
  cause : e.IsPersistence ∨ ∃ v, e = .validation v ∧ validate w = .error v

variable {desk desk' : Desk Work} {w w' : Work} {e : StoreError}

/-- An edit is of the record that is found under its id, and so is its result. -/
theorem get?_of_edit {records records' : List Work}
    (h : Edit records records' (.updated (some w) w')) :
    Record.find? records w.id = some w ∧ Record.find? records' w'.id = some w' ∧ w'.id = w.id := by
  cases h with
  | updated first same =>
    exact ⟨Store.find?_updated first rfl, Store.find?_updated first same, same⟩

theorem Changed.get?_eq (h : Changed desk w w' desk') : desk'.store.get? w'.id = some w' :=
  (get?_of_edit h.edit).2.1

theorem Changed.mem_iff (h : Changed desk w w' desk') (hd : Distinct desk.store.records)
    {r : Work} : r ∈ desk'.store.records ↔ r = w' ∨ r ∈ desk.store.records ∧ r.id ≠ w'.id := by
  refine (h.edit.mem_iff hd).trans (or_congr_left ?_)
  exact Option.some_inj.trans eq_comm

theorem Updated.get?_eq {id : String} {p : Patch}
    {veto : List Work → Work → Except StoreError Unit} (h : Updated desk id p veto w desk') :
    desk'.store.get? w.id = some w := by
  obtain ⟨-, -, -, -, changed⟩ := h
  exact changed.get?_eq

theorem leads_updateWith (id : String) (p : Patch)
    (veto : List Work → Work → Except StoreError Unit) :
    Leads (Store.updateWith id p veto) desk (fun w desk' => Updated desk id p veto w desk')
      (fun e desk' => Idle desk desk' ∧
        (e.IsPersistence ∨ UpdateRefused desk.store id p veto e)) := by
  refine (Store.leads_updateWith_patched id p veto).imp fun w desk' h => ?_
  obtain ⟨i, previous, next, h, rfl, hcommitted⟩ := h
  have hedited := Store.Edited.of_edit (h.edit _) hcommitted
  exact .intro h.get?_eq h.patch h.allowed h.valid ⟨hedited.edit, hedited.committed⟩

theorem patch_closing (hw : w.status = .done) :
    Work.patch closing w = .ok { w with status := .closed } := by
  have hmove : w.status.canMoveTo .closed = true := by rw [hw]; rfl
  simp only [Work.patch, closing, if_pos hmove]
  rfl

/-- Closing an item that is done is refused only by the item's own check. -/
theorem exists_validation_of_refused (hw : desk.store.get? w.id = some w) (hdone : w.status = .done)
    (h : UpdateRefused desk.store w.id closing (fun _ _ => .ok ()) e) :
    ∃ v, e = .validation v ∧ validate w = .error v := by
  rcases h.veto_or_invalid hw (patch_closing hdone) with hveto | ⟨v, he, hinvalid⟩
  · cases hveto
  · -- the check does not look at the status
    exact ⟨v, he, hinvalid⟩

theorem leads_closeIfFinished (hw : desk.store.get? w.id = some w) :
    Leads (closeIfFinished w) desk (fun w' desk' => Settled desk w w' desk')
      (fun e desk' => Stuck desk w e desk') := by
  rw [closeIfFinished, Store.leads_get_bind]
  dsimp only
  by_cases hc : Closable desk.store w
  swap
  · rw [if_neg (mt closable_iff.1 hc)]
    exact (leads_pure _).2 (.stays hc)
  rw [if_pos (closable_iff.2 hc)]
  refine (leads_updateWith w.id closing _).mono (fun w' desk' h => ?_) fun e desk' h => ?_
  · obtain ⟨found, patch, -, valid, changed⟩ := h
    obtain rfl := Option.some.inj (hw.symm.trans found)
    obtain rfl := Except.ok.inj ((patch_closing hc.1).symm.trans patch)
    exact .closes hc valid changed
  · exact ⟨hc, h.1, h.2.imp_right (exists_validation_of_refused hw hc.1)⟩

theorem Settled.id_eq (h : Settled desk w w' desk') : w'.id = w.id := by
  cases h <;> rfl

theorem Settled.get?_eq (h : Settled desk w w' desk') (hw : desk.store.get? w.id = some w) :
    desk'.store.get? w'.id = some w' := by
  cases h with
  | stays => exact hw
  | closes hc valid changed => exact changed.get?_eq

/-- Nothing happens to an item that is closed. -/
theorem Settled.get?_of_closed {x : Work} (h : Settled desk w w' desk')
    (hclosed : x.status = .closed) (hx : desk.store.get? x.id = some x) :
    desk'.store.get? x.id = some x := by
  cases h with
  | stays => exact hx
  | closes hc valid changed =>
    have hne : w.id ≠ x.id := by
      intro hid
      have hw : desk.store.get? w.id = some w := (get?_of_edit changed.edit).1
      rw [hid, hx] at hw
      rw [Option.some.inj hw, hc.1] at hclosed
      cases hclosed
    rw [← hx]
    exact changed.edit.find?_of_ne hne

/-! ### Climbing -/

/-- From an item to one that waited for it, directly or through others, with what lay between
settled. -/
inductive Climb : Desk Work → Work → Desk Work → Work → Prop where
  | here (desk : Desk Work) (w : Work) : Climb desk w desk w
  | up {desk desk₁ desk₂ : Desk Work} {w w₁ parent x : Work} (settled : Settled desk w w₁ desk₁)
      (waits : waitingParent? desk₁.store w₁ = some parent) (rest : Climb desk₁ parent desk₂ x) :
      Climb desk w desk₂ x

/-- What the settling of an item keeps, and the step to the parent that waits for it, a climb
keeps. -/
theorem Climb.keeps {desk desk' : Desk Work} {w x : Work} {P : Desk Work → Work → Prop}
    (h : Climb desk w desk' x)
    (hsettled : ∀ {d d' : Desk Work} {v v' : Work}, Settled d v v' d' → P d v → P d' v')
    (hup : ∀ {d : Desk Work} {v parent : Work}, waitingParent? d.store v = some parent →
      P d v → P d parent) (hP : P desk w) : P desk' x := by
  induction h with
  | here => exact hP
  | up settled waits rest ih => exact ih (hup waits (hsettled settled hP))

/-- The climb from an item ended where no parent waits. -/
def Rests (desk : Desk Work) (w : Work) (desk' : Desk Work) : Prop :=
  ∃ desk₁ x x', Climb desk w desk₁ x ∧ Settled desk₁ x x' desk' ∧
    waitingParent? desk'.store x' = none

/-- The climb from an item ended at one that could not be closed. -/
def Halts (desk : Desk Work) (w : Work) (e : StoreError) (desk' : Desk Work) : Prop :=
  ∃ desk₁ x, Climb desk w desk₁ x ∧ Stuck desk₁ x e desk'

/-- What every settling of an item keeps, a cascade keeps. -/
theorem Rests.keeps {desk desk' : Desk Work} {w : Work} {P : Desk Work → Prop}
    (h : Rests desk w desk')
    (hsettled : ∀ {d d' : Desk Work} {v v' : Work}, Settled d v v' d' → P d → P d')
    (hP : P desk) : P desk' := by
  obtain ⟨desk₁, x, x', hclimb, hlast, -⟩ := h
  have hP₁ : P desk₁ := hclimb.keeps (P := fun d _ => P d) hsettled (fun _ h => h) hP
  exact hsettled hlast hP₁

/-- What every settling of an item keeps, and every call that does nothing, a cascade that halts
keeps. -/
theorem Halts.keeps {desk desk' : Desk Work} {w : Work} {e : StoreError} {P : Desk Work → Prop}
    (h : Halts desk w e desk')
    (hsettled : ∀ {d d' : Desk Work} {v v' : Work}, Settled d v v' d' → P d → P d')
    (hidle : ∀ {d d' : Desk Work}, Idle d d' → P d → P d') (hP : P desk) : P desk' := by
  obtain ⟨desk₁, x, hclimb, hstuck⟩ := h
  have hP₁ : P desk₁ := hclimb.keeps (P := fun d _ => P d) hsettled (fun _ h => h) hP
  exact hidle hstuck.idle hP₁

theorem Rests.eq_or_up {desk desk' : Desk Work} {w : Work} (h : Rests desk w desk') :
    ∃ w₁ desk₁, Settled desk w w₁ desk₁ ∧
      (waitingParent? desk₁.store w₁ = none ∧ desk' = desk₁ ∨
        ∃ parent, waitingParent? desk₁.store w₁ = some parent ∧ Rests desk₁ parent desk') := by
  obtain ⟨desk₂, x, x', hclimb, hend⟩ := h
  cases hclimb with
  | here => exact ⟨x', desk', hend.1, Or.inl ⟨hend.2, rfl⟩⟩
  | up settled waits rest => exact ⟨_, _, settled, Or.inr ⟨_, waits, _, _, _, rest, hend⟩⟩

/-- How many items are done. -/
def doneCount (s : Store Work) : Nat := s.records.countP (·.status = .done)

theorem Changed.doneCount_eq (h : Changed desk w w' desk') (hdone : w.status = .done)
    (hclosed : w'.status = .closed) : doneCount desk'.store + 1 = doneCount desk.store := by
  have hedit := h.edit
  unfold doneCount
  generalize desk.store.records = records at hedit ⊢
  generalize desk'.store.records = records' at hedit ⊢
  cases hedit with
  | updated first same =>
    rw [List.countP_append, List.countP_append, List.countP_cons, List.countP_cons]
    simp [hdone, hclosed, Nat.add_assoc]

/-- The steps that a climb from an item can take: it closes one done item after the other, and the
one that it ends at, or starts from, may be closed already. -/
def reach (s : Store Work) (w : Work) : Nat := doneCount s + if w.status = .done then 1 else 2

/-- As many steps as there are items, and two, are enough. -/
theorem reach_le_length (s : Store Work) (w : Work) : reach s w ≤ s.records.length + 2 := by
  have hcount : doneCount s ≤ s.records.length := List.countP_le_length
  unfold reach
  split <;> omega

theorem Settled.reach_lt {parent : Work} (h : Settled desk w w' desk')
    (hwaits : waitingParent? desk'.store w' = some parent) :
    reach desk'.store parent < reach desk.store w := by
  obtain ⟨hclosed, -, -, hdone⟩ := waitingParent?_eq_some.1 hwaits
  unfold reach
  rw [if_pos hdone]
  cases h with
  | stays =>
    rw [hclosed]
    simp
  | closes hc _ changed =>
    rw [if_pos hc.1]
    have := changed.doneCount_eq hc.1 rfl
    omega

theorem leads_settle (n : Nat) (hw : desk.store.get? w.id = some w)
    (hn : reach desk.store w ≤ n) : Leads (settle n w) desk
      (fun w' desk' => Rests desk w desk' ∧ w'.id = w.id ∧ desk'.store.get? w'.id = some w')
      (fun e desk' => Halts desk w e desk') := by
  induction n generalizing desk w with
  | zero =>
    unfold reach at hn
    split at hn <;> omega
  | succ n ih =>
    rw [settle, leads_bind]
    refine (leads_closeIfFinished hw).mono (fun w₁ desk₁ h => ?_) fun e desk₁ h => ?_
    · have hfound : desk₁.store.get? w₁.id = some w₁ := h.get?_eq hw
      rw [Store.leads_get_bind]
      cases hwaits : waitingParent? desk₁.store w₁ with
      | none => exact (leads_pure _).2 ⟨⟨_, _, _, .here _ _, h, hwaits⟩, h.id_eq, hfound⟩
      | some parent =>
        obtain ⟨hclosed, -, hparent, -⟩ := waitingParent?_eq_some.1 hwaits
        have hlt := h.reach_lt hwaits
        have hrest := ih hparent (by omega)
        rw [leads_bind, leads_discard]
        refine hrest.mono (fun _ desk₂ h₂ => ?_) fun e desk₂ h₂ => ?_
        · have hkept := h₂.1.keeps (P := fun d => d.store.get? w₁.id = some w₁)
            (fun hsettled => hsettled.get?_of_closed hclosed) hfound
          obtain ⟨⟨desk₃, x, x', hclimb, hend⟩, -⟩ := h₂
          exact (leads_pure _).2 ⟨⟨desk₃, x, x', .up h hwaits hclimb, hend⟩, h.id_eq, hkept⟩
        · obtain ⟨desk₃, x, hclimb, hstuck⟩ := h₂
          exact ⟨desk₃, x, .up h hwaits hclimb, hstuck⟩
    · exact ⟨_, _, .here _ _, h⟩

/-- The steps that a call is given bring its climb to an end. -/
theorem leads_settle_of_length (hw : desk.store.get? w.id = some w) :
    Leads (settle (desk.store.records.length + 2) w) desk (fun _ desk' => Rests desk w desk')
      (fun e desk' => Halts desk w e desk') :=
  (leads_settle _ hw (reach_le_length _ _)).mono (fun _ _ h => h.1) fun _ _ h => h

/-! ### Calls -/

inductive Request where
  | create (draft : Draft)
  | update (id : String) (patch : Patch)
  | start (id session : String)
  | markDone (id : String)
  | close (id : String)
  | delete (id : String)

def Request.run : Request → StoreM Work Work
  | create draft => Work.create draft
  | update id patch => Work.update id patch
  | start id session => Work.start id session
  | markDone id => Work.markDone id
  | close id => Work.close id
  | delete id => Work.delete id

/-- The item that a call patches, and the patch. -/
def Request.patch? : Request → Option (String × Patch)
  | update id patch => some (id, patch)
  | start id session => some (id, { status := some .inProgress, sessionId := some session })
  | markDone id => some (id, { status := some .done })
  | close id => some (id, closing)
  | create _ | delete _ => none

/-- What an answered call has done. -/
inductive Done (desk desk' : Desk Work) : Prop where
  | created {w : Work} (fresh : desk.store.get? w.id = none) (regular : Record.Regular w)
      (status : w.status = .open) (valid : validate w = .ok ())
      (committed : Committed desk (desk.store.records ++ [w]) (.created w) desk')
  | updated {id : String} {p : Patch} {w : Work} (status : p.status = none)
      (updated : Updated desk id p checkParent w desk')
  | settled {id : String} {p : Patch} {w : Work} {mid : Desk Work} (status : p.status.isSome)
      (updated : Updated desk id p checkParent w mid) (rests : Rests mid w desk')
  | deleted {w : Work} (edit : Edit desk.store.records desk'.store.records (.deleted w))
      (committed : Committed desk desk'.store.records (.deleted w) desk')

/-- What a failed call has done. -/
inductive Failed (q : Request) (desk : Desk Work) (e : StoreError) (desk' : Desk Work) : Prop where
  | idle (idle : Idle desk desk')
  | halted {id : String} {p : Patch} {w : Work} {mid : Desk Work}
      (asked : q.patch? = some (id, p)) (status : p.status.isSome)
      (updated : Updated desk id p checkParent w mid) (halts : Halts mid w e desk')

/-- An item was made from a draft, with a parent that is there. -/
structure Made (desk : Desk Work) (draft : Draft) (w : Work) (desk' : Desk Work) : Prop where
  fresh : desk.store.get? w.id = none
  draft : ∃ (t : Time.Instant) (priority : Priority),
    w = { ofDraft desk.host.nextId t.toStamp draft with priority }
  allowed : checkParent desk.store.records w = .ok ()
  valid : validate w = .ok ()
  committed : Committed desk (desk.store.records ++ [w]) (.created w) desk'

/-- Its times come from the clock. -/
theorem Made.regular {draft : Draft} (h : Made desk draft w desk') : Record.Regular w := by
  obtain ⟨t, priority, rfl⟩ := h.draft
  exact ⟨t.regular, t.regular⟩

/-- What is made of a draft is added to the items. -/
theorem Made.edit {draft : Draft} (h : Made desk draft w desk') :
    Edit desk.store.records (desk.store.records ++ [w]) (.created w) := .created h.fresh h.regular

theorem Made.status_eq {draft : Draft} (h : Made desk draft w desk') : w.status = .open := by
  obtain ⟨t, priority, rfl⟩ := h.draft
  rfl

/-- What `create` prepares: the parent is there, and an item without a priority has the last one. -/
theorem eq_of_prepared {draft : Draft} {existing : List Work}
    (h : (do
      checkParent existing w
      return if draft.priority.isSome then w else { w with priority := lastPriority existing }) =
        Except.ok (ε := StoreError) w') :
    checkParent existing w = .ok () ∧ w' = { w with
      priority := if draft.priority.isSome then w.priority else lastPriority existing } := by
  cases hparent : checkParent existing w with
  | error e =>
    rw [hparent] at h
    cases h
  | ok _ =>
    rw [hparent] at h
    obtain rfl := Except.ok.inj h
    refine ⟨rfl, ?_⟩
    split <;> rfl

theorem leads_create_made (draft : Draft) : Leads (create draft) desk
    (fun w desk' => Made desk draft w desk') (fun _ desk' => Idle desk desk') := by
  have h₁ : Idle desk { desk with host := desk.host.afterId } := ⟨rfl, rfl, .refl⟩
  rw [create, leads_bind, Store.newId, leads_modifyGet]
  refine (Store.leads_createWith _ draft _).mono (fun w desk₂ h₂ => ?_) fun _ _ h => h₁.trans h
  obtain ⟨fresh, ⟨t, hprepare⟩, hvalid, hcommitted⟩ := h₂
  -- the priority that the item may be given is no part of what is checked
  obtain ⟨hparent, rfl⟩ := eq_of_prepared hprepare
  exact ⟨fresh, ⟨t, _, rfl⟩, hparent, hvalid, h₁.committed hcommitted⟩

theorem leads_create (draft : Draft) : Leads (create draft) desk (fun _ desk' => Done desk desk')
    (fun _ desk' => Idle desk desk') :=
  (leads_create_made draft).imp fun _ _ h =>
    .created h.fresh h.regular h.status_eq h.valid h.committed

theorem update_of_updateWith {id : String} {p : Patch} (hp : p.status.isSome = true)
    (h : Store.updateWith id p checkParent desk = .ok w desk') :
    update id p desk = settle (desk'.store.records.length + 2) w desk' := by
  rw [update, bind_of_ok h, if_pos hp]
  rfl

theorem leads_update (q : Request) {id : String} {p : Patch} (hq : q.patch? = some (id, p)) :
    Leads (update id p) desk (fun _ desk' => Done desk desk')
      (fun e desk' => Failed q desk e desk') := by
  rw [update, leads_bind]
  refine (leads_updateWith id p checkParent).mono (fun w desk₁ h₁ => ?_) fun _ _ h => .idle h.1
  by_cases hp : p.status.isSome = true
  · simp only [if_pos hp]
    rw [Store.leads_get_bind]
    exact (leads_settle_of_length h₁.get?_eq).mono (fun _ _ h₂ => .settled hp h₁ h₂)
      fun _ _ h₂ => .halted hq hp h₁ h₂
  · simp only [if_neg hp]
    exact (leads_pure _).2 (.updated (Option.not_isSome_iff_eq_none.1 hp) h₁)

theorem leads_delete (id : String) : Leads (delete id) desk (fun _ desk' => Done desk desk')
    (fun _ desk' => Idle desk desk') :=
  (Store.leads_delete_edited id).imp fun _ _ h => .deleted h.2.edit h.2.committed

theorem Request.leads_run (q : Request) : Leads q.run desk (fun _ desk' => Done desk desk')
    (fun e desk' => Failed q desk e desk') := by
  cases q with
  | create draft => exact (leads_create draft).mono (fun _ _ h => h) fun _ _ h => .idle h
  | delete id => exact (leads_delete id).mono (fun _ _ h => h) fun _ _ h => .idle h
  | update id patch => exact leads_update _ rfl
  | start id session => exact leads_update _ rfl
  | markDone id => exact leads_update _ rfl
  | close id => exact leads_update _ rfl

end WorkQueue.Work
