import WorkQueue.Proofs.Work.Cascade

/-!
# Starting an item

An item that is started moves from open to in progress and is bound to a session. That closes
nothing, so the call makes one commit and changes one item.
-/

namespace WorkQueue.Work

open Time
open Record (Distinct)
open Store (Desk Idle)

variable {desk desk' : Desk Work} {w w' : Work} {session : String}

/-- The item after it was started. -/
def startedAt (t : Stamp) (session : String) (w : Work) : Work :=
  { w with status := .inProgress, sessionId := some session, updatedAt := t }

/-- A change to a status that is neither done nor closed closes nothing. -/
theorem leads_settle_of_inProgress (n : Nat) (hw : w.status = .inProgress)
    {failed : StoreError → Desk Work → Prop} :
    Leads (settle n w) desk (fun w' desk' => w' = w ∧ desk' = desk) failed := by
  have hdone : ¬ (w.status = .done ∧ ¬ hasUnclosedChildren desk.store w.id = true) := by simp [hw]
  have hclosed : ¬ w.status = .closed := by simp [hw]
  have hparent : waitingParent? desk.store w = none := if_neg hclosed
  cases n with
  | zero => exact (leads_pure _).2 ⟨rfl, rfl⟩
  | succ n =>
    rw [settle, leads_bind, closeIfFinished, Store.leads_get_bind]
    dsimp only
    rw [if_neg hdone, leads_pure, Store.leads_get_bind, hparent]
    exact (leads_pure _).2 ⟨rfl, rfl⟩

def starting (session : String) : Patch :=
  { status := some .inProgress, sessionId := some session }

theorem patch_starting {next : Work} (hsession : session ≠ "")
    (h : Work.patch (starting session) w = .ok next) :
    next = { w with status := .inProgress, sessionId := some session } := by
  have hbound : patchedReference w.sessionId (some session) = some session := if_neg hsession
  simp only [Work.patch, starting] at h
  split at h
  · obtain rfl := Except.ok.inj h
    simp only [patched, hbound]
    rfl
  · cases h

theorem Updated.starting {veto : List Work → Work → Except StoreError Unit}
    (hfound : desk.store.get? w.id = some w) (hsession : session ≠ "")
    (h : Updated desk w.id (starting session) veto w' desk') :
    (∃ t, w' = w.startedAt t session) ∧ Changed desk w w' desk' := by
  obtain ⟨found, patch, -, -, changed⟩ := h
  obtain rfl := Option.some.inj (hfound.symm.trans found)
  obtain rfl := patch_starting hsession patch
  exact ⟨⟨_, rfl⟩, changed⟩

/-- Starting an item that is there changes it and no other, or leaves the store as it was. -/
theorem leads_start (hd : Distinct desk.store.records) (hw : w ∈ desk.store.records)
    (hsession : session ≠ "") : Leads (start w.id session) desk
      (fun w' desk' => (∃ t, w' = w.startedAt t session) ∧ Changed desk w w' desk')
      (fun _ desk' => Idle desk desk') := by
  rw [start, update, leads_bind]
  apply (leads_updateWith w.id (starting session) checkParent).mono
  · intro w₁ desk₁ hupdated
    obtain ⟨⟨t, hw₁⟩, hchanged⟩ := hupdated.starting (hd.find?_of_mem hw) hsession
    have hstatus : w₁.status = .inProgress := congrArg Work.status hw₁
    change Leads (get >>= fun desk => settle (desk.store.records.length + 2) w₁) desk₁ _ _
    rw [Store.leads_get_bind]
    apply (leads_settle_of_inProgress _ hstatus).imp
    rintro _ _ ⟨rfl, rfl⟩
    exact ⟨⟨t, hw₁⟩, hchanged⟩
  · rintro _ _ ⟨hidle, -⟩
    exact hidle

end WorkQueue.Work
