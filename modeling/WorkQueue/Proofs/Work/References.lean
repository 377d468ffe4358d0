import WorkQueue.Proofs.Work.Parents
import WorkQueue.Record.Role

/-!
# References of work items

An item refers to its parent and, as long as it is not finished, to the role that it is for. An
edit keeps all references whole if it gives an item only references that lead somewhere and deletes
no item that has children. No status goes back, so that an item which has stopped to need its role
never needs it again.

The calls of a store keep the references whole at every commit that they make, also where they fail
in the middle.
-/

namespace WorkQueue.Work

open Store (Desk Committed Edit Idle)

/-- The parent of the item is there, and its role too unless the item is finished. -/
structure Refers (works : List Work) (roles : List Role) (w : Work) : Prop where
  parent : ∀ id, w.parentId = some id → ∃ p ∈ works, p.id = id
  role : w.status = .open ∨ w.status = .inProgress →
    ∀ id, w.roleId = some id → ∃ r ∈ roles, r.id = id

/-- Every reference leads somewhere. -/
def Resolved (works : List Work) (roles : List Role) : Prop := ∀ w ∈ works, Refers works roles w

variable {works works' : List Work} {roles roles' : List Role} {w w' previous next : Work}

/-! ### Edits -/

theorem resolved_nil (roles : List Role) : Resolved [] roles :=
  fun _ hw => absurd hw List.not_mem_nil

theorem Resolved.edited {change : Change Work} (h : Resolved works roles)
    (hedit : Edit works works' change)
    (hvalue : ∀ w, change.value? = some w → Refers works roles w)
    (hkept : ∀ removed, change = .deleted removed → ∀ c ∈ works, c.parentId ≠ some removed.id) :
    Resolved works' roles := by
  intro w hw
  have hbefore : Refers works roles w := by
    rcases hedit.mem_or_value hw with hw | hw
    · exact h w hw
    · exact hvalue w hw
  refine ⟨?_, hbefore.role⟩
  intro id hid
  obtain ⟨p, hp, rfl⟩ := hbefore.parent id hid
  rcases hedit.exists_mem hp with hfound | ⟨removed, rfl, hpid⟩
  · exact hfound
  · have hw : w ∈ works := (hedit.mem_or_value hw).resolve_right fun hnone => nomatch hnone
    have hparent : w.parentId = some removed.id := hid.trans (congrArg some hpid)
    exact absurd hparent (hkept removed rfl w hw)

/-- Roles may come and change, and those that nothing unfinished needs may go. -/
theorem Resolved.roles_edited {change : Change Role} (h : Resolved works roles)
    (hedit : Edit roles roles' change)
    (hkept : ∀ removed, change = .deleted removed →
      ∀ w ∈ works, w.status = .open ∨ w.status = .inProgress → w.roleId ≠ some removed.id) :
    Resolved works roles' := by
  intro w hw
  refine ⟨(h w hw).parent, ?_⟩
  intro hstatus id hid
  obtain ⟨r, hr, rfl⟩ := (h w hw).role hstatus id hid
  rcases hedit.exists_mem hr with hfound | ⟨removed, rfl, hrid⟩
  · exact hfound
  · have hrole : w.roleId = some removed.id := hid.trans (congrArg some hrid)
    exact absurd hrole (hkept removed rfl w hw hstatus)

theorem eq_of_clearable {s id : String} (h : clearable s = some id) : s = id ∧ id ≠ "" := by
  unfold clearable at h
  split at h
  · cases h
  · next hne =>
    obtain rfl := Option.some.inj h
    exact ⟨rfl, hne⟩

theorem Made.refers {desk desk' : Desk Work} {draft : Draft} (h : Made desk draft w desk')
    (hrole : ∀ id, draft.roleId = some id → ∃ r ∈ roles, r.id = id) :
    Refers desk.store.records roles w := by
  constructor
  · intro id hid
    exact exists_of_checkParent h.allowed hid
  · intro _ id hid
    obtain ⟨_, _, rfl⟩ := h.draft
    obtain ⟨s, hs, hcleared⟩ := Option.bind_eq_some_iff.1 hid
    obtain ⟨rfl, -⟩ := eq_of_clearable hcleared
    exact hrole s hs

/-- What is not finished after a patch was not finished before. -/
theorem unfinished_of_patch {p : Patch} (h : patch p previous = .ok next)
    (hnext : next.status = .open ∨ next.status = .inProgress) :
    previous.status = .open ∨ previous.status = .inProgress := by
  rcases status_of_patch h with ⟨-, hsame⟩ | ⟨-, hmove⟩
  · rwa [hsame] at hnext
  · rcases hnext with hnext | hnext
    · exact absurd hnext (ne_open_of_canMoveTo hmove)
    · exact Or.inl (eq_open_of_canMoveTo (hnext ▸ hmove))

theorem Refers.patched {p : Patch} (h : Refers works roles previous)
    (hpatch : patch p previous = .ok next) (hallowed : checkParent works next = .ok ())
    (hrole : ∀ id, p.roleId = some id → id ≠ "" → ∃ r ∈ roles, r.id = id) :
    Refers works roles next := by
  constructor
  · intro id hid
    exact exists_of_checkParent hallowed hid
  · intro hstatus id hid
    rw [eq_patched_of_patch hpatch] at hid
    cases hp : p.roleId with
    | none =>
      simp only [Work.patched, hp, patchedReference] at hid
      exact h.role (unfinished_of_patch hpatch hstatus) id hid
    | some s =>
      simp only [Work.patched, hp, patchedReference] at hid
      obtain ⟨rfl, hne⟩ := eq_of_clearable hid
      exact hrole s hp hne

theorem Refers.closedAt (h : Refers works roles w) (t : Time.Stamp) :
    Refers works roles (w.closedAt t) where
  parent := h.parent
  role hstatus := by rcases hstatus with hstatus | hstatus <;> cases hstatus

/-! ### Calls -/

/-- The items in memory are those on disk, and with the roles on disk every reference leads
somewhere. -/
structure Tended (data : Location) (loaded : Index.Loaded Role) (desk : Desk Work) : Prop where
  index : desk.store.index = Index.ofData Work data
  works : (Index.ofData Work data).Holds desk.host.disk ⟨desk.store.records, desk.store.digest⟩
  roles : (Index.ofData Role data).Holds desk.host.disk loaded
  resolved : Resolved desk.store.records loaded.records

variable {data : Location} {loaded : Index.Loaded Role} {desk desk' mid : Desk Work}

theorem Tended.idle (h : Tended data loaded desk) (hidle : Idle desk desk') :
    Tended data loaded desk' := by
  have hdisk := hidle.disk
  rw [h.index] at hdisk
  have hworks := h.works.of_content?_eq hdisk.content?_eq
  have hroles := h.roles.of_content?_eq (hdisk.rewritten.content?_eq (R := Role) (by decide))
  rw [← hidle.store] at hworks
  exact ⟨hidle.store ▸ h.index, hworks, hroles, hidle.store ▸ h.resolved⟩

theorem Tended.committed {records : List Work} {change : Change Work}
    (h : Tended data loaded desk) (hedit : Edit desk.store.records records change)
    (hcommitted : Committed desk records change desk')
    (hresolved : Resolved records loaded.records) : Tended data loaded desk' := by
  have hdisk := hcommitted.disk
  have hworks := hcommitted.holds (hedit.allRegular h.works.allRegular)
  rw [h.index] at hdisk hworks
  have hroles := h.roles.of_content?_eq (hdisk.content?_eq (R := Role) (by decide))
  exact ⟨hcommitted.index_eq.trans h.index, hworks, hroles, hcommitted.records_eq ▸ hresolved⟩

theorem Tended.changed (h : Tended data loaded desk) (hchanged : Changed desk w w' desk')
    (hrefers : Refers desk.store.records loaded.records w') : Tended data loaded desk' := by
  apply h.committed hchanged.edit hchanged.committed
  apply h.resolved.edited hchanged.edit
  · intro v hv
    obtain rfl := Option.some.inj hv
    exact hrefers
  · intro _ hdeleted
    cases hdeleted

theorem Tended.updated {id : String} {p : Patch} (h : Tended data loaded desk)
    (hrole : ∀ id, p.roleId = some id → id ≠ "" → ∃ r ∈ loaded.records, r.id = id)
    (hupdated : Updated desk id p checkParent w desk') : Tended data loaded desk' := by
  obtain ⟨found, patch, allowed, -, changed⟩ := hupdated
  have hprevious := h.resolved _ (Record.mem_of_find? found)
  have hnext := hprevious.patched patch allowed hrole
  exact h.changed changed ⟨hnext.parent, hnext.role⟩

theorem Tended.settled (h : Tended data loaded desk) (hsettled : Settled desk w w' desk') :
    Tended data loaded desk' := by
  cases hsettled with
  | stays => exact h
  | closes hc _ changed =>
    have hmem := Record.mem_of_find? (get?_of_edit changed.edit).1
    exact h.changed changed ((h.resolved _ hmem).closedAt _)

theorem leads_create_tended (draft : Draft) (h : Tended data loaded desk)
    (hrole : ∀ id, draft.roleId = some id → ∃ r ∈ loaded.records, r.id = id) :
    Leads (create draft) desk (fun _ desk' => Tended data loaded desk')
      (fun _ desk' => Tended data loaded desk') := by
  apply (leads_create_made draft).mono
  · intro w desk' hmade
    apply h.committed hmade.edit hmade.committed
    apply h.resolved.edited hmade.edit
    · intro v hv
      obtain rfl := Option.some.inj hv
      exact hmade.refers hrole
    · intro _ hdeleted
      cases hdeleted
  · intro _ desk' hidle
    exact h.idle hidle

theorem leads_update_tended (id : String) (p : Patch) (h : Tended data loaded desk)
    (hrole : ∀ id, p.roleId = some id → id ≠ "" → ∃ r ∈ loaded.records, r.id = id) :
    Leads (update id p) desk (fun _ desk' => Tended data loaded desk')
      (fun _ desk' => Tended data loaded desk') := by
  rw [update, leads_bind]
  apply (leads_updateWith id p checkParent).mono
  · intro w mid hupdated
    have hmid := h.updated hrole hupdated
    by_cases hp : p.status.isSome = true
    · rw [if_pos hp]
      apply (leads_settle_of_length hupdated.get?_eq).mono
      · intro _ _ hrests
        exact hrests.keeps (fun hsettled hd => hd.settled hsettled) hmid
      · intro _ _ hhalts
        exact hhalts.keeps (fun hsettled hd => hd.settled hsettled) (fun hidle hd => hd.idle hidle)
          hmid
    · rw [if_neg hp]
      exact hmid
  · intro _ desk' hrefused
    exact h.idle hrefused.1

theorem leads_delete_tended (id : String) (h : Tended data loaded desk)
    (hkept : ∀ c ∈ desk.store.records, c.parentId ≠ some id) :
    Leads (delete id) desk (fun _ desk' => Tended data loaded desk')
      (fun _ desk' => Tended data loaded desk') := by
  apply (Store.leads_delete_edited (R := Work) id).mono
  · intro w desk' hdeleted
    obtain ⟨rfl, hedited⟩ := hdeleted
    apply h.committed hedited.edit hedited.committed
    apply h.resolved.edited hedited.edit
    · intro _ hnone
      cases hnone
    · intro removed hremoved
      cases hremoved
      exact hkept
  · intro _ desk' hidle
    exact h.idle hidle

end WorkQueue.Work
