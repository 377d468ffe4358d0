import WorkQueue.Proofs.Store.Unseen
import WorkQueue.Proofs.Work.Starting
import WorkQueue.Proofs.Work.Waiting

/-!
# Items in progress

No call opens an item again, or makes an item with an id that was there: the items age. A call that
does not ask for it moves none to in progress either: such a call is calm. A call that starts an
item moves one open item to in progress, by its only commit, or leaves the store as it was. All this
holds of every commit of a call, so also where a call is interrupted between two of them.
-/

namespace WorkQueue

namespace Work

open Record (Distinct)
open Store (Desk Committed Edit Idle Supplied Throughout Stays)

/-- How many items are in progress. -/
def activeCount (works : List Work) : Nat := works.countP (·.status = .inProgress)

/-- No item has opened again, and ids that are new were taken from the supply. -/
structure Aging (works : List Work) (supply : (Nat → String) × Nat) (works' : List Work)
    (supply' : (Nat → String) × Nat) : Prop where
  ids : supply'.1 = supply.1
  taken : supply.2 ≤ supply'.2
  known : ∀ w ∈ works', (∃ v ∈ works, v.id = w.id ∧ (w.status = .open → v.status = .open)) ∨
    ∃ n, supply.2 ≤ n ∧ n < supply'.2 ∧ w.id = supply.1 n
  distinct : Distinct works → Distinct works'

/-- No item has moved to in progress or back to open, and ids that are new were taken from the
supply. -/
structure Calm (works : List Work) (supply : (Nat → String) × Nat) (works' : List Work)
    (supply' : (Nat → String) × Nat) : Prop where
  active : activeCount works' ≤ activeCount works
  ids : supply'.1 = supply.1
  taken : supply.2 ≤ supply'.2
  known : ∀ w ∈ works', (∃ v ∈ works, v.id = w.id ∧ (w.status = .open → v.status = .open)) ∨
    ∃ n, supply.2 ≤ n ∧ n < supply'.2 ∧ w.id = supply.1 n
  distinct : Distinct works → Distinct works'

/-- An item has moved from open to in progress. -/
structure Begun (works : List Work) (previous next : Work) (works' : List Work) : Prop where
  edit : Edit works works' (.updated (some previous) next)
  before : previous.status = .open
  after : next.status = .inProgress

variable {works works' works'' : List Work} {supply supply' supply'' : (Nat → String) × Nat}
  {previous next w : Work} {desk desk' : Desk Work}

/-! ### Edits -/

theorem Aging.of_eq (ids : supply'.1 = supply.1) (taken : supply.2 ≤ supply'.2) :
    Aging works supply works supply' where
  ids := ids
  taken := taken
  known w hw := Or.inl ⟨w, hw, rfl, fun h => h⟩
  distinct h := h

theorem Aging.refl : Aging works supply works supply := .of_eq rfl (Nat.le_refl _)

theorem Aging.trans (h : Aging works supply works' supply')
    (h' : Aging works' supply' works'' supply'') : Aging works supply works'' supply'' where
  ids := h'.ids.trans h.ids
  taken := h.taken.trans h'.taken
  known w hw := by
    have htaken := h.taken
    have htaken' := h'.taken
    rcases h'.known w hw with ⟨v, hv, hvid, hopen⟩ | ⟨n, hle, hlt, hid⟩
    · rcases h.known v hv with ⟨u, hu, huid, hopen'⟩ | ⟨n, hle, hlt, hid⟩
      · exact Or.inl ⟨u, hu, huid.trans hvid, fun hw => hopen' (hopen hw)⟩
      · exact Or.inr ⟨n, hle, by omega, hvid.symm.trans hid⟩
    · exact Or.inr ⟨n, by omega, hlt, h.ids ▸ hid⟩
  distinct hd := h'.distinct (h.distinct hd)

/-- An item that does not open again. -/
theorem Aging.updated (h : Edit works works' (.updated (some previous) next))
    (hopen : next.status = .open → previous.status = .open) : Aging works supply works' supply where
  ids := rfl
  taken := Nat.le_refl _
  known w hw := by
    rcases h.mem_or_value hw with hw | hvalue
    · exact Or.inl ⟨w, hw, rfl, fun h => h⟩
    · obtain rfl := Option.some.inj hvalue
      cases h with
      | updated first same =>
        exact Or.inl ⟨previous, List.mem_append_right _ List.mem_cons_self, same.symm, hopen⟩
  distinct hd := h.distinct hd

theorem Begun.aging (h : Begun works previous next works') : Aging works supply works' supply := by
  apply Aging.updated h.edit
  intro _
  exact h.before

theorem Calm.aging (h : Calm works supply works' supply') : Aging works supply works' supply' :=
  ⟨h.ids, h.taken, h.known, h.distinct⟩

theorem Aging.calm (h : Aging works supply works' supply')
    (active : activeCount works' ≤ activeCount works) : Calm works supply works' supply' :=
  ⟨active, h.ids, h.taken, h.known, h.distinct⟩

theorem Calm.of_eq (ids : supply'.1 = supply.1) (taken : supply.2 ≤ supply'.2) :
    Calm works supply works supply' :=
  (Aging.of_eq ids taken).calm (Nat.le_refl _)

theorem Calm.refl : Calm works supply works supply := .of_eq rfl (Nat.le_refl _)

theorem Calm.trans (h : Calm works supply works' supply')
    (h' : Calm works' supply' works'' supply'') : Calm works supply works'' supply'' :=
  (h.aging.trans h'.aging).calm (h'.active.trans h.active)

theorem activeCount_append (works works' : List Work) :
    activeCount (works ++ works') = activeCount works + activeCount works' := List.countP_append

theorem activeCount_cons (w : Work) (works : List Work) :
    activeCount (w :: works) = activeCount works + if w.status = .inProgress then 1 else 0 := by
  simp [activeCount, List.countP_cons]

theorem activeCount_eq_zero_iff : activeCount works = 0 ↔ ∀ w ∈ works, w.status ≠ .inProgress := by
  simp [activeCount, List.countP_eq_zero]

/-- An item that stays in progress or leaves it, and does not open again. -/
theorem Calm.updated (h : Edit works works' (.updated (some previous) next))
    (hactive : next.status = .inProgress → previous.status = .inProgress)
    (hopen : next.status = .open → previous.status = .open) :
    Calm works supply works' supply := by
  apply (Aging.updated h hopen).calm
  cases h with
  | updated first same =>
    rw [activeCount_append, activeCount_append, activeCount_cons, activeCount_cons]
    by_cases hnext : next.status = .inProgress
    · rw [if_pos hnext, if_pos (hactive hnext)]
    · rw [if_neg hnext]
      omega

theorem Calm.deleted (h : Edit works works' (.deleted w)) : Calm works supply works' supply where
  active := by
    cases h with
    | deleted first =>
      rw [activeCount_append, activeCount_append, activeCount_cons]
      omega
  ids := rfl
  taken := Nat.le_refl _
  known w hw := by
    have hw := (h.mem_or_value hw).resolve_right fun hnone => nomatch hnone
    exact Or.inl ⟨w, hw, rfl, fun h => h⟩
  distinct hd := h.distinct hd

/-- An open item with the next id of the supply is new. -/
theorem Calm.created (h : Edit works works' (.created w)) (hopen : w.status = .open)
    (hid : w.id = supply.1 supply.2) :
    Calm works supply works' (supply.1, supply.2 + 1) where
  active := by
    cases h with
    | created fresh =>
      rw [activeCount_append, activeCount_cons, hopen]
      exact Nat.le_refl _
  ids := rfl
  taken := Nat.le_succ _
  known v hv := by
    rcases h.mem_or_value hv with hv | hvalue
    · exact Or.inl ⟨v, hv, rfl, fun h => h⟩
    · obtain rfl := Option.some.inj hvalue
      exact Or.inr ⟨supply.2, Nat.le_refl _, Nat.lt_succ_self _, hid⟩
  distinct hd := h.distinct hd

theorem Begun.activeCount_eq (h : Begun works previous next works') :
    activeCount works' = activeCount works + 1 := by
  obtain ⟨hedit, hbefore, hafter⟩ := h
  cases hedit with
  | updated first same =>
    rw [activeCount_append, activeCount_append, activeCount_cons, activeCount_cons, if_pos hafter,
      if_neg (by simp [hbefore])]
    omega

/-! ### Calls -/

/-- A call that is not asked to start an item. -/
def Request.Calms (q : Request) : Prop :=
  ∀ id p, q.patch? = some (id, p) → p.status ≠ some .inProgress

/-- An update keeps throughout what its patch gives and what every closing keeps. -/
theorem leads_update_throughout {Q : List Work → Prop} (id : String) (p : Patch)
    (h : Throughout Q desk)
    (hupdated : ∀ w desk', Updated desk id p checkParent w desk' → Q desk'.store.records)
    (hsettled : ∀ {d d' : Desk Work} {v v' : Work}, Settled d v v' d' → Q d.store.records →
      Q d'.store.records) :
    Leads (update id p) desk (fun _ desk' => Throughout Q desk')
      (fun _ desk' => Throughout Q desk') := by
  have hkept {d d' : Desk Work} {v v' : Work} (hs : Settled d v v' d') (hd : Throughout Q d) :
      Throughout Q d' := by
    have hQ := hsettled hs hd.last
    cases hs with
    | stays => exact hd
    | closes _ _ changed => exact hd.committed changed.committed hQ
  rw [update, leads_bind]
  apply (leads_updateWith id p checkParent).mono
  · intro w mid hmid
    have hthroughout : Throughout Q mid := by
      have hQ := hupdated w mid hmid
      obtain ⟨-, -, -, -, changed⟩ := hmid
      exact h.committed changed.committed hQ
    by_cases hp : p.status.isSome = true
    · rw [if_pos hp]
      apply (leads_settle_of_length hmid.get?_eq).mono
      · intro _ _ hrests
        exact hrests.keeps hkept hthroughout
      · intro _ _ hhalts
        exact hhalts.keeps hkept (fun hidle hd => hd.idle hidle) hthroughout
    · rw [if_neg hp]
      exact hthroughout
  · intro _ _ hrefused
    exact h.idle hrefused.1

theorem keeps_settle {I : Desk Work → Prop} (hI : Store.Blind I) (n : Nat) (w : Work) :
    Keeps I (settle n w) := by
  induction n generalizing w with
  | zero => exact keeps_pure w
  | succ n ih =>
    have hclose : Keeps I (closeIfFinished w) := by
      apply keeps_get_bind
      intro desk
      dsimp only
      split
      · exact Store.keeps_updateWith hI _ _ _
      · exact keeps_pure w
    apply hclose.bind
    intro w'
    apply keeps_get_bind
    intro desk
    cases waitingParent? desk.store w' with
    | none => exact keeps_pure w'
    | some parent =>
      apply Keeps.bind
      · intro desk' hdesk
        exact (leads_discard _).2 (ih parent desk' hdesk)
      · intro _
        exact keeps_pure w'

theorem keeps_update {I : Desk Work → Prop} (hI : Store.Blind I) (id : String) (p : Patch) :
    Keeps I (update id p) := by
  apply (Store.keeps_updateWith hI id p checkParent).bind
  intro w
  split
  · apply keeps_get_bind
    intro desk
    exact keeps_settle hI _ w
  · exact keeps_pure w

/-- What a patch that asks for no start makes of an item is in progress, or open, only if the item
was. -/
theorem Updated.calm {id : String} {p : Patch} (h : Updated desk id p checkParent w desk')
    (hp : p.status ≠ some .inProgress) :
    Calm desk.store.records supply desk'.store.records supply := by
  obtain ⟨-, patch, -, -, changed⟩ := h
  rcases status_of_patch patch with ⟨-, hsame⟩ | ⟨hasked, hmove⟩
  · exact .updated changed.edit (fun h => hsame.symm.trans h) fun h => hsame.symm.trans h
  · apply Calm.updated changed.edit
    · intro hnext
      exact absurd (hnext ▸ hasked) hp
    · intro hnext
      exact absurd hnext (ne_open_of_canMoveTo hmove)

/-- A patch opens no item again. -/
theorem Updated.aging {id : String} {p : Patch} (h : Updated desk id p checkParent w desk') :
    Aging desk.store.records supply desk'.store.records supply := by
  obtain ⟨-, patch, -, -, changed⟩ := h
  apply Aging.updated changed.edit
  intro hnext
  rcases status_of_patch patch with ⟨-, hsame⟩ | ⟨-, hmove⟩
  · exact hsame.symm.trans hnext
  · exact absurd hnext (ne_open_of_canMoveTo hmove)

theorem Settled.calm {w' : Work} (h : Settled desk w w' desk') :
    Calm desk.store.records supply desk'.store.records supply := by
  cases h with
  | stays => exact .refl
  | closes hc _ changed =>
    apply Calm.updated changed.edit
    · intro hnext
      cases hnext
    · intro hnext
      cases hnext

/-- What an update does not end, no item's closing ending it either, holds of every commit. -/
theorem leads_update_stays {P : List Work → (Nat → String) × Nat → Prop} {s : Store Work}
    {host : Host} (id : String) (p : Patch) (hstart : P s.records host.supply)
    (hupdated : ∀ w desk', Updated ⟨s, host, []⟩ id p checkParent w desk' →
      P desk'.store.records host.supply)
    (hsettled : ∀ {d d' : Desk Work} {v v' : Work}, Settled d v v' d' →
      P d.store.records host.supply → P d'.store.records host.supply) :
    Leads (update id p) ⟨s, host, []⟩ (fun _ desk' => Stays P desk')
      (fun _ desk' => Stays P desk') := by
  have hthroughout : Throughout (fun works' => P works' host.supply) ⟨s, host, []⟩ :=
    Store.throughout_start hstart
  have hkept := leads_update_throughout id p hthroughout hupdated hsettled
  have hsupplied := keeps_update (Store.blind_supplied _) id p _ (Store.supplied_start s host)
  apply (hkept.and hsupplied).mono
  · rintro _ _ ⟨hthroughout, hs⟩
    exact hthroughout.stays hs
  · rintro _ _ ⟨hthroughout, hs⟩
    exact hthroughout.stays hs

theorem leads_update_calm {s : Store Work} {host : Host} (id : String) (p : Patch)
    (hp : p.status ≠ some .inProgress) : Leads (update id p) ⟨s, host, []⟩
      (fun _ desk' => Stays (Calm s.records host.supply) desk')
      (fun _ desk' => Stays (Calm s.records host.supply) desk') :=
  leads_update_stays id p .refl (fun _ _ h => h.calm hp) fun h hcalm => hcalm.trans h.calm

theorem leads_update_aging {s : Store Work} {host : Host} (id : String) (p : Patch) :
    Leads (update id p) ⟨s, host, []⟩
      (fun _ desk' => Stays (Aging s.records host.supply) desk')
      (fun _ desk' => Stays (Aging s.records host.supply) desk') :=
  leads_update_stays id p .refl (fun _ _ h => h.aging) fun h haging => haging.trans h.calm.aging

theorem leads_create_calm {s : Store Work} {host : Host} (draft : Draft) :
    Leads (create draft) ⟨s, host, []⟩ (fun _ desk' => Stays (Calm s.records host.supply) desk')
      (fun _ desk' => Stays (Calm s.records host.supply) desk') := by
  have hstart : Throughout (fun works' => Calm s.records host.supply works' host.afterId.supply)
      ⟨s, host, []⟩ := Store.throughout_start (.of_eq rfl (Nat.le_succ _))
  have hsupplied : Leads (create draft) (⟨s, host, []⟩ : Desk Work)
      (fun _ desk' => Supplied host.afterId.supply desk')
      (fun _ desk' => Supplied host.afterId.supply desk') := by
    have hkeeps := Store.keeps_createWith (R := Work) (Store.blind_supplied host.afterId.supply)
    rw [create, leads_bind, Store.newId, leads_modifyGet]
    exact hkeeps _ draft _ _ (Store.supplied_start s host.afterId)
  apply ((leads_create_made draft).and hsupplied).mono
  · rintro w desk' ⟨hmade, hs⟩
    have hcalm : Calm s.records host.supply desk'.store.records host.afterId.supply := by
      rw [hmade.committed.records_eq]
      apply Calm.created hmade.edit hmade.status_eq
      obtain ⟨_, _, rfl⟩ := hmade.draft
      rfl
    exact (hstart.committed hmade.committed hcalm).stays hs
  · rintro _ desk' ⟨hidle, hs⟩
    exact (hstart.idle hidle).stays hs

theorem leads_delete_calm {s : Store Work} {host : Host} (id : String) :
    Leads (delete id) ⟨s, host, []⟩ (fun _ desk' => Stays (Calm s.records host.supply) desk')
      (fun _ desk' => Stays (Calm s.records host.supply) desk') := by
  have hstart : Throughout (fun works' => Calm s.records host.supply works' host.supply)
      ⟨s, host, []⟩ := Store.throughout_start .refl
  have hsupplied := Store.keeps_delete (Store.blind_supplied host.supply) id _
    (Store.supplied_start s host)
  apply ((Store.leads_delete_edited (R := Work) id).and hsupplied).mono
  · rintro w desk' ⟨⟨-, hedited⟩, hs⟩
    exact (hstart.committed hedited.committed (.deleted hedited.edit)).stays hs
  · rintro _ desk' ⟨hidle, hs⟩
    exact (hstart.idle hidle).stays hs

/-- A call that is not asked to start an item is calm throughout. -/
theorem Request.leads_run_calm {q : Request} (hq : q.Calms) {s : Store Work} {host : Host} :
    Leads q.run ⟨s, host, []⟩ (fun _ desk' => Stays (Calm s.records host.supply) desk')
      (fun _ desk' => Stays (Calm s.records host.supply) desk') := by
  cases q with
  | create draft => exact leads_create_calm draft
  | delete id => exact leads_delete_calm id
  | update id patch => exact leads_update_calm id patch (hq _ _ rfl)
  | start id session => exact leads_update_calm id _ (hq _ _ rfl)
  | markDone id => exact leads_update_calm id _ (hq _ _ rfl)
  | close id => exact leads_update_calm id _ (hq _ _ rfl)

/-- Whatever is asked, the items age throughout. -/
theorem Request.leads_run_aging (q : Request) {s : Store Work} {host : Host} :
    Leads q.run ⟨s, host, []⟩ (fun _ desk' => Stays (Aging s.records host.supply) desk')
      (fun _ desk' => Stays (Aging s.records host.supply) desk') := by
  have hcalm {desk' : Desk Work} (h : Stays (Calm s.records host.supply) desk') :
      Stays (Aging s.records host.supply) desk' := h.imp fun _ _ h => h.aging
  cases q with
  | create draft => exact (leads_create_calm draft).mono (fun _ _ => hcalm) fun _ _ => hcalm
  | delete id => exact (leads_delete_calm id).mono (fun _ _ => hcalm) fun _ _ => hcalm
  | update id patch => exact leads_update_aging id patch
  | start id session => exact leads_update_aging id _
  | markDone id => exact leads_update_aging id _
  | close id => exact leads_update_aging id _

/-! ### Starting -/

/-- No identity was taken, and the items are as they were, or one has begun. -/
structure Starts (works : List Work) (supply : (Nat → String) × Nat) (works' : List Work)
    (supply' : (Nat → String) × Nat) : Prop where
  supply : supply' = supply
  items : works' = works ∨ ∃ previous next, Begun works previous next works'

/-- Starting an item changes one that is open, or does nothing. -/
theorem leads_start_changed (id session : String) : Leads (start id session) desk
    (fun next desk' => ∃ previous, Changed desk previous next desk' ∧
      previous.status = .open ∧ next.status = .inProgress)
    (fun _ desk' => Idle desk desk') := by
  rw [start, update, leads_bind]
  apply (leads_updateWith id (starting session) checkParent).mono
  · rintro _ desk₁ ⟨found, patch, -, -, changed⟩
    rename_i previous patched t
    have hmoved := (status_of_patch patch).resolve_left fun h => Option.some_ne_none _ h.1
    have hstatus : patched.status = .inProgress := (Option.some.inj hmoved.1).symm
    have hbefore : previous.status = .open := eq_open_of_canMoveTo (hstatus ▸ hmoved.2)
    have hactive : ({ patched with updatedAt := t } : Work).status = .inProgress := hstatus
    change Leads (get >>= fun desk => settle (desk.store.records.length + 2) _) desk₁ _ _
    rw [Store.leads_get_bind]
    apply (leads_settle_of_inProgress _ hactive).imp
    rintro _ _ ⟨rfl, rfl⟩
    exact ⟨previous, changed, hbefore, hstatus⟩
  · rintro _ desk₁ ⟨hidle, -⟩
    exact hidle

/-- Starting an item begins it, or does nothing; either holds of every commit. -/
theorem leads_start_begun {s : Store Work} {host : Host} (id session : String) :
    Leads (start id session) ⟨s, host, []⟩
      (fun next desk' => (∃ previous, Begun s.records previous next desk'.store.records) ∧
        Stays (Starts s.records host.supply) desk')
      (fun _ desk' => desk'.store.records = s.records ∧
        Stays (Starts s.records host.supply) desk') := by
  have hstart : Throughout (fun works' => Starts s.records host.supply works' host.supply)
      ⟨s, host, []⟩ := Store.throughout_start ⟨rfl, Or.inl rfl⟩
  have hsupplied := keeps_update (Store.blind_supplied host.supply) id (starting session) _
    (Store.supplied_start s host)
  apply ((leads_start_changed id session).and hsupplied).mono
  · rintro next desk' ⟨⟨previous, changed, hbefore, hstatus⟩, hs⟩
    have hbegun : Begun s.records previous next desk'.store.records :=
      ⟨changed.edit, hbefore, hstatus⟩
    have hstarts : Starts s.records host.supply desk'.store.records host.supply :=
      ⟨rfl, Or.inr ⟨previous, next, hbegun⟩⟩
    exact ⟨⟨previous, hbegun⟩, (hstart.committed changed.committed hstarts).stays hs⟩
  · rintro _ desk' ⟨hidle, hs⟩
    exact ⟨congrArg Store.records hidle.store, (hstart.idle hidle).stays hs⟩

end Work

end WorkQueue
