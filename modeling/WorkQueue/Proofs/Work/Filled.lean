import WorkQueue.Proofs.Work.Parents

/-!
# Stores that were only added to and updated

Where items are made and changed, and none is deleted, ids are distinct, every item passes its
check, every parent is there, and the items stand in the order in which they were made.
-/

namespace WorkQueue.Work

open Store (Desk Edit)

variable {works works' : List Work} {added : List String} {w : Work} {desk desk' : Desk Work}

/-- A call has made an item, or has changed one where it is, and no parent was lost: the ids of the
items it has made. -/
inductive Grown (works : List Work) : List String → List Work → Prop where
  | kept : Grown works [] works
  | added {w : Work} (edit : Edit works (works ++ [w]) (.created w))
      (allowed : checkParent works w = .ok ()) : Grown works [w.id] (works ++ [w])
  | changed {previous next : Work} {mid works' : List Work}
      (edit : Edit works mid (.updated (some previous) next))
      (allowed : checkParent works next = .ok ()) (same : links works' = links mid) :
      Grown works [] works'

theorem not_orphans_of_edit {change : Change Work} (h : Edit works works' change)
    {v : Work} (hvalue : change.value? = some v) : ¬ Orphans works works' := by
  rintro ⟨p, hp, hgone, -⟩
  rcases h.exists_mem hp with ⟨x, hx, hid⟩ | ⟨removed, rfl, -⟩
  · exact hgone x hx hid
  · cases hvalue

theorem Linked.edit {change : Change Work} (hl : Linked works) (hs : Sound works)
    (h : Edit works works' change) {v : Work} (hvalue : change.value? = some v)
    (hallowed : checkParent works v = .ok ()) : Linked works' := by
  apply (hl.edit_iff hs h ?_).2 (not_orphans_of_edit h hvalue)
  intro w hw
  obtain rfl := Option.some.inj (hvalue.symm.trans hw)
  exact hallowed

theorem Grown.linked (h : Grown works added works') (hs : Sound works) (hl : Linked works) :
    Linked works' := by
  cases h with
  | kept => exact hl
  | added edit allowed => exact hl.edit hs edit rfl allowed
  | changed edit allowed same => exact (linked_congr same).2 (hl.edit hs edit rfl allowed)

theorem map_id_eq_of_links_eq (h : links works' = links works) :
    works'.map (·.id) = works.map (·.id) := by
  have hids := congrArg (List.map Prod.fst) h
  simp only [links, List.map_map] at hids
  exact hids

/-- What is made comes after what was there. -/
theorem Grown.map_id (h : Grown works added works') :
    works'.map (·.id) = works.map (·.id) ++ added := by
  cases h with
  | kept => exact (List.append_nil _).symm
  | added => rw [List.map_append, List.map_singleton]
  | changed edit _ same =>
    rw [map_id_eq_of_links_eq same, List.append_nil]
    cases edit with
    | @updated before after _ _ _ hid =>
      rw [List.map_append, List.map_append, List.map_cons, List.map_cons]
      exact congrArg (before.map (·.id) ++ · :: after.map (·.id)) hid

/-! ### Calls -/

/-- A call that makes an item or changes one. -/
def Request.Fills (q : Request) : Prop := ∀ id, q ≠ .delete id

/-- The ids of what a call has made that was answered with the item. -/
def Request.made : Request → Work → List String
  | create _, w => [w.id]
  | update .., _ | start .., _ | markDone _, _ | close _, _ | delete _, _ => []

theorem secures_create_grown (draft : Draft) : Secures (create draft) desk
    fun w desk' => Grown desk.store.records [w.id] desk'.store.records := by
  apply (leads_create_made draft).secures.imp
  intro w desk' hmade
  rw [hmade.committed.records_eq]
  exact .added hmade.edit hmade.allowed

theorem secures_update_grown (id : String) (p : Patch) : Secures (update id p) desk
    fun _ desk' => Grown desk.store.records [] desk'.store.records := by
  apply Secures.bind (leads_updateWith id p checkParent).secures
  intro w mid hupdated
  have hget := hupdated.get?_eq
  obtain ⟨-, -, allowed, -, changed⟩ := hupdated
  by_cases hp : p.status.isSome = true
  · rw [if_pos hp]
    apply (leads_settle_of_length hget).secures.imp
    intro _ _ hrests
    exact .changed changed.edit allowed hrests.links_eq
  · rw [if_neg hp]
    exact .changed changed.edit allowed rfl

theorem Request.secures_grown {q : Request} (hq : q.Fills) : Secures q.run desk
    fun w desk' => Grown desk.store.records (q.made w) desk'.store.records := by
  cases q with
  | create draft => exact secures_create_grown draft
  | delete id => exact absurd rfl (hq id)
  | update id patch => exact secures_update_grown id patch
  | start id session => exact secures_update_grown id _
  | markDone id => exact secures_update_grown id _
  | close id => exact secures_update_grown id _

theorem Halts.links_eq {e : StoreError} (h : Halts desk w e desk') :
    links desk'.store.records = links desk.store.records := by
  apply h.keeps (P := fun d => links d.store.records = links desk.store.records)
  · intro _ _ _ _ hsettled hd
    exact hsettled.links_eq.trans hd
  · intro _ _ hidle hd
    rwa [hidle.store]
  · rfl

/-- A call that fails may leave its change behind, and what it has closed by then. -/
theorem Failed.grown {q : Request} {e : StoreError} (h : Failed q desk e desk') :
    Grown desk.store.records [] desk'.store.records := by
  cases h with
  | idle idle =>
    rw [idle.store]
    exact .kept
  | halted _ _ updated halts =>
    obtain ⟨-, -, allowed, -, changed⟩ := updated
    exact .changed changed.edit allowed halts.links_eq

theorem Failed.sound {q : Request} {e : StoreError} (h : Failed q desk e desk')
    (hs : Sound desk.store.records) : Sound desk'.store.records := by
  cases h with
  | idle idle => exact idle.store ▸ hs
  | halted _ _ updated halts =>
    apply halts.keeps (P := fun d => Sound d.store.records) Settled.sound
    · intro _ _ hidle hs
      exact hidle.store ▸ hs
    · exact updated.sound hs

/-! ### Runs -/

/-- A store that was empty once, and has seen no calls but such: the ids of the items that were
made, in the order in which they were. -/
inductive Filled : List String → Store Work → Prop where
  | empty {s : Store Work} (records : s.records = []) : Filled [] s
  | answered {made : List String} {s : Store Work} {q : Request} {host : Host} {w : Work}
      {desk : Desk Work} (before : Filled made s) (fills : q.Fills)
      (run : q.run ⟨s, host, []⟩ = .ok w desk) : Filled (made ++ q.made w) desk.store
  | failed {made : List String} {s : Store Work} {q : Request} {host : Host} {e : StoreError}
      {desk : Desk Work} (before : Filled made s) (fills : q.Fills)
      (run : q.run ⟨s, host, []⟩ = .error e desk) : Filled made desk.store

variable {made : List String} {s : Store Work}

/-- Ids are distinct, every item passes its check, and every parent is there. -/
theorem Filled.sound_and_linked (h : Filled made s) : Sound s.records ∧ Linked s.records := by
  induction h with
  | empty hrecords =>
    rw [hrecords]
    exact ⟨sound_nil, fun _ hw => absurd hw List.not_mem_nil⟩
  | @answered _ s q host w desk _ fills run ih =>
    obtain ⟨hs, hl⟩ := ih
    have hgrown : Secures q.run (⟨s, host, []⟩ : Desk Work) _ := Request.secures_grown fills
    exact ⟨(Step.answered run).sound hs, (Leads.of_ok hgrown run).linked hs hl⟩
  | failed _ _ run ih =>
    obtain ⟨hs, hl⟩ := ih
    have hfailed := (Request.leads_run _).of_error run
    exact ⟨hfailed.sound hs, hfailed.grown.linked hs hl⟩

/-- The items stand in the order in which they were made. -/
theorem Filled.map_id (h : Filled made s) : s.records.map (·.id) = made := by
  induction h with
  | empty hrecords => rw [hrecords, List.map_nil]
  | @answered _ s q host w desk _ fills run ih =>
    have hgrown : Secures q.run (⟨s, host, []⟩ : Desk Work) _ := Request.secures_grown fills
    rw [(Leads.of_ok hgrown run).map_id, ih]
  | failed _ _ run ih =>
    rw [((Request.leads_run _).of_error run).grown.map_id, ih, List.append_nil]

end WorkQueue.Work
