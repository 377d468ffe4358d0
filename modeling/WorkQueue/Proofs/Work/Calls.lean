import WorkQueue.Proofs.Work.Filled

/-!
# Calls, however they end

A call does nothing, or it makes, deletes or patches one item. A patch is followed by closings, up
to where the cascade ends or halts. All that holds of these holds of every call, whether it is
answered, refused or fails on the disk.
-/

namespace WorkQueue.Work

open Store (Desk Idle Edited)

/-- What follows the change of an item: nothing, or a cascade that ends or halts. -/
inductive Followed (desk : Desk Work) (w : Work) : Desk Work → Prop where
  | stays : Followed desk w desk
  | rests {desk' : Desk Work} (rests : Rests desk w desk') : Followed desk w desk'
  | halts {e : StoreError} {desk' : Desk Work} (halts : Halts desk w e desk') :
      Followed desk w desk'

/-- What a call has done, in success or in failure. -/
inductive Performed (q : Request) (desk : Desk Work) : Desk Work → Prop where
  | idle {desk' : Desk Work} (idle : Idle desk desk') : Performed q desk desk'
  | created {draft : Draft} {w : Work} {desk' : Desk Work} (asked : q = .create draft)
      (made : Made desk draft w desk') : Performed q desk desk'
  | deleted {id : String} {w : Work} {desk' : Desk Work} (asked : q = .delete id)
      (edited : Edited desk (.deleted w) desk') : Performed q desk desk'
  | patched {id : String} {p : Patch} {w : Work} {mid desk' : Desk Work}
      (asked : q.patch? = some (id, p)) (updated : Updated desk id p checkParent w mid)
      (followed : Followed mid w desk') : Performed q desk desk'

/-- A call on a store, on whatever host and however it ends. -/
def Called (s s' : Store Work) : Prop :=
  ∃ (q : Request) (host : Host) (desk : Desk Work), Ends q.run ⟨s, host, []⟩ desk ∧ desk.store = s'

variable {q : Request} {desk desk' : Desk Work} {w : Work}

/-- What every closing keeps, and every call that does nothing, is kept by what follows a change. -/
theorem Followed.keeps {P : Desk Work → Prop} (h : Followed desk w desk')
    (hsettled : ∀ {d d' : Desk Work} {v v' : Work}, Settled d v v' d' → P d → P d')
    (hidle : ∀ {d d' : Desk Work}, Idle d d' → P d → P d') (hP : P desk) : P desk' := by
  cases h with
  | stays => exact hP
  | rests rests => exact rests.keeps hsettled hP
  | halts halts => exact halts.keeps hsettled hidle hP

theorem Followed.links_eq (h : Followed desk w desk') :
    links desk'.store.records = links desk.store.records := by
  cases h with
  | stays => rfl
  | rests rests => exact rests.links_eq
  | halts halts => exact halts.links_eq

theorem leads_update_followed (id : String) (p : Patch) : Leads (update id p) desk
    (fun _ desk' => ∃ w mid, Updated desk id p checkParent w mid ∧ Followed mid w desk')
    (fun _ desk' => Idle desk desk' ∨
      ∃ w mid, Updated desk id p checkParent w mid ∧ Followed mid w desk') := by
  rw [update, leads_bind]
  apply (leads_updateWith id p checkParent).mono
  · intro w mid hupdated
    by_cases hp : p.status.isSome = true
    · rw [if_pos hp]
      apply (leads_settle_of_length hupdated.get?_eq).mono
      · intro _ _ hrests
        exact ⟨w, mid, hupdated, .rests hrests⟩
      · intro _ _ hhalts
        exact Or.inr ⟨w, mid, hupdated, .halts hhalts⟩
    · rw [if_neg hp]
      exact (leads_pure _).2 ⟨w, mid, hupdated, .stays⟩
  · intro _ _ hfailed
    exact Or.inl hfailed.1

theorem Request.leads_performed (q : Request) :
    Leads q.run desk (fun _ => Performed q desk) fun _ => Performed q desk := by
  cases hpatch : q.patch? with
  | some asked =>
    obtain ⟨id, p⟩ := asked
    rw [run_of_patch? hpatch]
    apply (leads_update_followed id p).mono
    · rintro _ _ ⟨w, mid, hupdated, hfollowed⟩
      exact .patched hpatch hupdated hfollowed
    · rintro _ _ (hidle | ⟨w, mid, hupdated, hfollowed⟩)
      · exact .idle hidle
      · exact .patched hpatch hupdated hfollowed
  | none =>
    cases q with
    | create draft =>
      exact (leads_create_made draft).mono (fun _ _ h => .created rfl h) fun _ _ h => .idle h
    | delete id =>
      exact (Store.leads_delete_edited id).mono (fun _ _ h => .deleted rfl h.2) fun _ _ h => .idle h
    | update | start | markDone | close => cases hpatch

theorem performed_of_ends (h : Ends q.run desk desk') : Performed q desk desk' :=
  q.leads_performed.of_ends h

/-! ### What every call keeps -/

theorem Performed.sound (h : Performed q desk desk') (hs : Sound desk.store.records) :
    Sound desk'.store.records := by
  cases h with
  | idle idle => rwa [idle.store]
  | created _ made =>
    rw [made.committed.records_eq]
    apply hs.edit made.edit
    intro w hw
    exact Option.some.inj hw ▸ made.valid
  | deleted _ edited => exact hs.edit edited.edit fun _ hw => nomatch hw
  | patched _ updated followed =>
    apply followed.keeps (P := fun d => Sound d.store.records) Settled.sound
    · intro _ _ hidle hd
      rwa [hidle.store]
    · exact updated.sound hs

theorem Performed.relinked (h : Performed q desk desk') :
    Relinked desk.store.records desk'.store.records := by
  cases h with
  | idle idle => exact .kept (by rw [idle.store])
  | created _ made =>
    rw [made.committed.records_eq]
    apply Relinked.edited made.edit _ rfl
    intro w hw
    exact Option.some.inj hw ▸ made.allowed
  | deleted _ edited => exact .edited edited.edit (fun _ hw => nomatch hw) rfl
  | patched _ updated followed => exact updated.relinked.trans_links followed.links_eq

/-! ### Runs -/

variable {s s' : Store Work}

theorem Called.sound (h : Called s s') (hs : Sound s.records) : Sound s'.records := by
  obtain ⟨q, host, desk, hends, rfl⟩ := h
  exact (performed_of_ends hends).sound hs

theorem Called.relinked (h : Called s s') : Relinked s.records s'.records := by
  obtain ⟨q, host, desk, hends, rfl⟩ := h
  exact (performed_of_ends hends).relinked

theorem called_of_ok {host : Host} (h : q.run ⟨s, host, []⟩ = .ok w desk) : Called s desk.store :=
  ⟨q, host, desk, Or.inl ⟨w, h⟩, rfl⟩

theorem sound_of_calls {s₀ : Store Work} (hempty : s₀.records = []) {later : List (Store Work)}
    (hrun : (s₀ :: later).IsChain Called) : ∀ s ∈ s₀ :: later, Sound s.records := by
  apply hrun.induction (fun s => Sound s.records)
  · intro _ _ hcall hs
    exact hcall.sound hs
  · intro _
    rw [List.head_cons, hempty]
    exact sound_nil

end WorkQueue.Work
