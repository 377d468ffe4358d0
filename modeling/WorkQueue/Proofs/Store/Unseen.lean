import WorkQueue.Proofs.Store.Calls
import WorkQueue.Proofs.Store.Refusal

/-!
# What calls do not see

A call on a store edits the records, writes them, reads the clock and announces what it did. What
none of that changes, no call changes, however it ends: what the disk permits from now on, for one,
and the supply of identities, unless the call takes an identity from it.
-/

namespace WorkQueue

/-- The supply of identities, and how many have been taken. -/
def Host.supply (h : Host) : (Nat → String) × Nat := (h.ids, h.minted)

namespace Store

open Disk

variable {R : Type} [Record R]

/-- Nothing that a call does without an identity tells on this. -/
structure Blind (I : Desk R → Prop) : Prop where
  store {desk : Desk R} (s : Store R) (same : s.index = desk.store.index) (h : I desk) :
    I { desk with store := s }
  clock {desk : Desk R} (h : I desk) : I { desk with host := desk.host.afterTime }
  write {desk : Desk R} (records : List R) (h : I desk) :
    Leads (desk.store.index.write records) desk.host.disk
      (fun _ disk => I { desk with host := { desk.host with disk } })
      (fun _ disk => I { desk with host := { desk.host with disk } })
  announced {desk : Desk R} (events : List (Event R)) (h : I desk) :
    I { desk with commits := desk.commits ++ [⟨events, desk.store, desk.host⟩] }

section Blind

variable {I : Desk R → Prop} (hI : Blind I)

include hI

theorem keeps_edit (f : List R → List R) : Keeps I (edit f) :=
  keeps_modify fun _ h => hI.store _ rfl h

theorem keeps_announce (changes : List (Change R)) : Keeps I (announce changes) :=
  keeps_modify fun _ h => hI.announced _ h

theorem keeps_persist : Keeps I (persist (R := R)) := by
  intro desk h
  rw [persist, leads_get_bind, leads_bind, leads_onDisk]
  apply (hI.write desk.store.records h).imp
  intro _ _ h₁
  exact (leads_modify _).2 (hI.store _ rfl h₁)

theorem keeps_commit (redo undo : List R → List R) (change : Change R) :
    Keeps I (commit redo undo change) := by
  apply (keeps_edit hI redo).bind
  intro _
  apply Keeps.bind
  · apply (keeps_persist hI).tryCatch
    intro e
    apply (keeps_edit hI undo).bind
    intro _
    exact keeps_throw e
  · intro _
    exact keeps_announce hI [change]

omit hI in
theorem keeps_check (r : R) : Keeps I (check r) := by
  intro desk h
  exact (leads_check r).mono (fun _ _ hc => hc.1 ▸ h) fun _ _ hc => hc.1 ▸ h

omit hI in
theorem keeps_locate (s : Store R) (id : String) : Keeps I (locate s id) := by
  intro desk h
  exact (leads_locate s id).mono (fun _ _ hc => hc.1 ▸ h) fun _ _ hc => hc.1 ▸ h

theorem keeps_now : Keeps I (now (R := R)) := keeps_modifyGet fun _ h => hI.clock h

theorem keeps_createWith (id : String) (draft : Record.Draft R)
    (prepare : List R → R → Except StoreError R) : Keeps I (createWith id draft prepare) := by
  apply keeps_get_bind
  intro desk
  by_cases hid : (desk.store.get? id).isSome = true
  · rw [if_pos hid]
    exact keeps_throw _
  rw [if_neg hid]
  apply (keeps_now hI).bind
  intro t
  apply (keeps_ofExcept _).bind
  intro r
  apply (keeps_check r).bind
  intro _
  apply (keeps_commit hI _ _ _).bind
  intro _
  exact keeps_pure r

theorem keeps_updateWith (id : String) (patch : Record.Patch R)
    (veto : List R → R → Except StoreError Unit) : Keeps I (updateWith id patch veto) := by
  apply keeps_get_bind
  intro desk
  apply (keeps_locate _ id).bind
  intro ⟨i, previous⟩
  apply (keeps_ofExcept _).bind
  intro next
  apply (keeps_ofExcept _).bind
  intro _
  apply (keeps_check next).bind
  intro _
  apply (keeps_now hI).bind
  intro t
  apply (keeps_commit hI _ _ _).bind
  intro _
  exact keeps_pure _

theorem keeps_create (id : String) (draft : Record.Draft R) : Keeps I (create id draft) :=
  keeps_createWith hI id draft _

theorem keeps_update (id : String) (patch : Record.Patch R) : Keeps I (update id patch) :=
  keeps_updateWith hI id patch _

theorem keeps_delete (id : String) : Keeps I (delete (R := R) id) := by
  apply keeps_get_bind
  intro desk
  apply (keeps_locate _ id).bind
  intro ⟨i, removed⟩
  apply (keeps_commit hI _ _ _).bind
  intro _
  exact keeps_pure removed

end Blind

/-! ### Identities and passes -/

/-- Nothing tells on this either where an identity is taken or the index is read. -/
structure Detached (I : Desk R → Prop) : Prop extends Blind I where
  id {desk : Desk R} (h : I desk) : I { desk with host := desk.host.afterId }
  read {desk : Desk R} (h : I desk) :
    Leads (desk.store.index.read (R := R)) desk.host.disk
      (fun _ disk => I { desk with host := { desk.host with disk } })
      (fun _ disk => I { desk with host := { desk.host with disk } })

section Detached

variable {I : Desk R → Prop} (hI : Detached I)

include hI

theorem keeps_newId : Keeps I (newId (R := R)) := keeps_modifyGet fun _ h => hI.id h

theorem keeps_readIndex : Keeps I (readIndex (R := R)) := by
  intro desk h
  rw [readIndex, leads_get_bind, leads_bind, leads_onDisk]
  exact (hI.read h).mono (fun _ _ h => (leads_pure _).2 h) fun _ _ h => h

theorem keeps_absorb (reading : Reading R) : Keeps I (absorb reading) := by
  intro desk h
  rw [absorb, leads_get_bind]
  by_cases hg : desk.store.generation ≠ reading.generation
  · rw [if_pos hg]
    exact (leads_pure _).2 h
  rw [if_neg hg]
  by_cases hc : (Change.diff desk.store.records reading.loaded.records).isEmpty = true
  · rw [if_pos hc, leads_bind, leads_modify]
    exact (leads_pure _).2 (hI.store _ rfl h)
  · rw [if_neg hc, leads_bind, leads_modify]
    have hannounce := keeps_announce hI.toBlind
      (Change.diff desk.store.records reading.loaded.records)
    refine Leads.bind (hannounce _ (hI.store _ ?_ h)) ?_
    · rfl
    · intro _ _ h₁
      exact (leads_pure _).2 h₁

theorem keeps_reconcile : Keeps I (reconcile (R := R)) := by
  apply (keeps_readIndex hI).bind
  intro reading
  apply keeps_get_bind
  intro desk
  by_cases hd : reading.loaded.digest = desk.store.digest
  · rw [if_pos hd]
    exact keeps_pure _
  · rw [if_neg hd]
    exact keeps_absorb hI reading

end Detached

/-! ### The disk -/

/-- What the system permits, it still permits. -/
theorem detached_lenient (d : Disk) : Detached fun desk : Desk R => d.Lenient desk.host.disk where
  store _ _ h := h
  clock h := h
  write {desk} records h := Index.keeps_indexWrite records desk.host.disk h
  announced _ h := h
  id h := h
  read {desk} h := Index.keeps_indexRead desk.host.disk h

/-- Of the disk only the files of the index have been written, and the index is still that one. -/
structure Held (i : Index) (d : Disk) (desk : Desk R) : Prop where
  index : desk.store.index = i
  disk : i.Rewritten d desk.host.disk
  lenient : d.Lenient desk.host.disk

omit [Record R] in
theorem held_start (s : Store R) (host : Host) :
    Held s.index host.disk (⟨s, host, []⟩ : Desk R) :=
  ⟨rfl, .refl, .refl⟩

theorem blind_held (i : Index) (d : Disk) : Blind (Held (R := R) i d) where
  store _ same h := ⟨same.trans h.index, h.disk, h.lenient⟩
  clock h := ⟨h.index, h.disk, h.lenient⟩
  write {desk} records h := by
    have hlenient := Index.keeps_indexWrite (i := desk.store.index) records desk.host.disk h.lenient
    apply ((Index.leads_indexWrite records).and hlenient).mono
    · rintro _ disk ⟨⟨hrewritten, -⟩, hd⟩
      exact ⟨h.index, h.disk.trans (h.index ▸ hrewritten), hd⟩
    · rintro _ disk ⟨huntouched, hd⟩
      exact ⟨h.index, h.disk.trans (h.index ▸ huntouched.rewritten), hd⟩
  announced _ h := ⟨h.index, h.disk, h.lenient⟩

/-! ### The supply of identities -/

/-- The host, and every host of a commit, has this supply. -/
structure Supplied (supply : (Nat → String) × Nat) (desk : Desk R) : Prop where
  host : desk.host.supply = supply
  commits : ∀ c ∈ desk.commits, c.host.supply = supply

omit [Record R] in
theorem supplied_start (s : Store R) (host : Host) :
    Supplied host.supply (⟨s, host, []⟩ : Desk R) :=
  ⟨rfl, fun _ hc => nomatch hc⟩

theorem blind_supplied (supply : (Nat → String) × Nat) :
    Blind (Supplied (R := R) supply) where
  store _ _ h := ⟨h.host, h.commits⟩
  clock h := ⟨h.host, h.commits⟩
  write _ h := leads_iff.2 ⟨fun _ _ _ => ⟨h.host, h.commits⟩, fun _ _ _ => ⟨h.host, h.commits⟩⟩
  announced events h := by
    refine ⟨h.host, ?_⟩
    intro c hc
    rcases List.mem_append.1 hc with hc | hc
    · exact h.commits c hc
    · obtain rfl := List.mem_singleton.1 hc
      exact h.host

/-! ### Every commit of a call -/

/-- What holds of the records after every commit of a call, and at its end. -/
structure Throughout (Q : List R → Prop) (desk : Desk R) : Prop where
  last : Q desk.store.records
  commits : ∀ c ∈ desk.commits, Q c.store.records

section Throughout

variable {Q : List R → Prop} {desk desk' : Desk R}

omit [Record R] in
theorem throughout_start {s : Store R} {host : Host} (h : Q s.records) :
    Throughout Q ⟨s, host, []⟩ :=
  ⟨h, fun _ hc => nomatch hc⟩

omit [Record R] in
theorem Throughout.idle (h : Throughout Q desk) (hidle : Idle desk desk') : Throughout Q desk' where
  last := hidle.store ▸ h.last
  commits := hidle.commits ▸ h.commits

theorem Throughout.committed {records : List R} {change : Change R} (h : Throughout Q desk)
    (hcommitted : Committed desk records change desk') (hQ : Q desk'.store.records) :
    Throughout Q desk' where
  last := hQ
  commits := by
    intro c hc
    rw [hcommitted.commits] at hc
    rcases List.mem_append.1 hc with hc | hc
    · exact h.commits c hc
    · obtain rfl := List.mem_singleton.1 hc
      exact hQ

end Throughout

/-- The same for the records and the supply of identities. -/
structure Stays (P : List R → (Nat → String) × Nat → Prop) (desk : Desk R) : Prop where
  last : P desk.store.records desk.host.supply
  commits : ∀ c ∈ desk.commits, P c.store.records c.host.supply

omit [Record R] in
theorem Stays.imp {P Q : List R → (Nat → String) × Nat → Prop} {desk : Desk R} (h : Stays P desk)
    (hPQ : ∀ records supply, P records supply → Q records supply) : Stays Q desk where
  last := hPQ _ _ h.last
  commits c hc := hPQ _ _ (h.commits c hc)

omit [Record R] in
theorem Throughout.stays {P : List R → (Nat → String) × Nat → Prop} {desk : Desk R}
    {supply : (Nat → String) × Nat} (h : Throughout (fun records => P records supply) desk)
    (hs : Supplied supply desk) : Stays P desk where
  last := hs.host ▸ h.last
  commits c hc := hs.commits c hc ▸ h.commits c hc

end Store

end WorkQueue
