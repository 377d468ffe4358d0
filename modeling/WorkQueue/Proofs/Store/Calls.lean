import Mathlib.Data.List.InsertIdx
import WorkQueue.Proofs.Store.Index
import WorkQueue.Store.Reconcile

/-!
# What a call does to a store

A call either leaves the store, the index file and the announcements alone, or it writes one change,
or it takes over what it read. Whatever fails has done nothing: a change that could not be written
is undone exactly, in the order and at the place of every record.
-/

namespace WorkQueue.Store

open Time

variable {R : Type}

/-- Nothing happened but on the host, and there not to the index file. -/
structure Idle (desk desk' : Desk R) : Prop where
  store : desk'.store = desk.store
  commits : desk'.commits = desk.commits
  disk : desk.store.index.Untouched desk.host.disk desk'.host.disk

variable {desk desk' desk'' : Desk R}

theorem Idle.refl : Idle desk desk := ⟨rfl, rfl, .refl⟩

theorem Idle.trans (h : Idle desk desk') (h' : Idle desk' desk'') : Idle desk desk'' where
  store := h'.store.trans h.store
  commits := h'.commits.trans h.commits
  disk := h.disk.trans (h.store ▸ h'.disk)

/-! ### Steps of calls -/

theorem leads_onDisk {α : Type} (a : Index.Act α) {done : α → Desk R → Prop}
    {failed : StoreError → Desk R → Prop} : Leads (onDisk a) desk done failed ↔
      Leads a desk.host.disk
        (fun x disk => done x { desk with host := { desk.host with disk } })
        (fun e disk => failed e { desk with host := { desk.host with disk } }) := by
  unfold Leads onDisk
  cases a desk.host.disk <;> rfl

theorem leads_newId {failed : StoreError → Desk R → Prop} :
    Leads newId desk (fun _ desk' => Idle desk desk') failed := ⟨rfl, rfl, .refl⟩

theorem leads_now {failed : StoreError → Desk R → Prop} :
    Leads now desk (fun t desk' => (∃ now : Instant, t = now.toStamp) ∧ Idle desk desk') failed :=
  ⟨⟨desk.host.times desk.host.ticks, rfl⟩, rfl, rfl, .refl⟩

theorem leads_get_bind {α : Type} (f : Desk R → StoreM R α) {done : α → Desk R → Prop}
    {failed : StoreError → Desk R → Prop} :
    Leads (get >>= f) desk done failed ↔ Leads (f desk) desk done failed := leads_bind _ _

variable [Record R]

/-- The records were written to the index and the change that led to them was announced. -/
structure Committed (desk : Desk R) (records : List R) (change : Change R) (desk' : Desk R) :
    Prop where
  written : ∃ content, Index.encode records = .ok content ∧
    desk'.host.disk.content? desk.store.index.file.path = some content ∧
    desk'.store = { desk.store with
      records
      revision := desk.store.revision + 1
      digest := some (Digest.ofBytes content)
      generation := desk.store.generation + 1 }
  commits : desk'.commits = desk.commits ++
    [⟨[⟨change, desk.store.revision + 1⟩], desk'.store, desk'.host⟩]
  disk : desk.store.index.Rewritten desk.host.disk desk'.host.disk

theorem Committed.index_eq {records : List R} {change : Change R}
    (h : Committed desk records change desk') : desk'.store.index = desk.store.index := by
  obtain ⟨content, -, -, hstore⟩ := h.written
  rw [hstore]

theorem Committed.records_eq {records : List R} {change : Change R}
    (h : Committed desk records change desk') : desk'.store.records = records := by
  obtain ⟨content, -, -, hstore⟩ := h.written
  rw [hstore]

/-- What was loaded replaced the records; the differences, if any, were announced. -/
structure TookOver (desk : Desk R) (loaded : Index.Loaded R) (desk' : Desk R) : Prop where
  store : desk'.store = { desk.store with
    records := loaded.records
    revision := desk.store.revision +
      if (Change.diff desk.store.records loaded.records).isEmpty then 0 else 1
    digest := loaded.digest }
  commits : desk'.commits = desk.commits ++
    if (Change.diff desk.store.records loaded.records).isEmpty then []
    else [⟨Change.events desk.store.records loaded.records (desk.store.revision + 1),
      desk'.store, desk'.host⟩]
  disk : desk.store.index.Untouched desk.host.disk desk'.host.disk

theorem Idle.committed {records : List R} {change : Change R} (h : Idle desk desk')
    (h' : Committed desk' records change desk'') : Committed desk records change desk'' where
  written := h.store ▸ h'.written
  commits := h.store ▸ h.commits ▸ h'.commits
  disk := h.disk.rewritten.trans (h.store ▸ h'.disk)

theorem Idle.tookOver {loaded : Index.Loaded R} (h : Idle desk desk')
    (h' : TookOver desk' loaded desk'') : TookOver desk loaded desk'' where
  store := h.store ▸ h'.store
  commits := h.store ▸ h.commits ▸ h'.commits
  disk := h.disk.trans (h.store ▸ h'.disk)

theorem leads_check (r : R) : Leads (check r) desk
    (fun _ desk' => desk' = desk ∧ Record.validate r = .ok ())
    (fun e desk' => desk' = desk ∧ ∃ v, e = .validation v ∧ Record.validate r = .error v) := by
  unfold check
  split
  next h => exact (leads_pure _).2 ⟨rfl, h⟩
  next v h => exact (leads_throw _).2 ⟨rfl, v, rfl, h⟩

theorem leads_locate (s : Store R) (id : String) : Leads (locate s id) desk
    (fun x desk' => desk' = desk ∧ s.records[x.1]? = some x.2 ∧ Record.id x.2 = id ∧
      (∀ r ∈ s.records.take x.1, Record.id r ≠ id) ∧ s.get? id = some x.2)
    (fun e desk' => desk' = desk ∧ e = .notFound (Record.entity R) id ∧ s.get? id = none) := by
  unfold locate
  split
  next hnone =>
    refine (leads_throw _).2 ⟨rfl, rfl, List.find?_eq_none.2 fun r hr => ?_⟩
    simpa using List.findIdx?_eq_none_iff.1 hnone r hr
  next i hi =>
    obtain ⟨hlt, hid, hbefore⟩ := List.findIdx?_eq_some_iff_getElem.1 hi
    rw [List.getElem?_eq_getElem hlt]
    refine (leads_pure _).2 ⟨rfl, List.getElem?_eq_getElem hlt, by simpa using hid, ?_, ?_⟩
    · intro r hmem
      obtain ⟨j, hj, rfl⟩ := List.mem_take_iff_getElem.1 hmem
      simpa using hbefore j (by omega)
    · exact List.find?_eq_some_iff_getElem.2
        ⟨hid, i, hlt, rfl, fun j hj => by simpa using hbefore j hj⟩

theorem leads_persist : Leads persist desk
    (fun _ desk' => ∃ content, Index.encode desk.store.records = .ok content ∧
      desk'.host.disk.content? desk.store.index.file.path = some content ∧
      desk'.store = { desk.store with
        revision := desk.store.revision + 1
        digest := some (Digest.ofBytes content)
        generation := desk.store.generation + 1 } ∧
      desk'.commits = desk.commits ∧
      desk.store.index.Rewritten desk.host.disk desk'.host.disk)
    (fun e desk' => Idle desk desk' ∧ e.IsPersistence) := by
  rw [persist, leads_bind, leads_get, leads_bind, leads_onDisk]
  refine ((Index.leads_indexWrite desk.store.records).and
    (Index.fails_indexWrite _ _)).mono (fun digest disk h => ?_)
    fun _ disk h => ⟨⟨rfl, rfl, h.1⟩, h.2⟩
  obtain ⟨⟨hdisk, content, hencode, hcontent, rfl⟩, -⟩ := h
  exact (leads_modify _).2 ⟨content, hencode, hcontent, rfl, rfl, hdisk⟩

/-- A change of the records is committed, or undone where it cannot be written. -/
theorem leads_commit (redo undo : List R → List R) (change : Change R)
    (hundo : undo (redo desk.store.records) = desk.store.records) :
    Leads (commit redo undo change) desk
      (fun _ desk' => Committed desk (redo desk.store.records) change desk')
      (fun e desk' => Idle desk desk' ∧ e.IsPersistence) := by
  rw [commit, leads_bind, edit, leads_modify, leads_bind, leads_tryCatch]
  refine leads_persist.mono (fun _ desk₁ h => ?_) fun e desk₁ h => ?_
  · obtain ⟨content, hencode, hcontent, hstore, hcommits, hdisk⟩ := h
    refine (leads_modify _).2 ⟨⟨content, hencode, hcontent, hstore⟩, ?_, hdisk⟩
    simp [hcommits, hstore]
  · obtain ⟨hidle, hpersistence⟩ := h
    rw [leads_bind, edit, leads_modify]
    refine (leads_throw _).2 ⟨⟨?_, hidle.commits, hidle.disk⟩, hpersistence⟩
    simp [hidle.store, hundo]

/-! ### Calls -/

theorem set_eq_self {α : Type} {xs : List α} {i : Nat} {x : α} (h : xs[i]? = some x) :
    xs.set i x = xs := by
  obtain ⟨hlt, rfl⟩ := List.getElem?_eq_some_iff.1 h
  exact List.set_getElem_self hlt

theorem leads_createWith (id : String) (draft : Record.Draft R)
    (prepare : List R → R → Except StoreError R) : Leads (createWith id draft prepare) desk
      (fun r desk' => Record.find? desk.store.records id = none ∧
        (∃ t : Instant,
          prepare desk.store.records (Record.ofDraft id t.toStamp draft) = .ok r) ∧
        Record.validate r = .ok () ∧
        Committed desk (desk.store.records ++ [r]) (.created r) desk')
      (fun _ desk' => Idle desk desk') := by
  rw [createWith, leads_get_bind]
  by_cases hid : (desk.store.get? id).isSome = true
  · rw [if_pos hid]
    exact (leads_throw _).2 .refl
  rw [if_neg hid, leads_bind]
  refine leads_now.mono (fun _ desk₁ h₁ => ?_) fun _ _ h => h
  obtain ⟨⟨t, rfl⟩, h₁⟩ := h₁
  rw [leads_bind, leads_ofExcept]
  refine ⟨fun r hr => ?_, fun _ _ => h₁⟩
  rw [leads_bind]
  refine (leads_check r).mono (fun _ desk₂ h₂ => ?_) fun _ _ h => h.1 ▸ h₁
  obtain ⟨rfl, hvalid⟩ := h₂
  have hundo : (desk₂.store.records ++ [r]).dropLast = desk₂.store.records :=
    List.dropLast_concat
  rw [leads_bind]
  refine (leads_commit _ _ (.created r) hundo).mono (fun _ desk₃ h₃ => ?_) fun _ _ h => h₁.trans h.1
  have hcommitted := h₁.committed h₃
  rw [h₁.store] at hcommitted
  exact (leads_pure _).2 ⟨by simpa [get?] using hid, ⟨t, hr⟩, hvalid, hcommitted⟩

/-- Why an update is refused: the record is not there, it refuses the patch, the caller refuses the
patched record, or that is not valid. -/
inductive UpdateRefused (s : Store R) (id : String) (patch : Record.Patch R)
    (veto : List R → R → Except StoreError Unit) : StoreError → Prop where
  | missing (found : s.get? id = none) :
      UpdateRefused s id patch veto (.notFound (Record.entity R) id)
  | patch {previous : R} {e : StoreError} (found : s.get? id = some previous)
      (refused : Record.patch patch previous = .error e) : UpdateRefused s id patch veto e
  | veto {previous next : R} {e : StoreError} (found : s.get? id = some previous)
      (patched : Record.patch patch previous = .ok next)
      (refused : veto s.records next = .error e) : UpdateRefused s id patch veto e
  | invalid {previous next : R} {v : ValidationError} (found : s.get? id = some previous)
      (patched : Record.patch patch previous = .ok next)
      (refused : Record.validate next = .error v) : UpdateRefused s id patch veto (.validation v)

/-- What a record makes of a patch is refused by the caller or by its own check. -/
theorem UpdateRefused.veto_or_invalid {s : Store R} {id : String} {patch : Record.Patch R}
    {veto : List R → R → Except StoreError Unit} {e : StoreError} {previous next : R}
    (h : UpdateRefused s id patch veto e) (found : s.get? id = some previous)
    (patched : Record.patch patch previous = .ok next) :
    veto s.records next = .error e ∨ ∃ v, e = .validation v ∧ Record.validate next = .error v := by
  cases h with
  | missing found' =>
    rw [found] at found'
    cases found'
  | patch found' refused =>
    obtain rfl := Option.some.inj (found.symm.trans found')
    rw [patched] at refused
    cases refused
  | veto found' patched' refused =>
    obtain rfl := Option.some.inj (found.symm.trans found')
    obtain rfl := Except.ok.inj (patched.symm.trans patched')
    exact Or.inl refused
  | invalid found' patched' refused =>
    obtain rfl := Option.some.inj (found.symm.trans found')
    obtain rfl := Except.ok.inj (patched.symm.trans patched')
    exact Or.inr ⟨_, rfl, refused⟩

/-- What a record refuses, is refused with what the record says. -/
theorem UpdateRefused.of_patch {s : Store R} {id : String} {patch : Record.Patch R}
    {veto : List R → R → Except StoreError Unit} {e e' : StoreError} {previous : R}
    (h : UpdateRefused s id patch veto e) (found : s.get? id = some previous)
    (refused : Record.patch patch previous = .error e') : e = e' := by
  cases h with
  | missing found' =>
    rw [found] at found'
    cases found'
  | patch found' refused' =>
    obtain rfl := Option.some.inj (found.symm.trans found')
    exact Except.error.inj (refused'.symm.trans refused)
  | veto found' patched =>
    obtain rfl := Option.some.inj (found.symm.trans found')
    cases refused.symm.trans patched
  | invalid found' patched =>
    obtain rfl := Option.some.inj (found.symm.trans found')
    cases refused.symm.trans patched

/-- The record that an update finds, and what the patch makes of it, which nobody refuses. -/
structure Patched (s : Store R) (id : String) (patch : Record.Patch R)
    (veto : List R → R → Except StoreError Unit) (i : Nat) (previous patched : R) : Prop where
  found : s.records[i]? = some previous
  same : Record.id previous = id
  first : ∀ r ∈ s.records.take i, Record.id r ≠ id
  patch : Record.patch patch previous = .ok patched
  allowed : veto s.records patched = .ok ()
  valid : Record.validate patched = .ok ()

theorem Patched.get?_eq {s : Store R} {id : String} {patch : Record.Patch R}
    {veto : List R → R → Except StoreError Unit} {i : Nat} {previous patched : R}
    (h : Patched s id patch veto i previous patched) : s.get? id = some previous := by
  obtain ⟨hlt, hi⟩ := List.getElem?_eq_some_iff.1 h.found
  refine List.find?_eq_some_iff_getElem.2 ⟨by simp [h.same], i, hlt, hi, fun j hj => ?_⟩
  have hmem : s.records[j] ∈ s.records.take i := List.mem_take_iff_getElem.2 ⟨j, by omega, rfl⟩
  simpa using h.first _ hmem

/-- An update is refused for what it asks, or it comes to a commit. -/
theorem leads_updateWith_of_commit {id : String} {patch : Record.Patch R}
    {veto : List R → R → Except StoreError Unit} {done : R → Desk R → Prop}
    {failed : StoreError → Desk R → Prop}
    (hrefused : ∀ e, UpdateRefused desk.store id patch veto e → failed e desk)
    (hcommit : ∀ i previous patched, Patched desk.store id patch veto i previous patched →
      Leads (commit (·.set i (Record.touch desk.host.nextTime patched)) (·.set i previous)
          (.updated (some previous) (Record.touch desk.host.nextTime patched)))
        { desk with host := desk.host.afterTime }
        (fun _ => done (Record.touch desk.host.nextTime patched)) failed) :
    Leads (updateWith id patch veto) desk done failed := by
  rw [updateWith, leads_get_bind, leads_bind]
  refine (leads_locate _ id).mono (fun x desk₁ h₁ => ?_) fun e _ h => ?_
  swap
  · obtain ⟨rfl, rfl, hnone⟩ := h
    exact hrefused _ (.missing hnone)
  obtain ⟨i, previous⟩ := x
  obtain ⟨rfl, hi, hid, hbefore, hfound⟩ := h₁
  rw [leads_bind, leads_ofExcept]
  refine ⟨fun patched hpatch => ?_, fun _ h => hrefused _ (.patch hfound h)⟩
  rw [leads_bind, leads_ofExcept]
  refine ⟨fun _ hveto => ?_, fun _ h => hrefused _ (.veto hfound hpatch h)⟩
  rw [leads_bind]
  refine (leads_check patched).mono (fun _ desk₂ h₂ => ?_) fun _ _ h => ?_
  swap
  · obtain ⟨rfl, v, rfl, hv⟩ := h
    exact hrefused _ (.invalid hfound hpatch hv)
  obtain ⟨rfl, hvalid⟩ := h₂
  rw [leads_bind, now, leads_modifyGet, leads_bind]
  exact hcommit i previous patched ⟨hi, hid, hbefore, hpatch, hveto, hvalid⟩

/-- An update that is not refused writes what the record makes of the patch at the time of the
write, or changes nothing. -/
theorem leads_updateWith_patched (id : String) (patch : Record.Patch R)
    (veto : List R → R → Except StoreError Unit) : Leads (updateWith id patch veto) desk
      (fun next desk' => ∃ i previous patched, Patched desk.store id patch veto i previous patched ∧
        next = Record.touch desk.host.nextTime patched ∧
        Committed desk (desk.store.records.set i next) (.updated (some previous) next) desk')
      (fun e desk' => Idle desk desk' ∧
        (e.IsPersistence ∨ UpdateRefused desk.store id patch veto e)) := by
  refine leads_updateWith_of_commit (fun e h => ⟨.refl, Or.inr h⟩) fun i previous patched h => ?_
  have hticked : Idle desk { desk with host := desk.host.afterTime } := ⟨rfl, rfl, .refl⟩
  have hundo : (desk.store.records.set i (Record.touch desk.host.nextTime patched)).set i previous =
      desk.store.records := by
    rw [List.set_set, set_eq_self h.found]
  refine (leads_commit _ _ _ hundo).mono (fun _ desk₁ h₁ => ?_) fun _ _ h₁ =>
    ⟨hticked.trans h₁.1, Or.inl h₁.2⟩
  exact ⟨i, previous, patched, h, rfl, hticked.committed h₁⟩

theorem leads_updateWith (id : String) (patch : Record.Patch R)
    (veto : List R → R → Except StoreError Unit) : Leads (updateWith id patch veto) desk
      (fun next desk' => ∃ i previous, desk.store.records[i]? = some previous ∧
        Record.id previous = id ∧ (∀ r ∈ desk.store.records.take i, Record.id r ≠ id) ∧
        (∃ (patched : R) (t : Instant), Record.patch patch previous = .ok patched ∧
          veto desk.store.records patched = .ok () ∧ Record.validate patched = .ok () ∧
          next = Record.touch t.toStamp patched) ∧
        Committed desk (desk.store.records.set i next) (.updated (some previous) next) desk')
      (fun e desk' => Idle desk desk' ∧
        (e.IsPersistence ∨ UpdateRefused desk.store id patch veto e)) := by
  refine (leads_updateWith_patched id patch veto).imp fun next desk₁ h₁ => ?_
  obtain ⟨i, previous, patched, h, htouched, hcommitted⟩ := h₁
  exact ⟨i, previous, h.found, h.same, h.first,
    ⟨patched, desk.host.times desk.host.ticks, h.patch, h.allowed, h.valid, htouched⟩, hcommitted⟩

theorem leads_delete (id : String) : Leads (delete (R := R) id) desk
    (fun removed desk' => ∃ i, desk.store.records[i]? = some removed ∧ Record.id removed = id ∧
      (∀ r ∈ desk.store.records.take i, Record.id r ≠ id) ∧
      Committed desk (desk.store.records.eraseIdx i) (.deleted removed) desk')
    (fun _ desk' => Idle desk desk') := by
  rw [delete, leads_get_bind, leads_bind]
  refine (leads_locate _ id).mono (fun x desk₁ h₁ => ?_) fun _ _ h => h.1 ▸ .refl
  obtain ⟨i, removed⟩ := x
  obtain ⟨rfl, hi, hid, hbefore, -⟩ := h₁
  have hundo : (desk₁.store.records.eraseIdx i).insertIdx i removed = desk₁.store.records := by
    have hlt := (List.getElem?_eq_some_iff.1 hi).1
    rw [List.insertIdx_eraseIdx_self (Nat.ne_of_lt hlt), set_eq_self hi]
  rw [leads_bind]
  refine (leads_commit _ _ (.deleted removed) hundo).mono (fun _ _ h => ?_) fun _ _ h => h.1
  exact (leads_pure _).2 ⟨i, hi, hid, hbefore, h⟩

/-! ### Following the writes of others -/

theorem leads_readIndex : Leads (readIndex (R := R)) desk
    (fun reading desk' => Idle desk desk' ∧ reading.generation = desk.store.generation ∧
      desk.store.index.Laid desk'.host.disk ∧
      desk.store.index.Holds desk'.host.disk reading.loaded)
    (fun _ desk' => Idle desk desk') := by
  rw [readIndex, leads_get_bind, leads_bind, leads_onDisk]
  refine Index.leads_indexRead.mono (fun loaded disk h => ?_) fun _ disk h => ⟨rfl, rfl, h⟩
  exact (leads_pure _).2 ⟨⟨rfl, rfl, h.1⟩, rfl, h.2⟩

/-- The answer of a pass that took something over. -/
def Absorbed.taken (changes : List (Change R)) : Absorbed :=
  if changes.isEmpty then .unchanged else .applied changes.length

omit [Record R] in
theorem Absorbed.taken_ne_stale (changes : List (Change R)) : Absorbed.taken changes ≠ .stale := by
  unfold Absorbed.taken
  split <;> simp

theorem leads_absorb (reading : Reading R) : Leads (absorb reading) desk
    (fun outcome desk' =>
      outcome = .stale ∧ reading.generation ≠ desk.store.generation ∧ desk' = desk ∨
      outcome = .taken (Change.diff desk.store.records reading.loaded.records) ∧
        reading.generation = desk.store.generation ∧ TookOver desk reading.loaded desk')
    (fun _ _ => False) := by
  rw [absorb, leads_get_bind]
  by_cases hg : desk.store.generation ≠ reading.generation
  · rw [if_pos hg]
    exact (leads_pure _).2 (Or.inl ⟨rfl, hg.symm, rfl⟩)
  have hg' : reading.generation = desk.store.generation := (not_not.1 hg).symm
  rw [if_neg hg]
  by_cases hc : (Change.diff desk.store.records reading.loaded.records).isEmpty = true
  · rw [if_pos hc]
    exact Or.inr ⟨(if_pos hc).symm, hg', by simp [hc], by simp [hc], .refl⟩
  · rw [if_neg hc]
    refine Or.inr ⟨(if_neg hc).symm, hg', by simp [hc], ?_, .refl⟩
    simp [hc, Change.events]

theorem absorb_host (reading : Reading R) :
    Leads (absorb reading) desk (fun _ desk' => desk'.host = desk.host) (fun _ _ => True) := by
  rw [absorb, leads_get_bind]
  by_cases hg : desk.store.generation ≠ reading.generation
  · rw [if_pos hg]
    exact (leads_pure _).2 rfl
  rw [if_neg hg]
  by_cases hc : (Change.diff desk.store.records reading.loaded.records).isEmpty = true
  · rw [if_pos hc, leads_bind, leads_modify]
    exact (leads_pure _).2 rfl
  · rw [if_neg hc, leads_bind, leads_modify, announce, leads_bind, leads_modify]
    exact (leads_pure _).2 rfl

/-- What no write of the store has overtaken is taken over. -/
theorem absorb_eq_ok {reading : Reading R} (hg : reading.generation = desk.store.generation) :
    ∃ desk', absorb reading desk =
        .ok (.taken (Change.diff desk.store.records reading.loaded.records)) desk' ∧
      TookOver desk reading.loaded desk' := by
  have h : Leads (absorb reading) desk _ _ := leads_absorb reading
  cases hrun : absorb reading desk with
  | ok outcome desk' =>
    rcases h.of_ok hrun with ⟨-, hne, -⟩ | ⟨rfl, -, htook⟩
    · exact absurd hg hne
    · exact ⟨desk', rfl, htook⟩
  | error e desk' => exact (h.of_error hrun).elim

theorem leads_reconcile : Leads (reconcile (R := R)) desk
    (fun _ desk' => Idle desk desk' ∨ ∃ loaded,
      desk.store.index.Holds desk'.host.disk loaded ∧ TookOver desk loaded desk')
    (fun _ desk' => Idle desk desk') := by
  rw [reconcile, leads_bind]
  refine leads_readIndex.mono (fun reading desk₁ h₁ => ?_) fun _ _ h => h
  obtain ⟨hidle, -, -, hholds⟩ := h₁
  rw [leads_get_bind]
  by_cases hd : reading.loaded.digest = desk₁.store.digest
  · rw [if_pos hd]
    exact (leads_pure _).2 (Or.inl hidle)
  rw [if_neg hd]
  refine (leads_absorb reading).mono (fun _ desk₂ h₂ => ?_) fun _ _ h => h.elim
  rcases h₂ with ⟨-, -, rfl⟩ | ⟨-, -, htook⟩
  · exact Or.inl hidle
  · have hsame : desk.store.index.Holds desk₂.host.disk reading.loaded :=
      hholds.of_content?_eq (hidle.store ▸ htook.disk).content?_eq
    exact Or.inr ⟨reading.loaded, hsame, hidle.tookOver htook⟩

/-! ### Failure -/

/-- Where the call fails, the store is as it was, with every record in its place, the revision, the
digest and the write generation; so is the content of the index file; and nothing was announced. -/
def Atomic {α : Type} (call : StoreM R α) : Prop :=
  ∀ desk e desk', call desk = .error e desk' →
    desk'.store = desk.store ∧
    desk'.host.disk.content? desk.store.index.file.path =
      desk.host.disk.content? desk.store.index.file.path ∧
    desk'.commits = desk.commits

omit [Record R] in
theorem atomic_of_leads {α : Type} {call : StoreM R α} (done : Desk R → α → Desk R → Prop)
    (h : ∀ desk, Leads call desk (done desk) fun _ desk' => Idle desk desk') : Atomic call := by
  intro desk e desk' hcall
  have hidle := (h desk).of_error hcall
  exact ⟨hidle.store, hidle.disk.content?_eq, hidle.commits⟩

theorem atomic_createWith (id : String) (draft : Record.Draft R)
    (prepare : List R → R → Except StoreError R) : Atomic (createWith id draft prepare) :=
  atomic_of_leads _ fun _ => leads_createWith id draft prepare

theorem atomic_create_newId (draft : Record.Draft R) :
    Atomic (newId >>= fun id => create id draft) := by
  refine atomic_of_leads (fun _ _ _ => True) fun desk => ?_
  rw [leads_bind]
  refine leads_newId.mono (fun id desk₁ h₁ => ?_) fun _ _ h => h
  exact (leads_createWith id draft _).mono (fun _ _ _ => trivial) fun _ _ h => h₁.trans h

theorem atomic_updateWith (id : String) (patch : Record.Patch R)
    (veto : List R → R → Except StoreError Unit) : Atomic (updateWith id patch veto) :=
  atomic_of_leads _ fun _ => (leads_updateWith id patch veto).mono (fun _ _ h => h) fun _ _ h => h.1

theorem atomic_delete (id : String) : Atomic (delete (R := R) id) :=
  atomic_of_leads _ fun _ => leads_delete id

theorem atomic_reconcile : Atomic (reconcile (R := R)) :=
  atomic_of_leads _ fun _ => leads_reconcile

/-- No call that fails leaves a trace: whatever refused a draft, a patch or an identity, and
wherever encoding, locking or writing stopped. -/
theorem failure_leaves_no_trace :
    (∀ draft : Record.Draft R, Atomic (newId >>= fun id => create id draft)) ∧
    (∀ id (draft : Record.Draft R), Atomic (create id draft)) ∧
    (∀ id (draft : Record.Draft R) prepare, Atomic (createWith id draft prepare)) ∧
    (∀ id (patch : Record.Patch R), Atomic (update id patch)) ∧
    (∀ id (patch : Record.Patch R) veto, Atomic (updateWith id patch veto)) ∧
    (∀ id, Atomic (delete (R := R) id)) ∧
    Atomic (reconcile (R := R)) :=
  ⟨atomic_create_newId, fun id draft => atomic_createWith id draft _, atomic_createWith,
    fun id patch => atomic_updateWith id patch _, atomic_updateWith, atomic_delete,
    atomic_reconcile⟩

end WorkQueue.Store
