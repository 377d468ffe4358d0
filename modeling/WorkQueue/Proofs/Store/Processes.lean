import WorkQueue.Proofs.Store.Calls
import WorkQueue.Proofs.Store.Codec
import WorkQueue.Proofs.Store.Unseen

/-!
# Processes

A process holds a store of its own. It makes requests of it, reads the index at any time, and
absorbs what it has read at any later time. One step of a process leaves its store alone, or edits
one record and writes all of them, or takes over records that it has read.
-/

namespace WorkQueue.Store

open Time

/-- Adjusts or refuses a new record. Its identity stays, and its times stay those of instants. -/
structure Preparation (R : Type) [Record R] where
  run : List R → R → Except StoreError R
  id_run {existing : List R} {r r' : R} (h : run existing r = .ok r') : Record.id r' = Record.id r
  regular_run {existing : List R} {r r' : R} (h : run existing r = .ok r')
    (hr : Record.Regular r) : Record.Regular r'

/-- Takes a new record as it is. -/
def Preparation.asIs {R : Type} [Record R] : Preparation R :=
  ⟨fun _ r => .ok r, fun h => by rw [Except.ok.inj h], fun h hr => Except.ok.inj h ▸ hr⟩

inductive Request (R : Type) [Record R] where
  | create (draft : Record.Draft R)
  | createWith (id : String) (draft : Record.Draft R) (prepare : Preparation R)
  | update (id : String) (patch : Record.Patch R) (veto : List R → R → Except StoreError Unit)
  | delete (id : String)
  | reconcile

inductive Answer (R : Type) where
  | created (record : R)
  | updated (record : R)
  | deleted (record : R)
  | reconciled (outcome : Absorbed)
  deriving DecidableEq

variable {R : Type} [Record R]

def Request.run : Request R → StoreM R (Answer R)
  | create draft => do return .created (← Store.create (← newId) draft)
  | createWith id draft prepare => do return .created (← Store.createWith id draft prepare.run)
  | update id patch veto => do return .updated (← Store.updateWith id patch veto)
  | delete id => do return .deleted (← Store.delete id)
  | reconcile => do return .reconciled (← Store.reconcile)

theorem Request.keeps_run {I : Desk R → Prop} (hI : Detached I) (q : Request R) :
    Keeps I q.run := by
  cases q with
  | create draft =>
    apply (keeps_newId hI).bind
    intro id
    apply (keeps_create hI.toBlind id draft).bind
    intro r
    exact keeps_pure _
  | createWith id draft prepare =>
    apply (keeps_createWith hI.toBlind id draft prepare.run).bind
    intro r
    exact keeps_pure _
  | update id patch veto =>
    apply (keeps_updateWith hI.toBlind id patch veto).bind
    intro r
    exact keeps_pure _
  | delete id =>
    apply (keeps_delete hI.toBlind id).bind
    intro r
    exact keeps_pure _
  | reconcile =>
    apply (keeps_reconcile hI).bind
    intro outcome
    exact keeps_pure _

/-- What one change makes of the records. Of several records with one id it is the first. The times
that it brings in are those of instants. -/
inductive Edit : List R → List R → Change R → Prop where
  | created {records : List R} {r : R} (fresh : Record.find? records (Record.id r) = none)
      (regular : Record.Regular r) : Edit records (records ++ [r]) (.created r)
  | updated {before after : List R} {previous next : R}
      (first : ∀ r ∈ before, Record.id r ≠ Record.id previous)
      (same : Record.id next = Record.id previous)
      (regular : Record.Regular previous → Record.Regular next) :
      Edit (before ++ previous :: after) (before ++ next :: after) (.updated (some previous) next)
  | deleted {before after : List R} {removed : R}
      (first : ∀ r ∈ before, Record.id r ≠ Record.id removed) :
      Edit (before ++ removed :: after) (before ++ after) (.deleted removed)

omit [Record R] in
theorem split_at {records : List R} {i : Nat} {r : R} (h : records[i]? = some r) :
    records = records.take i ++ r :: records.drop (i + 1) := by
  obtain ⟨hlt, rfl⟩ := List.getElem?_eq_some_iff.1 h
  rw [List.getElem_cons_drop, List.take_append_drop]

theorem Edit.of_updated {records : List R} {i : Nat} {previous next : R}
    (found : records[i]? = some previous)
    (first : ∀ r ∈ records.take i, Record.id r ≠ Record.id previous)
    (same : Record.id next = Record.id previous)
    (regular : Record.Regular previous → Record.Regular next) :
    Edit records (records.set i next) (.updated (some previous) next) := by
  have hlt := (List.getElem?_eq_some_iff.1 found).1
  have hedit : Edit (records.take i ++ previous :: records.drop (i + 1))
      (records.take i ++ next :: records.drop (i + 1)) (.updated (some previous) next) :=
    .updated first same regular
  rw [List.set_eq_take_append_cons_drop, if_pos hlt]
  rwa [← split_at found] at hedit

theorem Edit.of_deleted {records : List R} {i : Nat} {removed : R}
    (found : records[i]? = some removed)
    (first : ∀ r ∈ records.take i, Record.id r ≠ Record.id removed) :
    Edit records (records.eraseIdx i) (.deleted removed) := by
  have hedit : Edit (records.take i ++ removed :: records.drop (i + 1))
      (records.take i ++ records.drop (i + 1)) (.deleted removed) := .deleted first
  rwa [← split_at found, ← List.eraseIdx_eq_take_drop_succ] at hedit

theorem Edit.allRegular {records records' : List R} {change : Change R}
    (h : Edit records records' change) (hr : Record.AllRegular records) :
    Record.AllRegular records' := by
  cases h with
  | created fresh regular =>
    exact List.forall_mem_append.2 ⟨hr, List.forall_mem_singleton.2 regular⟩
  | updated first same regular =>
    obtain ⟨hbefore, hrest⟩ := List.forall_mem_append.1 hr
    obtain ⟨hprevious, hafter⟩ := List.forall_mem_cons.1 hrest
    exact List.forall_mem_append.2
      ⟨hbefore, List.forall_mem_cons.2 ⟨regular hprevious, hafter⟩⟩
  | deleted first =>
    obtain ⟨hbefore, hrest⟩ := List.forall_mem_append.1 hr
    exact List.forall_mem_append.2 ⟨hbefore, (List.forall_mem_cons.1 hrest).2⟩

/-- The change that an answer tells of. -/
inductive Answer.Tells : Answer R → Change R → Prop where
  | created (r : R) : Tells (.created r) (.created r)
  | updated (previous : Option R) (r : R) : Tells (.updated r) (.updated previous r)
  | deleted (r : R) : Tells (.deleted r) (.deleted r)

/-- The record that an answer is about. -/
def Answer.record? : Answer R → Option R
  | created r => some r
  | updated r => some r
  | deleted r => some r
  | reconciled _ => none

omit [Record R] in
theorem Answer.Tells.record?_eq {a : Answer R} {change : Change R} (h : a.Tells change) :
    a.record? = some change.record := by
  cases h <;> rfl

/-- What an answered request has done. -/
inductive Done (desk : Desk R) : Answer R → Desk R → Prop where
  | changed {a : Answer R} {records : List R} {change : Change R} {desk' : Desk R}
      (tells : a.Tells change) (edit : Edit desk.store.records records change)
      (committed : Committed desk records change desk') : Done desk a desk'
  | idle {outcome : Absorbed} {desk' : Desk R} (h : Idle desk desk') :
      Done desk (.reconciled outcome) desk'
  | tookOver {outcome : Absorbed} {loaded : Index.Loaded R} {desk' : Desk R}
      (holds : desk.store.index.Holds desk'.host.disk loaded) (h : TookOver desk loaded desk') :
      Done desk (.reconciled outcome) desk'

section Requests

variable [LawfulRecord R] {desk desk' : Desk R}

/-- After a commit the index holds what the store has in memory, as long as its times are those of
instants. -/
theorem Committed.holds {records : List R} {change : Change R}
    (h : Committed desk records change desk') (hr : Record.AllRegular records) :
    desk.store.index.Holds desk'.host.disk ⟨desk'.store.records, desk'.store.digest⟩ := by
  obtain ⟨content, hencode, hcontent, hstore⟩ := h.written
  rw [Index.encode_eq_written] at hencode
  have hdecode := Index.decode_written hr
  rw [Except.ok.inj hencode] at hdecode
  unfold Index.Holds
  rw [hcontent, hstore]
  exact ⟨hdecode, rfl⟩

theorem Edit.of_created {id : String} {t : Instant} {draft : Record.Draft R} {records : List R}
    {r : R} (hid : Record.id r = Record.id (Record.ofDraft id t.toStamp draft))
    (fresh : Record.find? records id = none) (regular : Record.Regular r) :
    Edit records (records ++ [r]) (.created r) := by
  rw [LawfulRecord.id_ofDraft] at hid
  exact .created (hid ▸ fresh) regular

/-- One record was edited, and all of them were written. -/
structure Edited (desk : Desk R) (change : Change R) (desk' : Desk R) : Prop where
  edit : Edit desk.store.records desk'.store.records change
  committed : Committed desk desk'.store.records change desk'

theorem Edited.holds {change : Change R} (h : Edited desk change desk')
    (hr : Record.AllRegular desk.store.records) :
    desk.store.index.Holds desk'.host.disk ⟨desk'.store.records, desk'.store.digest⟩ :=
  h.committed.holds (h.edit.allRegular hr)

omit [LawfulRecord R] in
theorem Edited.of_edit {records : List R} {change : Change R}
    (edit : Edit desk.store.records records change)
    (committed : Committed desk records change desk') : Edited desk change desk' := by
  rw [← committed.records_eq] at edit committed
  exact ⟨edit, committed⟩

/-- What a record makes of a patch takes the record's place. -/
theorem Patched.edit {s : Store R} {id : String} {patch : Record.Patch R}
    {veto : List R → R → Except StoreError Unit} {i : Nat} {previous patched : R}
    (h : Patched s id patch veto i previous patched) (t : Instant) :
    Edit s.records (s.records.set i (Record.touch t.toStamp patched))
      (.updated (some previous) (Record.touch t.toStamp patched)) :=
  .of_updated h.found (h.same ▸ h.first) (LawfulRecord.id_touch_patch h.patch t.toStamp)
    fun hr => LawfulRecord.regular_touch t (LawfulRecord.regular_patch h.patch hr)

theorem leads_createWith_edited (id : String) (draft : Record.Draft R) (prepare : Preparation R) :
    Leads (createWith id draft prepare.run) desk (fun r desk' => Edited desk (.created r) desk')
      (fun _ desk' => Idle desk desk') := by
  refine (leads_createWith id draft _).imp fun r desk₁ h₁ => ?_
  obtain ⟨fresh, ⟨t, hr⟩, -, hcommitted⟩ := h₁
  have hregular := prepare.regular_run hr (LawfulRecord.regular_ofDraft id t draft)
  exact .of_edit (.of_created (prepare.id_run hr) fresh hregular) hcommitted

theorem leads_create_edited (draft : Record.Draft R) :
    Leads (newId >>= fun id => create id draft) desk
      (fun r desk' => Edited desk (.created r) desk') (fun _ desk' => Idle desk desk') := by
  rw [leads_bind]
  refine leads_newId.mono (fun id desk₁ h₁ => ?_) fun _ _ h => h
  refine (leads_createWith_edited id draft .asIs).mono (fun r desk₂ h₂ => ?_) fun _ _ h =>
    h₁.trans h
  have hedit := h₂.edit
  rw [h₁.store] at hedit
  exact ⟨hedit, h₁.committed h₂.committed⟩

theorem leads_updateWith_edited (id : String) (patch : Record.Patch R)
    (veto : List R → R → Except StoreError Unit) : Leads (updateWith id patch veto) desk
      (fun next desk' => ∃ previous, Edited desk (.updated (some previous) next) desk')
      (fun _ desk' => Idle desk desk') := by
  refine (leads_updateWith_patched id patch veto).mono (fun next desk₁ h₁ => ?_) fun _ _ h => h.1
  obtain ⟨i, previous, patched, h, rfl, hcommitted⟩ := h₁
  exact ⟨previous, .of_edit (h.edit (desk.host.times desk.host.ticks)) hcommitted⟩

omit [LawfulRecord R] in
theorem leads_delete_edited (id : String) : Leads (delete (R := R) id) desk
    (fun removed desk' => Record.id removed = id ∧ Edited desk (.deleted removed) desk')
    (fun _ desk' => Idle desk desk') := by
  refine (leads_delete id).imp fun removed desk₁ h₁ => ?_
  obtain ⟨i, found, hid, first, hcommitted⟩ := h₁
  subst hid
  exact ⟨rfl, .of_edit (.of_deleted found first) hcommitted⟩

theorem leads_run_create (draft : Record.Draft R) : Leads (Request.create draft).run desk
    (fun a desk' => ∃ r, a = .created r ∧ Edited desk (.created r) desk')
    (fun _ desk' => Idle desk desk') := by
  have h : Leads (newId >>= fun id => Store.create id draft) desk _ _ := leads_create_edited draft
  rw [leads_bind] at h
  rw [Request.run, leads_bind]
  refine h.imp fun id desk₁ h₁ => ?_
  rw [leads_bind]
  exact h₁.imp fun r _ h₂ => (leads_pure _).2 ⟨r, rfl, h₂⟩

theorem Request.leads_run (q : Request R) : Leads q.run desk
    (fun a desk' => Done desk a desk') (fun _ desk' => Idle desk desk') := by
  cases q with
  | create draft =>
    refine (leads_run_create draft).imp fun _ _ h => ?_
    obtain ⟨r, rfl, hedited⟩ := h
    exact .changed (.created r) hedited.edit hedited.committed
  | createWith id draft prepare =>
    rw [run, leads_bind]
    exact (leads_createWith_edited id draft prepare).imp fun r _ h =>
      (leads_pure _).2 (.changed (.created r) h.edit h.committed)
  | update id patch veto =>
    rw [run, leads_bind]
    refine (leads_updateWith_edited id patch veto).imp fun next desk₁ h₁ => ?_
    obtain ⟨previous, h⟩ := h₁
    exact (leads_pure _).2 (.changed (.updated (some previous) next) h.edit h.committed)
  | delete id =>
    rw [run, leads_bind]
    exact (leads_delete_edited id).imp fun removed _ h =>
      (leads_pure _).2 (.changed (.deleted removed) h.2.edit h.2.committed)
  | reconcile =>
    rw [run, leads_bind]
    refine leads_reconcile.mono (fun outcome desk₁ h₁ => (leads_pure _).2 ?_) fun _ _ h => h
    rcases h₁ with h | ⟨loaded, holds, h⟩
    · exact .idle h
    · exact .tookOver holds h

end Requests

/-! ### Opening -/

theorem eq_of_open {data : Location} {host host' : Host} {s : Store R}
    (hopen : Store.open data host = .ok s host') :
    ∃ loaded disk, (Index.ofData R data).read host.disk = .ok loaded disk ∧
      s = { index := Index.ofData R data, records := loaded.records, digest := loaded.digest } ∧
      host' = { host with disk } := by
  unfold Store.open at hopen
  cases hread : Index.read (R := R) (Index.ofData R data) host.disk with
  | ok loaded disk =>
    simp only [hread] at hopen
    cases hopen
    exact ⟨loaded, disk, rfl, rfl, rfl⟩
  | error e disk =>
    simp only [hread] at hopen
    cases hopen

theorem lenient_of_open {data : Location} {host host' : Host} {s : Store R}
    (hopen : Store.open data host = .ok s host') : host.disk.Lenient host'.disk := by
  obtain ⟨loaded, disk, hread, -, rfl⟩ := eq_of_open hopen
  exact (Index.keeps_indexRead host.disk .refl).of_ok hread

theorem open_of_read {data : Location} {host : Host} {loaded : Index.Loaded R} {disk : Disk}
    (hread : (Index.ofData R data).read host.disk = .ok loaded disk) :
    Store.open data host = .ok
      { index := Index.ofData R data, records := loaded.records, digest := loaded.digest }
      { host with disk } := by
  unfold Store.open
  simp only [hread]

/-! ### Steps of a process -/

structure Process (R : Type) where
  store : Store R
  /-- what was read from the index, whether absorbed or not -/
  readings : List (Reading R) := []

namespace Process

def desk (p : Process R) (h : Host) : Desk R := ⟨p.store, h, []⟩

/-- One step of a process on a host: the answer to a request, if there is one, and the commits. The
write generation may have been looked at long before the index was read. -/
inductive Step (p : Process R) (h : Host) :
    Option (Answer R) → List (Commit R) → Process R → Host → Prop where
  | answered {q : Request R} {a : Answer R} {desk : Desk R} (run : q.run (p.desk h) = .ok a desk) :
      Step p h (some a) desk.commits ⟨desk.store, p.readings⟩ desk.host
  | refused {q : Request R} {e : StoreError} {desk : Desk R}
      (run : q.run (p.desk h) = .error e desk) :
      Step p h none desk.commits ⟨desk.store, p.readings⟩ desk.host
  | read {generation : Nat} {loaded : Index.Loaded R} {disk : Disk}
      (seen : generation ≤ p.store.generation)
      (run : p.store.index.read h.disk = .ok loaded disk) :
      Step p h none [] ⟨p.store, ⟨generation, loaded⟩ :: p.readings⟩ { h with disk }
  | unread {e : StoreError} {disk : Disk}
      (run : Index.read (R := R) p.store.index h.disk = .error e disk) :
      Step p h none [] p { h with disk }
  | absorbed {reading : Reading R} {outcome : Absorbed} {desk : Desk R}
      (mem : reading ∈ p.readings) (run : absorb reading (p.desk h) = .ok outcome desk) :
      Step p h none desk.commits ⟨desk.store, p.readings⟩ desk.host

/-- Where records that are taken over come from. -/
def Known (p : Process R) (h : Host) (loaded : Index.Loaded R) : Prop :=
  p.store.index.Holds h.disk loaded ∨
    ∃ reading ∈ p.readings, reading.generation = p.store.generation ∧ reading.loaded = loaded

/-- All that a step can do to the store and the disk, told by the desk before and after it. -/
inductive Effect (p : Process R) (h : Host) : Option (Answer R) → Desk R → Prop where
  | idle {a : Option (Answer R)} {desk : Desk R} (silent : ∀ b ∈ a, ∃ o, b = .reconciled o)
      (idle : Idle (p.desk h) desk) : Effect p h a desk
  | changed {a : Answer R} {records : List R} {change : Change R} {desk : Desk R}
      (tells : a.Tells change) (edit : Edit p.store.records records change)
      (committed : Committed (p.desk h) records change desk) : Effect p h (some a) desk
  | tookOver {a : Option (Answer R)} {loaded : Index.Loaded R} {desk : Desk R}
      (silent : ∀ b ∈ a, ∃ o, b = .reconciled o) (known : p.Known h loaded)
      (tookOver : TookOver (p.desk h) loaded desk) : Effect p h a desk

variable {p p' : Process R} {h h' : Host} {a : Option (Answer R)} {commits : List (Commit R)}

theorem Step.effect [LawfulRecord R] (hs : p.Step h a commits p' h') :
    p.Effect h a ⟨p'.store, h', commits⟩ := by
  cases hs with
  | @answered q b desk run =>
    rcases q.leads_run.of_ok run with ⟨tells, edit, committed⟩ | hidle | ⟨holds, htook⟩
    · exact .changed tells edit committed
    · exact .idle (by simp) hidle
    · refine .tookOver (by simp) (Or.inl ?_) htook
      exact holds.of_content?_eq htook.disk.content?_eq.symm
  | refused run => exact .idle (by simp) ((Request.leads_run _).of_error run)
  | read seen run => exact .idle (by simp) ⟨rfl, rfl, (Index.leads_indexRead.of_ok run).1⟩
  | unread run => exact .idle (by simp) ⟨rfl, rfl, Index.leads_indexRead.of_error run⟩
  | absorbed mem run =>
    rcases (leads_absorb _).of_ok run with ⟨-, -, rfl⟩ | ⟨-, hgeneration, htook⟩
    · exact .idle (by simp) .refl
    · exact .tookOver (by simp) (Or.inr ⟨_, mem, hgeneration, rfl⟩) htook

/-- All times in the memory of a process are those of instants. -/
structure Regular (p : Process R) : Prop where
  records : Record.AllRegular p.store.records
  readings : ∀ reading ∈ p.readings, Record.AllRegular reading.loaded.records

theorem regular_of_open [LawfulRecord R] {data : Location} {host host' : Host} {s : Store R}
    (hopen : Store.open data host = .ok s host') : Regular ⟨s, []⟩ := by
  obtain ⟨loaded, disk, hread, rfl, rfl⟩ := eq_of_open hopen
  exact ⟨(Index.leads_indexRead.of_ok hread).2.2.allRegular, List.forall_mem_nil _⟩

/-- A step leaves the index alone, or it changes a record, tells of it, and leaves the index with
what is in memory then. -/
theorem Step.outcome [LawfulRecord R] (hs : p.Step h a commits p' h')
    (hr : Record.AllRegular p.store.records) :
    ((∀ b ∈ a, b.record? = none) ∧
      h'.disk.content? p.store.index.file.path = h.disk.content? p.store.index.file.path) ∨
    ∃ b change, a = some b ∧ b.Tells change ∧ Edit p.store.records p'.store.records change ∧
      p.store.index.Holds h'.disk ⟨p'.store.records, p'.store.digest⟩ := by
  have unspoken (silent : ∀ b ∈ a, ∃ o, b = Answer.reconciled o) : ∀ b ∈ a, b.record? = none := by
    intro b hb
    obtain ⟨o, rfl⟩ := silent b hb
    rfl
  rcases hs.effect with ⟨silent, hidle⟩ | ⟨tells, edit, hcommitted⟩ | ⟨silent, -, htook⟩
  · exact Or.inl ⟨unspoken silent, hidle.disk.content?_eq⟩
  · have hrecords : p'.store.records = _ := hcommitted.records_eq
    exact Or.inr ⟨_, _, rfl, tells, hrecords ▸ edit, hcommitted.holds (edit.allRegular hr)⟩
  · exact Or.inl ⟨unspoken silent, htook.disk.content?_eq⟩

/-- A reading that a step adds is what the index holds after it. -/
theorem Step.mem_readings (hs : p.Step h a commits p' h') {reading : Reading R}
    (hr : reading ∈ p'.readings) : reading ∈ p.readings ∨
      reading.generation ≤ p.store.generation ∧
        p.store.index.Holds h'.disk reading.loaded := by
  cases hs with
  | read seen run =>
    rcases List.mem_cons.1 hr with rfl | hr
    · exact Or.inr ⟨seen, (Index.leads_indexRead.of_ok run).2.2⟩
    · exact Or.inl hr
  | _ => exact Or.inl hr

/-- The clock and the index bring in nothing but the times of instants. -/
theorem Step.regular [LawfulRecord R] (hs : p.Step h a commits p' h') (hr : p.Regular) :
    p'.Regular where
  records := by
    rcases hs.effect with ⟨-, hidle⟩ | ⟨-, edit, hcommitted⟩ | ⟨-, known, htook⟩
    · have hstore : p'.store = p.store := hidle.store
      exact hstore ▸ hr.records
    · have hrecords : p'.store.records = _ := hcommitted.records_eq
      exact hrecords ▸ edit.allRegular hr.records
    · have hrecords : p'.store.records = _ := congrArg Store.records htook.store
      rw [hrecords]
      rcases known with hholds | ⟨reading, hmem, -, rfl⟩
      · exact hholds.allRegular
      · exact hr.readings reading hmem
  readings reading hmem := by
    rcases hs.mem_readings hmem with hmem | ⟨-, hholds⟩
    · exact hr.readings reading hmem
    · exact hholds.allRegular

theorem Step.index_eq [LawfulRecord R] (hs : p.Step h a commits p' h') :
    p'.store.index = p.store.index := by
  rcases hs.effect with ⟨-, h⟩ | ⟨-, -, h⟩ | ⟨-, -, h⟩
  · have hstore : p'.store = _ := h.store
    rw [hstore]
    rfl
  · obtain ⟨content, -, -, hstore⟩ := h.written
    have hstore : p'.store = _ := hstore
    rw [hstore]
    rfl
  · have hstore : p'.store = _ := h.store
    rw [hstore]
    rfl

/-- No step takes away what reading the index needs. -/
theorem Step.laid [LawfulRecord R] (hs : p.Step h a commits p' h')
    (hl : p.store.index.Laid h.disk) : p.store.index.Laid h'.disk := by
  rcases hs.effect with ⟨-, h⟩ | ⟨-, -, h⟩ | ⟨-, -, h⟩
  · exact hl.rewritten h.disk.rewritten
  · exact hl.rewritten h.disk
  · exact hl.rewritten h.disk.rewritten

end Process

end WorkQueue.Store
