import WorkQueue.Proofs.Disk.Served
import WorkQueue.Proofs.Store.Codec
import WorkQueue.Proofs.Store.Calls

/-!
# Stores whose disk refuses nothing

An index is written where nothing stands in its place and from now on the system refuses no step of
a write, and it can be written again after that. A call on such a store is refused only by what it
asks for. Wherever it is written, records that obey the laws have a written form, so only the system
keeps a change from being written.
-/

namespace WorkQueue

namespace Index

open Disk

/-- From now on the system refuses no step of a write. -/
structure Granted (i : Index) (d : Disk) : Prop where
  makeDir : d.Permits .makeDir i.dir.path
  lock : d.Permits .lock i.lock.path
  openTemp : d.Permits .openFile i.temp.path
  fill : d.Permits .write i.temp.path
  sync : d.Permits .sync i.temp.path
  rename : d.Permits .rename i.file.path

/-- Besides, nothing stands in the place of the index or of the file that it is written to first. -/
structure Writable (i : Index) (d : Disk) : Prop extends i.Granted d where
  clear : i.Clear d
  temp : ¬ d.isDir i.temp.path = true

variable {i j : Index} {d d' : Disk}

theorem Granted.lenient (h : i.Granted d) (hd : d.Lenient d') : i.Granted d' where
  makeDir := hd _ _ h.makeDir
  lock := hd _ _ h.lock
  openTemp := hd _ _ h.openTemp
  fill := hd _ _ h.fill
  sync := hd _ _ h.sync
  rename := hd _ _ h.rename

/-- The directory of the index stays, and so does what the system permits. -/
structure Steady (i : Index) (d d' : Disk) : Prop where
  rewritten : i.Rewritten d d'
  dir : d'.Reaches i.dir.path
  lenient : d.Lenient d'

theorem Steady.trans {d'' : Disk} (h : i.Steady d d') (h' : i.Steady d' d'') : i.Steady d d'' where
  rewritten := h.rewritten.trans h'.rewritten
  dir := h'.dir
  lenient := h.lenient.trans h'.lenient

theorem Steady.of_rewritten (hdir : d.Reaches i.dir.path) (h : i.Rewritten d d')
    (hr : d.Lenient d') : i.Steady d d' :=
  ⟨h, hdir.kept h, hr⟩

theorem Steady.laid (h : i.Steady d d') (hw : i.Writable d) : i.Laid d' where
  dir := h.dir
  file := Kept.not_isDir h.rewritten i.file_not_prefix_dir hw.clear.file
  lock := Kept.not_isDir h.rewritten i.lock_not_prefix_dir hw.clear.lock

theorem Steady.writable (h : i.Steady d d') (hw : i.Writable d) : i.Writable d' where
  clear := (h.laid hw).clear
  temp := Kept.not_isDir h.rewritten i.temp_not_prefix_dir hw.temp
  toGranted := hw.toGranted.lenient h.lenient

/-- Writing an index leaves every one of the same depth writable, itself or another one. -/
theorem Writable.rewritten (hw : i.Writable d) (h : j.Rewritten d d')
    (hdepth : j.dir.path.length = i.dir.path.length) (hlenient : d.Lenient d') :
    i.Writable d' := by
  have hlonger (file : String) : ¬ i.dir.path ++ [file] <+: j.dir.path := by
    intro hp
    have hle := hp.length_le
    rw [List.length_append, List.length_singleton] at hle
    omega
  have hlock : ¬ i.lock.path <+: j.dir.path := i.lock_path ▸ hlonger "index.json.lock"
  have htemp : ¬ i.temp.path <+: j.dir.path := i.temp_path ▸ hlonger "index.json.tmp"
  have hpassable : d'.Passable i.dir.path := by
    intro q hq
    rw [content?_eq_join]
    rcases h q with e | ⟨hmem, -, -, -⟩ | ⟨-, -, hs⟩
    · rw [e, ← content?_eq_join]
      exact hw.clear.dir q hq
    · -- a file of the one lies too deep to be on the way to the other
      have hdeep : q.length = j.dir.path.length + 1 := by
        simp only [List.mem_cons, List.not_mem_nil, or_false, lock_path, temp_path,
          file_path] at hmem
        rcases hmem with rfl | rfl | rfl <;> simp
      have hle := hq.length_le
      omega
    · rw [hs]
      rfl
  exact {
    clear := ⟨hpassable, Kept.not_isDir h (hlonger "index.json") hw.clear.file,
      Kept.not_isDir h hlock hw.clear.lock⟩
    temp := Kept.not_isDir h htemp hw.temp
    toGranted := hw.toGranted.lenient hlenient }

/-- Nothing stands in the way on a disk where there is nothing. -/
theorem writable_empty (i : Index) : i.Writable {} := by
  have hnode (p : Path) (hp : p ≠ []) : node? {} p = none := by simp [node?, hp]
  have hdir (p : Path) (hp : p ≠ []) : ¬ isDir {} p = true := by simp [isDir, hnode p hp]
  have hpassable : Passable {} i.dir.path := by
    intro q _
    by_cases hq : q = []
    · rw [hq]
      rfl
    · simp [content?, hnode q hq]
  have hpermits (c : Call) (p : Path) : Permits {} c p := fun _ _ => rfl
  have hgranted : i.Granted {} :=
    ⟨hpermits _ _, hpermits _ _, hpermits _ _, hpermits _ _, hpermits _ _, hpermits _ _⟩
  refine ⟨hgranted, ⟨hpassable, ?_, ?_⟩, ?_⟩
  · exact hdir _ (by simp [file_path])
  · exact hdir _ (by simp [lock_path])
  · exact hdir _ (by simp [temp_path])

theorem leads_ensureDir_of_writable (hw : i.Writable d) :
    Leads i.ensureDir d (fun _ d' => i.Steady d d') (fun _ _ => False) :=
  (leads_ensureDir_of_passable hw.clear.dir hw.makeDir).imp fun _ _ h =>
    ⟨h.1.rewritten, h.2.1, h.2.2⟩

theorem leads_lock_of_writable (hdir : d.Reaches i.dir.path) (hw : i.Writable d) :
    Leads (Step.lock.run i) d (fun _ d' => i.Steady d d') (fun _ _ => False) := by
  have hl : i.Laid d := ⟨hdir, hw.clear.file, hw.clear.lock⟩
  exact (leads_takeLock_of_laid _ hl hw.lock).imp fun _ _ h =>
    .of_rewritten hdir h.1.rewritten h.2

theorem leads_openTemp_of_writable (hdir : d.Reaches i.dir.path) (hw : i.Writable d) :
    Leads (Step.openTemp.run i) d
      (fun _ d' => i.Steady d d' ∧ d'.shape i.temp.path = some (some .empty))
      (fun _ _ => False) := by
  have htemp : i.temp.path ∈ [i.lock.path, i.temp.path] := by simp
  have hnew : ¬ d.isDir (i.dir.path ++ ["index.json.tmp"]) = true := i.temp_path ▸ hw.temp
  have hopen : d.Permits .openFile (i.dir.path ++ ["index.json.tmp"]) := i.temp_path ▸ hw.openTemp
  have hserved := leads_openEmpty_of_reaches 0o600 hdir hnew hopen
  rw [← temp_path] at hserved
  refine (leads_attempt _ _).2 ?_
  refine ((leads_openEmpty 0o600 htemp i.temp_not_prefix_dir).and
    (leads_and_lenient hserved (keeps_openEmpty _ _))).mono (fun _ d₁ h => ?_) fun _ _ h => h.2
  exact ⟨.of_rewritten hdir (Untouched.rewritten h.1) h.2.2, h.2.1⟩

theorem leads_fill_of_writable (content : ByteArray) (hdir : d.Reaches i.dir.path)
    (hw : i.Writable d) (htemp : d.shape i.temp.path = some (some .empty)) :
    Leads ((Step.fill content).run i) d
      (fun _ d' => i.Steady d d' ∧ d'.shape i.temp.path = some (some content))
      (fun _ _ => False) := by
  have hmem : i.temp.path ∈ [i.lock.path, i.temp.path] := by simp
  refine (leads_attempt _ _).2 ?_
  refine ((leads_write content hmem i.temp_not_prefix_dir).and (leads_and_lenient
    (leads_write_of_file content htemp hw.fill) (keeps_write _ _))).mono (fun _ d₁ h => ?_)
    fun _ _ h => h.2
  exact ⟨.of_rewritten hdir (Untouched.rewritten h.1.1) h.2.2, h.1.2⟩

theorem leads_rename_of_writable {content : ByteArray} (hdir : d.Reaches i.dir.path)
    (hw : i.Writable d) (htemp : d.shape i.temp.path = some (some content)) :
    Leads (Step.rename.run i) d (fun _ d' => i.Steady d d') (fun _ _ => False) := by
  have hserved : Leads (Disk.rename i.temp.path i.file.path) d
      (fun _ _ => True) (fun _ _ => False) := by
    have hfile := hw.clear.file
    have hrename := hw.rename
    rw [file_path] at hfile hrename
    rw [temp_path] at htemp
    rw [file_path, temp_path]
    exact leads_rename_of_reaches hdir htemp hfile hrename
  have hmoved : Leads i.moveIntoPlace d (fun _ _ => True) (fun _ _ => False) :=
    (leads_tryCatch _ _).2 (hserved.mono (fun _ _ h => h) fun _ _ h => h.elim)
  refine (leads_attempt _ _).2 ?_
  refine (leads_moveIntoPlace.and (leads_and_lenient hmoved keeps_moveIntoPlace)).mono
    (fun _ d₁ h => ?_) fun _ _ h => h.2
  exact .of_rewritten hdir h.1.1 h.2.2

theorem leads_steps_of_writable (content : ByteArray) (hw : i.Writable d) :
    Leads ((steps content).forM (Step.run i)) d (fun _ d' => i.Steady d d')
      (fun _ _ => False) := by
  simp only [steps, List.forM_eq_forM, List.forM_cons, List.forM_nil]
  rw [leads_bind]
  refine (leads_ensureDir_of_writable hw).mono (fun _ d₁ h₁ => ?_) fun _ _ h => h
  rw [leads_bind]
  refine (leads_lock_of_writable h₁.dir (h₁.writable hw)).mono (fun _ d₂ h => ?_) fun _ _ h => h
  have h₂ := h₁.trans h
  rw [leads_bind]
  refine (leads_openTemp_of_writable h₂.dir (h₂.writable hw)).mono (fun _ d₃ h => ?_) fun _ _ h => h
  have h₃ := h₂.trans h.1
  rw [leads_bind]
  refine (leads_fill_of_writable content h₃.dir (h₃.writable hw) h.2).mono (fun _ d₄ h => ?_)
    fun _ _ h => h
  have h₄ := h₃.trans h.1
  have hsync := (h₄.writable hw).sync
  rw [leads_bind, Step.run, leads_attempt]
  refine (leads_permit_of_permits hsync).mono (fun _ d₅ hasked => ?_) fun _ _ h => h
  have h₅ : i.Steady d d₅ := h₄.trans (.of_rewritten h₄.dir (.of_shape_eq (hasked ▸ rfl))
    (hasked ▸ lenient_ask d₄))
  have htemp : d₅.shape i.temp.path = some (some content) := hasked ▸ h.2
  rw [leads_bind]
  refine (leads_rename_of_writable h₅.dir (h₅.writable hw) htemp).mono (fun _ d₆ h => ?_)
    fun _ _ h => h
  have h₆ := h₅.trans h
  rw [leads_bind, Step.run, leads_attempt]
  refine (leads_and_lenient (leads_setMode _ _) (keeps_setMode _ _)).mono (fun _ d₇ h₇ => ?_)
    fun _ _ h => h
  exact (leads_pure _).2 (h₆.trans (.of_rewritten h₆.dir (.of_shape_eq h₇.1) h₇.2))

variable {R : Type} [Record R] [LawfulRecord R]

/-- A write that the system does not refuse succeeds, and so would one after it. -/
theorem leads_indexWrite_of_writable (records : List R) (hw : i.Writable d) :
    Leads (i.write records) d (fun _ d' => i.Steady d d') (fun _ _ => False) := by
  rw [write, leads_bind, leads_ofExcept]
  refine ⟨fun content _ => ?_, fun e he => by simp [encode_eq_written] at he⟩
  rw [leads_bind]
  exact (leads_steps_of_writable _ hw).mono (fun _ _ h => (leads_pure _).2 h) fun _ _ h => h

/-- Records that obey the laws have a written form, so only the system refuses to write them. -/
theorem fails_indexWrite_isIo (records : List R) : Fails StoreError.IsIo (i.write records) := by
  apply Fails.bind
  · apply fails_ofExcept
    intro e he
    rw [encode_eq_written] at he
    cases he
  · intro content
    exact (fails_steps content).bind fun _ => fails_pure _

end Index

namespace Store

variable {R : Type} [Record R]

/-- The disk refuses the store nothing that a write takes. -/
def Desk.Served (desk : Desk R) : Prop := desk.store.index.Writable desk.host.disk

variable [LawfulRecord R] {desk : Desk R}

theorem leads_persist_of_served (hs : desk.Served) :
    Leads persist desk (fun _ desk' => desk'.Served) (fun _ _ => False) := by
  rw [persist, leads_bind, leads_get, leads_bind, leads_onDisk]
  refine (Index.leads_indexWrite_of_writable _ hs).mono (fun _ d h => ?_) fun _ _ h => h
  exact (leads_modify _).2 (h.writable hs)

theorem leads_commit_of_served (redo undo : List R → List R) (change : Change R)
    (hs : desk.Served) :
    Leads (commit redo undo change) desk (fun _ desk' => desk'.Served) (fun _ _ => False) := by
  rw [commit, leads_bind, edit, leads_modify, leads_bind, leads_tryCatch]
  have hedited : Desk.Served { desk with
      store := { desk.store with records := redo desk.store.records } } := hs
  exact (leads_persist_of_served hedited).mono (fun _ _ h => (leads_modify _).2 h)
    fun _ _ h => h.elim

/-- Where the disk refuses nothing, an update is refused only for what it asks. -/
theorem leads_updateWith_of_served (id : String) (patch : Record.Patch R)
    (veto : List R → R → Except StoreError Unit) (hs : desk.Served) :
    Leads (updateWith id patch veto) desk (fun _ desk' => desk'.Served)
      (fun e _ => UpdateRefused desk.store id patch veto e) := by
  refine leads_updateWith_of_commit (fun e h => h) fun i previous patched _ => ?_
  have hticked : Desk.Served { desk with host := desk.host.afterTime } := hs
  exact (leads_commit_of_served _ _ _ hticked).mono (fun _ _ h => h) fun _ _ h => h.elim

/-- Where the disk refuses nothing, a record is made that its draft allows, with an id that is
new. -/
theorem leads_createWith_of_served (id : String) (draft : Record.Draft R)
    (prepare : List R → R → Except StoreError R) (hs : desk.Served)
    (fresh : desk.store.get? id = none)
    (hdraft : ∀ t, ∃ r, prepare desk.store.records (Record.ofDraft id t draft) = .ok r ∧
      Record.validate r = .ok ()) :
    Leads (createWith id draft prepare) desk (fun _ desk' => desk'.Served) (fun _ _ => False) := by
  obtain ⟨r, hprepare, hvalid⟩ := hdraft desk.host.nextTime
  have hmissing : ¬ (desk.store.get? id).isSome = true := by simp [fresh]
  rw [createWith, leads_get_bind]
  dsimp only
  rw [if_neg hmissing, leads_bind, now, leads_modifyGet, hprepare, leads_bind]
  apply (leads_pure r).2
  rw [leads_bind]
  apply (leads_check r).mono
  · rintro _ desk₁ ⟨rfl, -⟩
    rw [leads_bind]
    exact leads_commit_of_served _ _ _ hs
  · rintro _ _ ⟨-, v, -, hinvalid⟩
    rw [hvalid] at hinvalid
    cases hinvalid

theorem fails_commit (redo undo : List R → List R) (change : Change R) :
    Fails StoreError.IsIo (commit redo undo change) := by
  have hpersist : Fails StoreError.IsIo (persist (R := R)) := by
    apply fails_get_bind
    intro desk
    apply Fails.bind
    · intro desk'
      exact (leads_onDisk _).2 (Index.fails_indexWrite_isIo _ _)
    · intro _
      exact fails_get_bind fun _ => fails_modify
  apply fails_modify.bind
  intro _
  apply Fails.bind
  · apply hpersist.tryCatch
    intro e he
    exact fails_modify.bind fun _ => fails_throw he
  · intro _
    exact fails_modify

end Store

end WorkQueue
