import WorkQueue.Proofs.Disk.Shape
import WorkQueue.Proofs.Store.Refusal

/-!
# Reading and writing an index

A read answers what the file holds. A write that succeeds leaves the new content in the file and
answers its digest; one that fails leaves the file as it was. Neither takes a directory away, and
once an index has been read it can be read again as long as the system refuses nothing.
-/

namespace WorkQueue.Index

open Disk

variable (i : Index)

theorem file_path : i.file.path = i.dir.path ++ ["index.json"] := rfl

theorem lock_path : i.lock.path = i.dir.path ++ ["index.json.lock"] := by
  simp [lock, Location.withSuffix, file_path]

theorem temp_path : i.temp.path = i.dir.path ++ ["index.json.tmp"] := by
  simp [temp, Location.withSuffix, file_path]

theorem not_prefix_dir (name : String) : ¬ i.dir.path ++ [name] <+: i.dir.path := by
  intro h
  have hl := h.length_le
  rw [List.length_append, List.length_singleton] at hl
  omega

theorem file_not_prefix_dir : ¬ i.file.path <+: i.dir.path := i.not_prefix_dir _

theorem lock_not_prefix_dir : ¬ i.lock.path <+: i.dir.path := i.lock_path ▸ i.not_prefix_dir _

theorem temp_not_prefix_dir : ¬ i.temp.path <+: i.dir.path := i.temp_path ▸ i.not_prefix_dir _

theorem file_ne_lock : i.file.path ≠ i.lock.path := by
  rw [file_path, lock_path]
  simp

theorem file_ne_temp : i.file.path ≠ i.temp.path := by
  rw [file_path, temp_path]
  simp

/-- A change of the disk that leaves the index file as it was. -/
def Untouched (d d' : Disk) : Prop := Kept i.dir.path [i.lock.path, i.temp.path] d d'

/-- A change of the disk that may fill the index file. -/
def Rewritten (d d' : Disk) : Prop :=
  Kept i.dir.path [i.lock.path, i.temp.path, i.file.path] d d'

variable {i} {d d' : Disk}

theorem Untouched.rewritten (h : i.Untouched d d') : i.Rewritten d d' := h.mono (by simp)

theorem Untouched.shape_eq (h : i.Untouched d d') :
    d'.shape i.file.path = d.shape i.file.path :=
  Kept.shape_eq h (by simp [file_ne_lock, file_ne_temp]) i.file_not_prefix_dir

theorem Untouched.content?_eq (h : i.Untouched d d') :
    d'.content? i.file.path = d.content? i.file.path := by
  rw [content?_eq_join, h.shape_eq, content?_eq_join]

/-- Writing the index of one entity leaves the file of another entity alone. -/
theorem Rewritten.content?_eq {R S : Type} [Record R] [Record S] {data : Location}
    (h : (ofData S data).Rewritten d d') (hne : Record.entity R ≠ Record.entity S) :
    d'.content? (ofData R data).file.path = d.content? (ofData R data).file.path := by
  have hfiles : (ofData R data).file.path ∉
      [(ofData S data).lock.path, (ofData S data).temp.path, (ofData S data).file.path] := by
    simp [lock_path, temp_path, file_path, ofData, Location.child, hne]
  have hdir : ¬ (ofData R data).file.path <+: (ofData S data).dir.path := by
    intro hp
    have hle := hp.length_le
    simp only [file_path, ofData, Location.child, List.length_append, List.length_singleton] at hle
    omega
  rw [content?_eq_join, Kept.shape_eq h hfiles hdir, content?_eq_join]

theorem Untouched.content?_eq_of_entity {R S : Type} [Record R] [Record S] {data : Location}
    (h : (ofData S data).Untouched d d') :
    d'.content? (ofData R data).file.path = d.content? (ofData R data).file.path := by
  by_cases he : Record.entity R = Record.entity S
  · have hsame : ofData R data = ofData S data := by rw [ofData, he, ofData]
    rw [hsame]
    exact h.content?_eq
  · exact h.rewritten.content?_eq he

/-- The directory is there, and nothing keeps its files from being used. -/
structure Laid (i : Index) (d : Disk) : Prop where
  dir : d.Reaches i.dir.path
  file : ¬ d.isDir i.file.path = true
  lock : ¬ d.isDir i.lock.path = true

theorem Laid.rewritten (hl : i.Laid d) (h : i.Rewritten d d') : i.Laid d' where
  dir := hl.dir.kept h
  file := Kept.not_isDir h i.file_not_prefix_dir hl.file
  lock := Kept.not_isDir h i.lock_not_prefix_dir hl.lock

theorem leads_ensureDir : Leads i.ensureDir d
    (fun _ d' => i.Untouched d d' ∧ d'.Reaches i.dir.path) (fun _ d' => i.Untouched d d') :=
  (leads_attempt _ _).2 leads_makePrivateDir

theorem leads_takeLock (context : String) :
    Leads (attempt context (openLock i.lock.path)) d
      (fun _ d' => i.Untouched d d' ∧ ¬ d'.isDir i.lock.path = true)
      (fun _ d' => i.Untouched d d') := by
  have hlock : i.lock.path ∈ [i.lock.path, i.temp.path] := List.mem_cons_self
  refine (leads_attempt _ _).2 ?_
  refine (leads_openLock hlock i.lock_not_prefix_dir).mono (fun _ d₁ h => ?_) fun _ _ h => h
  obtain ⟨hk, content, hc⟩ := h
  exact ⟨hk, by simp [isDir_iff, hc]⟩

/-! ### Reading -/

variable {R : Type} [Record R]

/-- What was loaded is what the file holds; a file that is missing holds nothing. -/
def Holds (i : Index) (d : Disk) (loaded : Loaded R) : Prop :=
  match d.content? i.file.path with
  | none => loaded.records = [] ∧ loaded.digest = none
  | some content =>
    decode content = .ok loaded.records ∧ loaded.digest = some (Digest.ofBytes content)

theorem Holds.of_content?_eq {loaded : Loaded R} (h : i.Holds d loaded)
    (hc : d'.content? i.file.path = d.content? i.file.path) : i.Holds d' loaded := by
  unfold Holds at h ⊢
  rwa [hc]

theorem Holds.of_missing (h : d.content? i.file.path = none) :
    i.Holds d (⟨[], none⟩ : Loaded R) := by
  unfold Holds
  rw [h]
  exact ⟨rfl, rfl⟩

/-- A file holds one list of records at most. -/
theorem Holds.unique {loaded loaded' : Loaded R} (h : i.Holds d loaded) (h' : i.Holds d loaded') :
    loaded = loaded' := by
  obtain ⟨records, digest⟩ := loaded
  obtain ⟨records', digest'⟩ := loaded'
  unfold Holds at h h'
  cases hc : d.content? i.file.path with
  | none =>
    simp only [hc] at h h'
    rw [h.1, h.2, h'.1, h'.2]
  | some content =>
    simp only [hc] at h h'
    have hrecords := h.1.symm.trans h'.1
    rw [Except.ok.inj hrecords, h.2, h'.2]

theorem leads_readFile : Leads (tryCatch (some <$> Disk.read i.file.path) fun fault =>
      if fault = .missing then pure none else throw fault) d
    (fun content? d' => d'.shape = d.shape ∧ (d.Reaches i.dir.path →
      d.content? i.file.path = content? ∧ ¬ d.isDir i.file.path = true))
    (fun _ d' => d'.shape = d.shape) := by
  rw [leads_tryCatch, leads_map]
  refine (leads_read i.file.path).mono (fun content d₁ h => ?_) fun fault d₁ h => ?_
  · obtain ⟨hsame, hs⟩ := h
    exact ⟨hsame, fun _ => ⟨by rw [content?_eq_join, hs]; rfl, by simp [isDir_iff, hs]⟩⟩
  · obtain ⟨hsame, hmissing⟩ := h
    by_cases hf : fault = .missing
    · rw [if_pos hf]
      refine (leads_pure _).2 ⟨hsame, fun hdir => ?_⟩
      have hnone : d.shape i.file.path = none := by
        rcases hmissing hf with hlook | hnone
        · rw [file_path, look_of_reaches hdir] at hlook
          cases hlook
        · exact hnone
      exact ⟨by rw [content?_eq_join, hnone]; rfl, by simp [isDir_iff, hnone]⟩
    · rw [if_neg hf]
      exact (leads_throw _).2 hsame

theorem leads_indexRead : Leads (read (R := R) i) d
    (fun loaded d' => i.Untouched d d' ∧ i.Laid d' ∧ i.Holds d' loaded)
    (fun _ d' => i.Untouched d d') := by
  rw [Index.read, leads_bind]
  refine leads_ensureDir.mono (fun _ d₁ h₁ => ?_) fun _ _ h => h
  rw [leads_bind]
  refine (leads_takeLock _).mono (fun _ d₂ h₂ => ?_) fun _ _ h => h₁.1.trans h
  have hkept := h₁.1.trans h₂.1
  have hdir := h₁.2.kept h₂.1
  rw [leads_bind, leads_attempt]
  refine leads_readFile.mono (fun content? d₃ h₃ => ?_) fun _ _ h =>
    hkept.trans (.of_shape_eq h)
  obtain ⟨hsame, hcontent⟩ := h₃
  obtain ⟨hcontent, hfile⟩ := hcontent hdir
  have hread : i.Untouched d₂ d₃ := .of_shape_eq hsame
  have hlaid : i.Laid d₃ := Laid.rewritten ⟨hdir, hfile, h₂.2⟩ hread.rewritten
  rw [← hread.content?_eq] at hcontent
  cases content? with
  | none =>
    refine (leads_pure _).2 ⟨hkept.trans hread, hlaid, ?_⟩
    unfold Holds
    rw [hcontent]
    exact ⟨rfl, rfl⟩
  | some content =>
    cases hdecode : decode (R := R) content with
    | ok records =>
      simp only [hdecode]
      refine (leads_pure _).2 ⟨hkept.trans hread, hlaid, ?_⟩
      unfold Holds
      rw [hcontent]
      exact ⟨hdecode, rfl⟩
    | error e =>
      simp only [hdecode]
      exact (leads_throw _).2 (hkept.trans hread)

/-- What the system must not refuse from now on for reads to succeed. -/
structure Readable (i : Index) (d : Disk) : Prop where
  dir : d.Permits .makeDir i.dir.path
  lock : d.Permits .lock i.lock.path
  file : d.Permits .read i.file.path

theorem Readable.lenient (h : i.Readable d) (hd : d.Lenient d') : i.Readable d' where
  dir := hd _ _ h.dir
  lock := hd _ _ h.lock
  file := hd _ _ h.file

theorem leads_takeLock_of_laid (context : String) (hl : i.Laid d)
    (hr : d.Permits .lock i.lock.path) : Leads (attempt context (openLock i.lock.path)) d
      (fun _ d' => i.Untouched d d' ∧ d.Lenient d') (fun _ _ => False) := by
  have hserved : Leads (attempt context (openLock i.lock.path)) d
      (fun _ _ => True) (fun _ _ => False) := by
    have hlock := hl.lock
    rw [lock_path] at hlock hr
    rw [leads_attempt, lock_path]
    exact leads_openLock_of_reaches hl.dir hlock hr
  exact ((leads_takeLock context).and (leads_and_lenient hserved (keeps_takeLock context))).mono
    (fun _ _ h => ⟨h.1.1, h.2.2⟩) fun _ _ h => h.2

theorem leads_readFile_of_laid (hl : i.Laid d) (hr : d.Permits .read i.file.path) :
    Leads (tryCatch (some <$> Disk.read i.file.path) fun fault =>
      if fault = .missing then pure none else throw fault) d
    (fun _ _ => True) (fun _ _ => False) := by
  rw [leads_tryCatch, leads_map]
  refine (leads_read_of_reaches hl.dir hl.file hr).mono (fun _ _ h => h) fun fault _ h => ?_
  rw [if_pos h]
  exact (leads_pure _).2 trivial

/-- Nothing stands in the way of the index: no file where its directory is to be, and no directory
where its files are to be. -/
structure Clear (i : Index) (d : Disk) : Prop where
  dir : d.Passable i.dir.path
  file : ¬ d.isDir i.file.path = true
  lock : ¬ d.isDir i.lock.path = true

theorem Laid.clear (hl : i.Laid d) : i.Clear d := ⟨hl.dir.passable, hl.file, hl.lock⟩

theorem leads_ensureDir_of_passable (hp : d.Passable i.dir.path)
    (hr : d.Permits .makeDir i.dir.path) : Leads i.ensureDir d
      (fun _ d' => i.Untouched d d' ∧ d'.Reaches i.dir.path ∧ d.Lenient d')
      (fun _ _ => False) := by
  have hserved : Leads i.ensureDir d (fun _ _ => True) (fun _ _ => False) :=
    (leads_attempt _ _).2 (leads_makePrivateDir_of_passable hp hr)
  exact (leads_ensureDir.and (leads_and_lenient hserved keeps_ensureDir)).mono
    (fun _ _ h => ⟨h.1.1, h.1.2, h.2.2⟩) fun _ _ h => h.2

/-- An index that is missing or holds records can be read where nothing stands in its way and the
system does not refuse it. -/
theorem indexRead_eq_ok {loaded : Loaded R} (hc : i.Clear d) (hr : i.Readable d)
    (hh : i.Holds d loaded) : ∃ d', Index.read i d = .ok loaded d' ∧ i.Untouched d d' ∧
      i.Laid d' ∧ d.Lenient d' := by
  have hend : Leads (Index.read (R := R) i) d (fun _ _ => True) (fun _ _ => False) := by
    rw [Index.read, leads_bind]
    refine (leads_ensureDir_of_passable hc.dir hr.dir).mono (fun _ d₁ h₁ => ?_) fun _ _ h => h
    obtain ⟨hkept, hdir, hlenient⟩ := h₁
    have hl₁ : i.Laid d₁ := ⟨hdir, Kept.not_isDir hkept i.file_not_prefix_dir hc.file,
      Kept.not_isDir hkept i.lock_not_prefix_dir hc.lock⟩
    have hh₁ : i.Holds d₁ loaded := hh.of_content?_eq hkept.content?_eq
    rw [leads_bind]
    have hr₁ := hr.lenient hlenient
    refine (leads_takeLock_of_laid _ hl₁ hr₁.lock).mono (fun _ d₂ h₂ => ?_) fun _ _ h => h
    have hr₂ := hr₁.lenient h₂.2
    have hl₂ : i.Laid d₂ := hl₁.rewritten h₂.1.rewritten
    have hh₂ : i.Holds d₂ loaded := hh₁.of_content?_eq h₂.1.content?_eq
    rw [leads_bind, leads_attempt]
    refine (leads_readFile.and (leads_readFile_of_laid hl₂ hr₂.file)).mono
      (fun content? d₃ h₃ => ?_) fun _ _ h => h.2
    obtain ⟨⟨-, hcontent⟩, -⟩ := h₃
    cases content? with
    | none => exact (leads_pure _).2 trivial
    | some content =>
      unfold Holds at hh₂
      rw [(hcontent hl₂.dir).1] at hh₂
      simp only [hh₂.1]
      exact (leads_pure _).2 trivial
  have hread := leads_and_lenient (leads_indexRead (R := R) (i := i) (d := d)) keeps_indexRead
  obtain ⟨loaded', d', hrun, -⟩ := hend.exists_ok
  obtain ⟨⟨hu, hl, hh'⟩, hlenient⟩ := hread.of_ok hrun
  obtain rfl := hh'.unique (hh.of_content?_eq hu.content?_eq)
  exact ⟨d', hrun, hu, hl, hlenient⟩

/-- A read step by step. -/
theorem indexRead_of_steps {d₁ d₂ d₃ : Disk} {content : ByteArray} {records : List R}
    (hdir : i.ensureDir d = .ok ⟨⟩ d₁) (hlock : openLock i.lock.path d₁ = .ok ⟨⟩ d₂)
    (hfile : Disk.read i.file.path d₂ = .ok content d₃) (hdecode : decode content = .ok records) :
    Index.read i d = .ok ⟨records, some (Digest.ofBytes content)⟩ d₃ := by
  have hlock : attempt ("failed to take shared lock " ++ Text.ticked i.lock.text)
      (openLock i.lock.path) d₁ = .ok ⟨⟩ d₂ := by
    rw [attempt, hlock]
  have hfile : attempt ("failed to read index " ++ Text.ticked i.file.text)
      (tryCatch (some <$> Disk.read i.file.path) fun fault =>
        if fault = .missing then pure none else throw fault) d₂ = .ok (some content) d₃ := by
    rw [attempt, tryCatch_of_ok (map_of_ok hfile some)]
  refine (bind_of_ok hdir _).trans ((bind_of_ok hlock _).trans ((bind_of_ok hfile _).trans ?_))
  simp only [hdecode]
  rfl

/-- A laid-out index that holds records can be read where the system does not refuse it. -/
theorem exists_indexRead {loaded : Loaded R} (hl : i.Laid d) (hr : i.Readable d)
    (hh : i.Holds d loaded) : ∃ d', Index.read i d = .ok loaded d' := by
  obtain ⟨d', hread, -⟩ := indexRead_eq_ok hl.clear hr hh
  exact ⟨d', hread⟩

/-! ### Writing -/

theorem leads_moveIntoPlace : Leads i.moveIntoPlace d
    (fun _ d' => i.Rewritten d d' ∧ ∃ content,
      d.shape i.temp.path = some (some content) ∧ d'.shape i.file.path = some (some content))
    (fun _ d' => i.Untouched d d') := by
  rw [moveIntoPlace, leads_tryCatch]
  refine (leads_rename (by simp) i.temp_not_prefix_dir (by simp) i.file_not_prefix_dir).mono
    (fun _ _ h => h) ?_
  intro fault d₁ hsame
  have hsame : i.Untouched d d₁ := .of_shape_eq hsame
  rw [leads_bind, leads_tryCatch]
  refine (leads_remove (by simp) i.temp_not_prefix_dir).mono (fun _ _ h => hsame.trans h) ?_
  rintro _ _ rfl
  exact hsame

theorem leads_steps (content : ByteArray) : Leads ((steps content).forM (Step.run i)) d
    (fun _ d' => i.Rewritten d d' ∧ d'.content? i.file.path = some content)
    (fun _ d' => i.Untouched d d') := by
  have htemp : i.temp.path ∈ [i.lock.path, i.temp.path] := by simp
  simp only [steps, List.forM_eq_forM, List.forM_cons, List.forM_nil, Step.run]
  rw [leads_bind]
  refine leads_ensureDir.mono (fun _ d₁ h₁ => ?_) fun _ _ h => h
  rw [leads_bind]
  refine (leads_takeLock _).mono (fun _ d₂ h₂ => ?_) fun _ _ h => h₁.1.trans h
  have locked : i.Untouched d d₂ := h₁.1.trans h₂.1
  rw [leads_bind, leads_attempt]
  refine (leads_openEmpty _ htemp i.temp_not_prefix_dir).mono (fun _ d₃ h₃ => ?_) fun _ _ h =>
    locked.trans h
  have opened : i.Untouched d d₃ := locked.trans h₃
  rw [leads_bind, leads_attempt]
  refine (leads_write content htemp i.temp_not_prefix_dir).mono (fun _ d₄ h₄ => ?_) fun _ _ h =>
    opened.trans (.of_shape_eq h)
  have filled : i.Untouched d d₄ := opened.trans h₄.1
  rw [leads_bind, leads_attempt]
  refine (leads_sync _).mono (fun _ d₅ h₅ => ?_) fun _ _ h => filled.trans (.of_shape_eq h)
  have synced : i.Untouched d d₅ := filled.trans (.of_shape_eq h₅)
  rw [leads_bind, leads_attempt]
  refine leads_moveIntoPlace.mono (fun _ d₆ h₆ => ?_) fun _ _ h => synced.trans h
  obtain ⟨moved, content', hcontent', hfile⟩ := h₆
  have hsame : content' = content := by simpa [h₅, h₄.2] using hcontent'.symm
  rw [leads_bind, leads_attempt]
  refine (leads_setMode _ _).mono (fun _ d₇ h₇ => ?_) fun _ _ h => h
  refine (leads_pure _).2 ⟨(synced.rewritten.trans moved).trans (.of_shape_eq h₇), ?_⟩
  rw [content?_eq_join, h₇, hfile, hsame]
  rfl

theorem leads_indexWrite (records : List R) : Leads (i.write records) d
    (fun digest d' => i.Rewritten d d' ∧ ∃ content, encode records = .ok content ∧
      d'.content? i.file.path = some content ∧ digest = Digest.ofBytes content)
    (fun _ d' => i.Untouched d d') := by
  rw [write, leads_bind, leads_ofExcept]
  refine ⟨fun content hc => ?_, fun _ _ => .refl⟩
  rw [leads_bind]
  refine (leads_steps content).mono (fun _ d₁ h => ?_) fun _ _ h => h
  exact (leads_pure _).2 ⟨h.1, content, hc, h.2, rfl⟩

end WorkQueue.Index

/-! ### Why a write fails -/

namespace WorkQueue

/-- The system refused something. -/
def StoreError.IsIo : StoreError → Prop
  | .io _ _ => True
  | _ => False

instance (e : StoreError) : Decidable e.IsIo := by
  cases e <;> unfold StoreError.IsIo <;> infer_instance

/-- The records could not be put on disk. -/
def StoreError.IsPersistence : StoreError → Prop
  | .io _ _ | .encode _ _ => True
  | _ => False

theorem StoreError.IsIo.isPersistence {e : StoreError} (h : e.IsIo) : e.IsPersistence := by
  cases e with
  | io => trivial
  | _ => exact h.elim

namespace Index

variable {i : Index}

theorem fails_attempt {α : Type} (context : String) (a : Disk.Act α) :
    Fails StoreError.IsIo (attempt context a) :=
  fun _ => (leads_attempt _ _).2 (leads_iff.2 ⟨fun _ _ _ => trivial, fun _ _ _ => trivial⟩)

theorem fails_steps (content : ByteArray) :
    Fails StoreError.IsIo ((steps content).forM (Step.run i)) := by
  rw [List.forM_eq_forM]
  apply fails_forM
  intro step
  cases step <;> exact fails_attempt _ _

theorem fails_indexWrite {R : Type} [Record R] (records : List R) :
    Fails StoreError.IsPersistence (i.write records) := by
  apply Fails.bind
  · apply fails_ofExcept
    intro e he
    unfold encode at he
    split at he
    · cases he
    · cases he
      trivial
  · intro content
    apply ((fails_steps content).mono fun _ hio => hio.isPersistence).bind
    intro _
    exact fails_pure _

end Index

end WorkQueue
