import WorkQueue.Proofs.Store.Processes

/-!
# A store is what its index holds

As long as one process writes the index, the file holds after every step exactly the records that
the process has in memory, in their order, and the digest that it remembers is that of the file. A
store that is dropped and opened again is therefore the same store. What the process reads may lie
around for any time before it is absorbed: a write of its own in the meantime makes it stale.
-/

namespace WorkQueue.Store

variable {R : Type} [Record R]

/-- What others do to the disk where they neither write the index nor take its place away. -/
structure Undisturbed (i : Index) (d d' : Disk) : Prop where
  content : d'.content? i.file.path = d.content? i.file.path
  laid : i.Laid d → i.Laid d'

/-- The runs of a process that is the only writer of its index. -/
inductive SoleRun (p₀ : Process R) (h₀ : Host) : Process R → Host → Prop where
  | start : SoleRun p₀ h₀ p₀ h₀
  | step {p p' : Process R} {h h' : Host} {a : Option (Answer R)} {commits : List (Commit R)}
      (run : SoleRun p₀ h₀ p h) (hs : p.Step h a commits p' h') : SoleRun p₀ h₀ p' h'
  | outside {p : Process R} {h h' : Host} (run : SoleRun p₀ h₀ p h)
      (hu : Undisturbed p.store.index h.disk h'.disk) : SoleRun p₀ h₀ p h'

/-- The index holds what the process has in memory, and every reading that no write of the process
has overtaken is of just that. -/
structure Mirrored (p : Process R) (h : Host) : Prop where
  laid : p.store.index.Laid h.disk
  holds : p.store.index.Holds h.disk ⟨p.store.records, p.store.digest⟩
  readings : ∀ reading ∈ p.readings, reading.generation ≤ p.store.generation ∧
    (reading.generation = p.store.generation →
      reading.loaded = ⟨p.store.records, p.store.digest⟩)

theorem mirrored_of_open {data : Location} {host host' : Host} {s : Store R}
    (hopen : Store.open data host = .ok s host') : Mirrored ⟨s, []⟩ host' := by
  obtain ⟨loaded, disk, hread, rfl, rfl⟩ := eq_of_open hopen
  obtain ⟨-, hl, hh⟩ := Index.leads_indexRead.of_ok hread
  exact ⟨hl, hh, by simp⟩

variable {p p' : Process R} {h h' : Host} {a : Option (Answer R)} {commits : List (Commit R)}

theorem Mirrored.outside (hm : Mirrored p h) (hu : Undisturbed p.store.index h.disk h'.disk) :
    Mirrored p h' :=
  ⟨hu.laid hm.laid, hm.holds.of_content?_eq hu.content, hm.readings⟩

theorem Mirrored.known_eq (hm : Mirrored p h) {loaded : Index.Loaded R} (hk : p.Known h loaded) :
    loaded = ⟨p.store.records, p.store.digest⟩ := by
  rcases hk with hh | ⟨reading, hr, hgeneration, rfl⟩
  · exact hh.unique hm.holds
  · exact (hm.readings reading hr).2 hgeneration

variable [LawfulRecord R]

/-- The readings of a process stay right while its store keeps its records and its digest, and they
are stale once its write generation has gone up. -/
theorem Mirrored.readings_step (hm : Mirrored p h) (hs : p.Step h a commits p' h')
    (hh : p'.store.index.Holds h'.disk ⟨p'.store.records, p'.store.digest⟩)
    (hle : p.store.generation ≤ p'.store.generation)
    (hkept : p'.store.generation = p.store.generation →
      p'.store.records = p.store.records ∧ p'.store.digest = p.store.digest) :
    ∀ reading ∈ p'.readings, reading.generation ≤ p'.store.generation ∧
      (reading.generation = p'.store.generation →
        reading.loaded = ⟨p'.store.records, p'.store.digest⟩) := by
  intro reading hr
  rcases hs.mem_readings hr with hold | ⟨hseen, hnew⟩
  · obtain ⟨hseen, heq⟩ := hm.readings reading hold
    refine ⟨hseen.trans hle, fun hg => ?_⟩
    have hsame : p'.store.generation = p.store.generation := by omega
    obtain ⟨hrecords, hdigest⟩ := hkept hsame
    rw [hrecords, hdigest]
    exact heq (hg.trans hsame)
  · refine ⟨hseen.trans hle, fun _ => ?_⟩
    rw [← hs.index_eq] at hnew
    exact hnew.unique hh

theorem Mirrored.step (hm : Mirrored p h) (hs : p.Step h a commits p' h') : Mirrored p' h' := by
  have hindex := hs.index_eq
  have hl : p'.store.index.Laid h'.disk := hindex ▸ hs.laid hm.laid
  rcases hs.effect with ⟨-, hidle⟩ | ⟨-, edit, hcommitted⟩ | ⟨-, hknown, htook⟩
  · have hstore : p'.store = p.store := hidle.store
    have hh : p'.store.index.Holds h'.disk ⟨p'.store.records, p'.store.digest⟩ := by
      rw [hstore]
      exact hm.holds.of_content?_eq hidle.disk.content?_eq
    exact ⟨hl, hh, hm.readings_step hs hh (by rw [hstore]) fun _ => by rw [hstore]; simp⟩
  · have hh : p'.store.index.Holds h'.disk ⟨p'.store.records, p'.store.digest⟩ :=
      hindex ▸ hcommitted.holds (edit.allRegular hm.holds.allRegular)
    obtain ⟨content, -, -, hstore⟩ := hcommitted.written
    have hstore : p'.store = _ := hstore
    have hgeneration : p'.store.generation = p.store.generation + 1 := by
      rw [hstore]
      rfl
    exact ⟨hl, hh, hm.readings_step hs hh (by omega) fun _ => by omega⟩
  · have hstore : p'.store = _ := htook.store
    rw [hm.known_eq hknown] at hstore htook
    have hh : p'.store.index.Holds h'.disk ⟨p'.store.records, p'.store.digest⟩ := by
      rw [hstore]
      exact hm.holds.of_content?_eq htook.disk.content?_eq
    have hrecords : p'.store.records = p.store.records ∧ p'.store.digest = p.store.digest := by
      rw [hstore]
      exact ⟨rfl, rfl⟩
    have hgeneration : p'.store.generation = p.store.generation := by
      rw [hstore]
      rfl
    exact ⟨hl, hh, hm.readings_step hs hh hgeneration.ge fun _ => hrecords⟩

theorem SoleRun.mirrored {p₀ : Process R} {h₀ : Host} (hrun : SoleRun p₀ h₀ p h)
    (h₀' : Mirrored p₀ h₀) : Mirrored p h ∧ p.store.index = p₀.store.index := by
  induction hrun with
  | start => exact ⟨h₀', rfl⟩
  | step _ hs ih => exact ⟨ih.1.step hs, hs.index_eq.trans ih.2⟩
  | outside _ hu ih => exact ⟨ih.1.outside hu, ih.2⟩

/-- While a process is the only writer, the index holds the records that it has in memory, in their
order, under the digest that it remembers, after every step. A store that is opened in its place has
the same records, and opening one succeeds where the system does not refuse it. -/
theorem reopened_store_eq (e : Entity) {data : Location} {host h₀ h : Host} {s₀ : Store e.Rec}
    {p : Process e.Rec} (hopen : Store.open data host = .ok s₀ h₀)
    (hrun : SoleRun ⟨s₀, []⟩ h₀ p h) :
    (Index.ofData e.Rec data).Holds h.disk ⟨p.store.records, p.store.digest⟩ ∧
    (∀ s h', Store.open data h = .ok s h' →
      s.list = p.store.list ∧ ∀ id, s.get? id = p.store.get? id) ∧
    ((Index.ofData e.Rec data).Readable h.disk →
      ∃ (s : Store e.Rec) (h' : Host), Store.open data h = .ok s h') := by
  obtain ⟨hm, hindex⟩ := hrun.mirrored (mirrored_of_open hopen)
  obtain ⟨loaded₀, disk₀, -, hs₀, -⟩ := eq_of_open hopen
  have hi : p.store.index = Index.ofData e.Rec data := by
    rw [hindex, hs₀]
  have hh := hm.holds
  have hl := hm.laid
  rw [hi] at hh hl
  refine ⟨hh, ?_, ?_⟩
  · intro s h' hs
    obtain ⟨loaded, disk, hread, rfl, rfl⟩ := eq_of_open hs
    obtain ⟨hkept, -, hloaded⟩ := Index.leads_indexRead.of_ok hread
    have hsame := hloaded.unique (hh.of_content?_eq hkept.content?_eq)
    subst hsame
    exact ⟨rfl, fun _ => rfl⟩
  · intro hr
    obtain ⟨disk, hread⟩ := Index.exists_indexRead hl hr hh
    exact ⟨_, _, open_of_read hread⟩

/-- A run that makes a role on a disk that was empty. -/
theorem reopened_store_eq_created : ∃ (s₀ : Store Role) (h₀ : Host) (p : Process Role) (h : Host),
    Store.open ⟨["data"], "/data"⟩ { ids := fun _ => "a", times := fun _ => .epoch } = .ok s₀ h₀ ∧
    SoleRun ⟨s₀, []⟩ h₀ p h ∧ p.store.list.map Role.name = ["reviewer"] ∧
    (Index.ofData Role ⟨["data"], "/data"⟩).Holds h.disk ⟨p.store.records, p.store.digest⟩ := by
  obtain ⟨s₀, h₀, hopen, role, desk, hcreate, hlist⟩ :
      ∃ (s₀ : Store Role) (h₀ : Host),
        Store.open ⟨["data"], "/data"⟩ { ids := fun _ => "a", times := fun _ => .epoch }
          = .ok s₀ h₀ ∧
        ∃ (role : Role) (desk : Desk Role),
          (Request.create (R := Role) ({ name := "reviewer" } : Role.Draft)).run ⟨s₀, h₀, []⟩
            = .ok (.created role) desk ∧
          desk.store.list.map Role.name = ["reviewer"] :=
    ⟨_, _, rfl, _, _, rfl, rfl⟩
  have hrun : SoleRun ⟨s₀, []⟩ h₀ ⟨desk.store, []⟩ desk.host := .step .start (.answered hcreate)
  exact ⟨s₀, h₀, _, _, hopen, hrun, hlist, (reopened_store_eq .role hopen hrun).1⟩

end WorkQueue.Store
