import WorkQueue.Proofs.Store.Identity

/-!
# What a record keeps

An id names one record on disk and in the memory of each process, whoever wrote it. A write that
updates a record leaves its id and the time of its creation as they were. The same id can stand for
different records in two processes, though: each can make one before it has seen that of the other.
-/

namespace WorkQueue

open Record (Distinct find?)

namespace Store

variable {R : Type} [Record R]

/-- A later value of the same record. -/
structure Continues (previous next : R) : Prop where
  id : Record.id next = Record.id previous
  createdAt : Record.createdAt next = Record.createdAt previous

theorem continues_of_patch [LawfulRecord R] [DatedRecord R] {patch : Record.Patch R}
    {previous patched : R} (h : Record.patch patch previous = .ok patched) (t : Time.Stamp) :
    Continues previous (Record.touch t patched) where
  id := LawfulRecord.id_touch_patch h _
  createdAt := by rw [DatedRecord.createdAt_touch, DatedRecord.createdAt_patch h]

/-- An update tells which of the records it changes, with its value until then, and goes on with
that record. -/
def Follows (records : List R) : Change R → Prop
  | .updated previous? next => ∃ previous, previous? = some previous ∧
      find? records (Record.id next) = some previous ∧ Continues previous next
  | _ => True

/-- Every update that was announced follows on from these records. -/
def Faithful (records : List R) (commits : List (Commit R)) : Prop :=
  ∀ c ∈ commits, ∀ e ∈ c.events, Follows records e.change

/-- The requests that write. -/
def Request.Writes : Request R → Prop
  | .reconcile => False
  | _ => True

section Calls

variable {desk desk' : Desk R}

theorem Committed.faithful {records : List R} {change : Change R}
    (h : Committed desk records change desk') (hnew : desk.commits = [])
    (hfollows : Follows desk.store.records change) :
    Faithful desk.store.records desk'.commits := by
  intro c hc e he
  rw [h.commits, hnew, List.nil_append, List.mem_singleton] at hc
  subst hc
  rw [List.mem_singleton.1 he]
  exact hfollows

variable [LawfulRecord R]

theorem leads_updateWith_follows [DatedRecord R] (id : String) (patch : Record.Patch R)
    (veto : List R → R → Except StoreError Unit) : Leads (updateWith id patch veto) desk
      (fun next desk' => ∃ previous records,
        Follows desk.store.records (.updated (some previous) next) ∧
        Committed desk records (.updated (some previous) next) desk')
      (fun _ desk' => Idle desk desk') := by
  refine (leads_updateWith_patched id patch veto).mono (fun next desk₁ h₁ => ?_) fun _ _ h => h.1
  obtain ⟨i, previous, patched, h, rfl, hcommitted⟩ := h₁
  have hcontinues := continues_of_patch h.patch desk.host.nextTime
  have hid : Record.id (Record.touch desk.host.nextTime patched) = id :=
    hcontinues.id.trans h.same
  exact ⟨previous, _, ⟨previous, rfl, hid ▸ h.get?_eq, hcontinues⟩, hcommitted⟩

/-- A request that writes commits a change that follows on from the records, or nothing. -/
theorem Request.leads_follows [DatedRecord R] {q : Request R} (hq : q.Writes) : Leads q.run desk
    (fun _ desk' => ∃ records change,
      Follows desk.store.records change ∧ Committed desk records change desk')
    (fun _ desk' => Idle desk desk') := by
  cases q with
  | create draft =>
    refine (leads_run_create draft).imp fun _ _ h => ?_
    obtain ⟨r, -, hedited⟩ := h
    exact ⟨_, .created r, trivial, hedited.committed⟩
  | createWith id draft prepare =>
    rw [run, leads_bind]
    refine (leads_createWith_edited id draft prepare).imp fun r _ h => (leads_pure _).2 ?_
    exact ⟨_, .created r, trivial, h.committed⟩
  | update id patch veto =>
    rw [run, leads_bind]
    refine (leads_updateWith_follows id patch veto).imp fun next _ h => (leads_pure _).2 ?_
    obtain ⟨previous, records, hfollows, hcommitted⟩ := h
    exact ⟨records, .updated (some previous) next, hfollows, hcommitted⟩
  | delete id =>
    rw [run, leads_bind]
    refine (leads_delete_edited id).imp fun removed _ h => (leads_pure _).2 ?_
    exact ⟨_, .deleted removed, trivial, h.2.committed⟩
  | reconcile => exact hq.elim

theorem Request.leads_faithful [DatedRecord R] {q : Request R} (hq : q.Writes)
    (hnew : desk.commits = []) : Leads q.run desk
      (fun _ desk' => Faithful desk.store.records desk'.commits)
      (fun _ desk' => desk'.commits = []) := by
  refine (leads_follows hq).mono (fun _ desk₁ h₁ => ?_) fun _ _ h => h.commits.trans hnew
  obtain ⟨records, change, hfollows, hcommitted⟩ := h₁
  exact hcommitted.faithful hnew hfollows

end Calls

namespace World

variable [LawfulRecord R] {data : Location} {host : Host} {w w' : World R}

/-- No step leaves the index with content that is not read as records. -/
theorem Step.exists_holds (hs : Step data w w') (hw : w.Shared data)
    (h : ∃ loaded : Index.Loaded R, (Index.ofData R data).Holds w.host.disk loaded) :
    ∃ loaded : Index.Loaded R, (Index.ofData R data).Holds w'.host.disk loaded := by
  obtain ⟨loaded, hholds⟩ := h
  cases hs with
  | opened _ run => exact ⟨loaded, hholds.of_content?_eq (content?_of_open run).2⟩
  | acted found step =>
    obtain ⟨hindex, hregular⟩ := hw _ _ found
    rcases step.outcome hregular.records with ⟨-, hsame⟩ | ⟨-, -, -, -, -, hnew⟩
    · exact ⟨loaded, hholds.of_content?_eq (hindex ▸ hsame)⟩
    · exact ⟨_, hindex ▸ hnew⟩
  | dropped n => exact ⟨loaded, hholds⟩
  | outside same => exact ⟨loaded, hholds.of_content?_eq same⟩

theorem Reachable.exists_holds (hr : Reachable data host w)
    (h : ∃ loaded : Index.Loaded R, (Index.ofData R data).Holds host.disk loaded) :
    ∃ loaded : Index.Loaded R, (Index.ofData R data).Holds w.host.disk loaded := by
  have hshared : ({ host } : World R).Shared data := fun _ _ h => nomatch h
  have hboth : w.Shared data ∧
      ∃ loaded : Index.Loaded R, (Index.ofData R data).Holds w.host.disk loaded := by
    induction hr with
    | refl => exact ⟨hshared, h⟩
    | tail _ hs ih => exact ⟨hs.shared ih.1, hs.exists_holds ih.1 ih.2⟩
  exact hboth.2

end World

/-- However many stores are opened on a data directory that had no index, and whatever they do in
whatever order: in every state that comes about, each has distinct ids in memory and in what it has
read, the index is read as records with distinct ids, and each request that writes either fails
without an announcement or announces updates that name the value they replace and keep its id and
its time of creation. -/
theorem World.records_keep_identity (e : Entity) {data : Location} {host : Host} {w : World e.Rec}
    (missing : host.disk.content? (Index.ofData e.Rec data).file.path = none)
    (hr : World.Reachable data host w) :
    (∀ n p, w.processes n = some p → p.Sound) ∧
    (∃ loaded : Index.Loaded e.Rec,
      (Index.ofData e.Rec data).Holds w.host.disk loaded ∧ Distinct loaded.records) ∧
    ∀ n p, w.processes n = some p → ∀ q : Request e.Rec, q.Writes →
      Leads q.run (p.desk w.host)
        (fun _ desk => Faithful p.store.records desk.commits)
        (fun _ desk => desk.commits = []) := by
  have hempty := Index.Holds.of_missing (R := e.Rec) missing
  have hsound := hr.sound (.of_holds hempty List.nodup_nil)
  obtain ⟨loaded, hholds⟩ := hr.exists_holds ⟨_, hempty⟩
  exact ⟨hsound.processes, ⟨loaded, hholds, hsound.disk loaded hholds⟩,
    fun _ p _ q hq => q.leads_faithful hq rfl⟩

/-- Two stores are opened on an empty disk, and each makes a role with the same id before it has
seen that of the other. The first one then renames its own, which stays as old as it was. -/
theorem World.records_keep_identity_twins : ∃ (data : Location) (host : Host) (later : Time.Stamp)
    (w : World Role) (p q : Process Role) (desk : Desk Role),
    host.disk.content? (Index.ofData Role data).file.path = none ∧
    World.Reachable data host w ∧
    w.processes 0 = some p ∧ p.store.records = [⟨"x", "first", "", .epoch, .epoch⟩] ∧
    w.processes 1 = some q ∧ q.store.records = [⟨"x", "second", "", later, later⟩] ∧
    (Request.update "x" ({ name := some "third" } : Role.Patch) fun _ _ => .ok ()).run
      (p.desk w.host) = .ok (.updated ⟨"x", "third", "", .epoch, later⟩) desk ∧
    later ≠ .epoch ∧ desk.commits.length = 1 ∧ Faithful p.store.records desk.commits := by
  let data : Location := ⟨["data"], "/data"⟩
  let later : Time.Stamp := ⟨Time.Stamp.epoch.date, 1, 0, by decide, by decide⟩
  let host : Host :=
    { ids := fun _ => "x", times := fun n => if n = 0 then .epoch else ⟨later, by decide⟩ }
  let first : Request Role := .createWith "x" ({ name := "first" } : Role.Draft) .asIs
  let second : Request Role := .createWith "x" ({ name := "second" } : Role.Draft) .asIs
  let rename : Request Role := .update "x" ({ name := some "third" } : Role.Patch) fun _ _ => .ok ()
  let x : Role := ⟨"x", "first", "", .epoch, .epoch⟩
  let y : Role := ⟨"x", "second", "", later, later⟩
  let z : Role := ⟨"x", "third", "", .epoch, later⟩
  have hrun : ((done? (Store.open (R := Role) data host)).bind fun a =>
      (done? (Store.open (R := Role) data a.2)).bind fun b =>
      (done? (first.run ⟨a.1, b.2, []⟩)).bind fun c =>
      (done? (second.run ⟨b.1, c.2.host, []⟩)).bind fun d =>
      (done? (rename.run ⟨c.2.store, d.2.host, []⟩)).map fun u =>
        (c.2.store.records, d.2.store.records, u.1, u.2.commits.length)) =
      some ([x], [y], .updated z, 1) := by
    decide +kernel
  simp only [Option.bind_eq_some_iff, Option.map_eq_some_iff, Prod.exists, Prod.mk.injEq,
    done?_eq_some] at hrun
  obtain ⟨s, h₁, hopen, s', h₂, hopen', a, desk, hfirst, a', desk', hsecond, _, desk'', hrename,
    hx, hy, rfl, hlength⟩ := hrun
  let w₁ : World Role :=
    { host := h₁, processes := Function.update (fun _ => none) 0 (some ⟨s, []⟩) }
  let w₂ : World Role :=
    { w₁ with host := h₂, processes := Function.update w₁.processes 1 (some ⟨s', []⟩) }
  let w₃ := w₂.acted 0 (some a) ⟨desk.store, []⟩ desk.host
  let w₄ := w₃.acted 1 (some a') ⟨desk'.store, []⟩ desk'.host
  have hs₁ : World.Step data { host } w₁ := .opened rfl hopen
  have hs₂ : World.Step data w₁ w₂ := .opened rfl hopen'
  have hs₃ : World.Step data w₂ w₃ := .acted (p := ⟨s, []⟩) rfl (.answered hfirst)
  have hs₄ : World.Step data w₃ w₄ := .acted (p := ⟨s', []⟩) rfl (.answered hsecond)
  have hr : World.Reachable data host w₄ :=
    ((Relation.ReflTransGen.single hs₁).tail hs₂ |>.tail hs₃).tail hs₄
  have hmissing : host.disk.content? (Index.ofData Role data).file.path = none := by decide
  obtain ⟨-, -, hwrites⟩ := World.records_keep_identity .role hmissing hr
  have hfaithful := (hwrites 0 ⟨desk.store, []⟩ rfl rename trivial).of_ok hrename
  exact ⟨data, host, later, w₄, _, _, desk'', hmissing, hr, rfl, hx, rfl, hy, hrename, by decide,
    hlength, hfaithful⟩

end Store

end WorkQueue
