import WorkQueue.Proofs.Daemon.Triggers
import WorkQueue.Proofs.Store.Recounting
import WorkQueue.Proofs.Work.Calls
import WorkQueue.Proofs.Work.Finishing

/-!
# Passes for finished items

Every commit of a work store brings one pass for each item that it moves from unfinished to
finished, whether the commit was made by a call, by one of the closings that follow, or by taking
over what others wrote. An item that is closed was finished before, so a call finishes one item at
most: the one that it marks as done.
-/

namespace WorkQueue

namespace Work

open Change (Covers)
open Record (Distinct find?)
open Store (Commit Committed Desk Edit Idle Reading Recounts)

/-! ### Finished items -/

/-- The item under the id was open or in progress, and is done or closed. -/
def Finishes (old new : List Work) (id : String) : Prop :=
  ∃ v ∈ find? old id, ∃ w ∈ find? new id,
    (v.status = .open ∨ v.status = .inProgress) ∧ (w.status = .done ∨ w.status = .closed)

instance (old new : List Work) (id : String) : Decidable (Finishes old new id) :=
  inferInstanceAs (Decidable (∃ v ∈ find? old id, _))

/-- The ids under which there is an item before and after, and which was finished between. -/
def finishedIds (old new : List Work) : Finset String :=
  (old.map (·.id)).toFinset.filter (Finishes old new)

variable {old new : List Work} {id : String} {cs : List (Change Work)}

theorem mem_finishedIds : id ∈ finishedIds old new ↔ Finishes old new id := by
  rw [finishedIds, Finset.mem_filter, List.mem_toFinset, and_iff_right_iff_imp]
  rintro ⟨v, hv, -⟩
  exact List.mem_map.2 ⟨v, Record.mem_of_find? hv, Record.id_of_find? hv⟩

theorem isFinished_iff {s : Status} : s.isFinished = true ↔ s = .done ∨ s = .closed := by
  cases s <;> simp [Status.isFinished]

theorem isFinished_eq_false_iff {s : Status} :
    s.isFinished = false ↔ s = .open ∨ s = .inProgress := by
  cases s <;> simp [Status.isFinished]

/-- How many changes finish an item, as those see it who listen. -/
def finishing (events : List (Event Work)) : Nat := events.countP Event.finishesWork

theorem finishesWork_iff {c : Change Work} {n : Nat} (h : c.Legal (find? old))
    (hvalue : find? new c.id = c.value?) :
    Event.finishesWork ⟨c, n⟩ = true ↔ Finishes old new c.id := by
  rw [Finishes, hvalue, h.eq_before?]
  cases c with
  | created w => simp [Event.finishesWork, Change.before?]
  | deleted w => simp [Event.finishesWork, Change.value?]
  | updated previous w =>
    obtain ⟨v, rfl⟩ := Option.isSome_iff_exists.1 h.1
    simp only [Event.finishesWork, Bool.and_eq_true, Bool.not_eq_true', isFinished_iff,
      isFinished_eq_false_iff, Change.before?, Change.value?, Option.mem_some, exists_eq_left']
    exact and_comm

theorem Finishes.ne (h : Finishes old new id) : find? old id ≠ find? new id := by
  obtain ⟨v, hv, w, hw, hbefore, hafter⟩ := h
  intro he
  have hsame : v = w := Option.some.inj (hv.symm.trans (he.trans hw))
  rw [← isFinished_eq_false_iff, hsame, isFinished_iff.2 hafter] at hbefore
  cases hbefore

/-- As many changes are seen to finish an item as there are finished items. -/
theorem finishing_eq_card {events : List (Event Work)}
    (h : Covers old new (events.map Event.change)) :
    finishing events = (finishedIds old new).card := by
  have hchanges : finishing events = (events.map Event.change).countP
      fun c => Event.finishesWork ⟨c, 0⟩ := by
    rw [List.countP_map]
    rfl
  rw [hchanges]
  apply h.countP_eq_card
  · intro c hc
    rw [mem_finishedIds]
    exact finishesWork_iff (h.legal hc) (h.value?_eq hc)
  · intro key hkey
    exact (mem_finishedIds.1 hkey).ne

/-! ### Calls -/

/-- The call asks for an item to be marked as done. -/
def Request.AsksDone (q : Request) : Prop := ∃ id p, q.patch? = some (id, p) ∧ p.status = some .done

/-- The commits so far recount what led to the items, and so many of their events finish one. -/
structure Told (old : List Work) (n : Nat) (desk : Desk Work) : Prop where
  distinct : Distinct desk.store.records
  recounts : Recounts old desk.commits desk.store.records
  finishing : finishing (desk.commits.flatMap Commit.events) = n

variable {n : Nat} {desk desk' : Desk Work} {q : Request} {p : Patch} {w w' : Work}

theorem Told.idle (h : Told old n desk) (hidle : Idle desk desk') : Told old n desk' where
  distinct := hidle.store ▸ h.distinct
  recounts := h.recounts.idle hidle
  finishing := hidle.commits ▸ h.finishing

theorem Told.edit {c : Change Work} (h : Told old n desk)
    (hedit : Edit desk.store.records desk'.store.records c)
    (hcommitted : Committed desk desk'.store.records c desk') :
    Told old (n + if Event.finishesWork ⟨c, 0⟩ then 1 else 0) desk' where
  distinct := hedit.distinct h.distinct
  recounts := h.recounts.edit hedit hcommitted h.distinct
  finishing := by
    rw [hcommitted.commits, List.flatMap_append, ← h.finishing]
    exact List.countP_append.trans (congrArg _ (List.countP_singleton ..))

/-- What is closed was finished before. -/
theorem Told.settled (h : Told old n desk) (hs : Settled desk w w' desk') : Told old n desk' := by
  cases hs with
  | stays => exact h
  | @closes t _ closable _ changed =>
    have hnone : Event.finishesWork ⟨.updated (some w) (w.closedAt t), 0⟩ = false := by
      simp [Event.finishesWork, closable.1, Status.isFinished]
    have hedited := h.edit changed.edit changed.committed
    rwa [hnone] at hedited

theorem finishesWork_patch {previous next : Work} {t : Time.Stamp}
    (h : Work.patch p previous = .ok next) :
    Event.finishesWork ⟨.updated (some previous) { next with updatedAt := t }, 0⟩ =
      decide (p.status = some .done) := by
  change (next.status.isFinished && !previous.status.isFinished) = _
  rcases status_of_patch h with ⟨hnone, hsame⟩ | ⟨hsome, hmove⟩
  · rw [hnone, hsame]
    cases previous.status <;> rfl
  · rw [hsome]
    generalize previous.status = s at hmove
    generalize next.status = t at hmove
    cases s <;> cases t <;> first | rfl | cases hmove

theorem Told.patched (h : Told old n desk) (hu : Updated desk id p checkParent w desk') :
    Told old (n + if p.status = some .done then 1 else 0) desk' := by
  obtain ⟨-, patch, -, -, changed⟩ := hu
  have hedited := h.edit changed.edit changed.committed
  rw [finishesWork_patch patch] at hedited
  simpa using hedited

theorem Told.followed (h : Told old n desk) (hf : Followed desk w desk') : Told old n desk' :=
  hf.keeps (fun hsettled h => h.settled hsettled) (fun hidle h => h.idle hidle) h

/-- A call finishes one item at most, and none if it does not ask for that. -/
theorem Told.performed (h : Told old 0 desk) (hp : Performed q desk desk') :
    ∃ n, Told old n desk' ∧ (¬ q.AsksDone → n = 0) := by
  cases hp with
  | idle idle => exact ⟨0, h.idle idle, fun _ => rfl⟩
  | created _ made =>
    have hrecords := made.committed.records_eq
    refine ⟨0, h.edit (c := .created _) ?_ (hrecords.symm ▸ made.committed), fun _ => rfl⟩
    rw [hrecords]
    exact made.edit
  | deleted _ edited => exact ⟨0, h.edit edited.edit edited.committed, fun _ => rfl⟩
  | patched asked updated followed =>
    refine ⟨_, (h.patched updated).followed followed, fun hq => ?_⟩
    rw [if_neg fun hdone => hq ⟨_, _, asked, hdone⟩]

theorem told_start {s : Store Work} (host : Host) (hd : Distinct s.records) :
    Told s.records 0 ⟨s, host, []⟩ :=
  ⟨hd, .none, rfl⟩

/-! ### Calls and absorptions -/

inductive Act where
  | call (q : Request)
  /-- takes over what was read at some time -/
  | absorb (reading : Reading Work)
  /-- reads the index and takes it over -/
  | reconcile

namespace Act

def run : Act → StoreM Work Unit
  | call q => discard q.run
  | absorb reading => discard (Store.absorb reading)
  | reconcile => discard Store.reconcile

/-- What is taken over has distinct ids. -/
def Clean (s : Store Work) (disk : Disk) : Act → Prop
  | call _ => True
  | absorb reading => Distinct reading.loaded.records
  | reconcile => Store.Clean Work s.index disk

variable {s : Store Work} {host : Host} {act : Act}

/-- Ids stay distinct, and every commit recounts what happened. -/
theorem leads_run (hd : Distinct s.records) (hclean : act.Clean s host.disk) :
    Leads act.run ⟨s, host, []⟩
      (fun _ desk =>
        Distinct desk.store.records ∧ ∃ records, Recounts s.records desk.commits records)
      fun _ desk =>
        Distinct desk.store.records ∧ ∃ records, Recounts s.records desk.commits records := by
  have htook {loaded : Index.Loaded Work} {desk : Desk Work}
      (h : Store.TookOver ⟨s, host, []⟩ loaded desk) (hnew : Distinct loaded.records) :
      Distinct desk.store.records ∧ ∃ records, Recounts s.records desk.commits records := by
    refine ⟨?_, h.recounts rfl hd hnew⟩
    rw [h.store]
    exact hnew
  have hidle {desk : Desk Work} (h : Idle ⟨s, host, []⟩ desk) :
      Distinct desk.store.records ∧ ∃ records, Recounts s.records desk.commits records := by
    have htold := (told_start host hd).idle h
    exact ⟨htold.distinct, _, htold.recounts⟩
  cases act with
  | call q =>
    have hcall {desk : Desk Work} (h : Performed q ⟨s, host, []⟩ desk) :
        Distinct desk.store.records ∧ ∃ records, Recounts s.records desk.commits records := by
      obtain ⟨n, htold, -⟩ := (told_start host hd).performed h
      exact ⟨htold.distinct, _, htold.recounts⟩
    rw [run, leads_discard]
    exact q.leads_performed.mono (fun _ _ h => hcall h) fun _ _ h => hcall h
  | absorb reading =>
    rw [run, leads_discard]
    apply (Store.leads_absorb reading).mono
    · rintro _ desk (⟨-, -, rfl⟩ | ⟨-, -, took⟩)
      · exact hidle .refl
      · exact htook took hclean
    · intro _ _ hfalse
      exact hfalse.elim
  | reconcile =>
    rw [run, leads_discard]
    apply Store.leads_reconcile.mono
    · rintro _ desk (idle | ⟨loaded, holds, took⟩)
      · exact hidle idle
      · exact htook took (hclean loaded (holds.of_content?_eq took.disk.content?_eq.symm))
    · intro _ _ idle
      exact hidle idle

/-- Marking an item as done finishes it, and nothing else. -/
theorem leads_markDone (hd : Distinct s.records) (id : String) :
    Leads (run (.call (.markDone id))) ⟨s, host, []⟩
      (fun _ desk => finishing (desk.commits.flatMap Commit.events) = 1) fun _ _ => True := by
  rw [run, leads_discard]
  apply (leads_update_followed id { status := some .done }).mono
  · rintro _ desk ⟨w, mid, updated, followed⟩
    exact (((told_start host hd).patched updated).followed followed).finishing
  · intro _ _ _
    trivial

theorem leads_unfinishing {q : Request} (hd : Distinct s.records) (hq : ¬ q.AsksDone) :
    Leads (run (.call q)) ⟨s, host, []⟩
      (fun _ desk => finishing (desk.commits.flatMap Commit.events) = 0)
      fun _ desk => finishing (desk.commits.flatMap Commit.events) = 0 := by
  have hcall {desk : Desk Work} (h : Performed q ⟨s, host, []⟩ desk) :
      finishing (desk.commits.flatMap Commit.events) = 0 := by
    obtain ⟨n, htold, hnone⟩ := (told_start host hd).performed h
    rw [htold.finishing, hnone hq]
  rw [run, leads_discard]
  exact q.leads_performed.mono (fun _ _ h => hcall h) fun _ _ h => hcall h

end Act

/-- The states of a work store: opened on an index with distinct ids, called, and following what
others write with distinct ids. -/
inductive Course : Store Work → Prop where
  | opened {data : Location} {host host' : Host} {s : Store Work}
      (clean : Store.Clean Work (Index.ofData Work data) host.disk)
      (run : Store.open data host = .ok s host') : Course s
  | acted {s : Store Work} {act : Act} {host : Host} {desk : Desk Work} (before : Course s)
      (clean : act.Clean s host.disk) (ends : Ends act.run ⟨s, host, []⟩ desk) : Course desk.store

theorem Course.distinct {s : Store Work} (h : Course s) : Distinct s.records := by
  induction h with
  | opened clean run => exact (Store.sound_of_open run clean).records
  | acted _ clean ends ih => exact ((Act.leads_run ih clean).of_ends ends).1

end Work

namespace Fleet

open Store (Commit)
open Work (Act Course finishedIds)

/-- The items of a daemon. -/
def works (i : Nat) (fleet : Fleet) : List Work :=
  (fleet.daemons[i]?).elim [] (·.stores.work.records)

/-- The announcement of the commit puts as many passes into the queue as it has finished items. -/
def Schedules (c i : Nat) (k : Commit Work) (fleet : Fleet) : Prop :=
  ∃ fleet', announce i .work k fleet = .ok ⟨⟩ fleet' ∧ fleet'.works i = k.store.records ∧
    fleet'.passes c = fleet.passes c + (finishedIds (fleet.works i) (fleet'.works i)).card

variable {c i n : Nat} {ls : List Listener} {s : Store Work} {fleet : Fleet}

theorem Attends.works_eq (h : fleet.Attends c i .work ls s n) : fleet.works i = s.records := by
  obtain ⟨d, hd, -, rfl⟩ := h.daemon
  rw [works, hd]
  rfl

theorem Attends.schedules (h : fleet.Attends c i .work ls s n) (hfirm : .failOnce ∉ ls)
    (hone : ls.count (.autorun c) = 1) {k : Commit Work}
    (hcovers : Change.Covers s.records k.store.records (k.events.map Event.change)) :
    fleet.Schedules c i k := by
  obtain ⟨_, fleet', hrun, h'⟩ := (h.leads_announce hfirm k).exists_ok
  refine ⟨fleet', hrun, h'.works_eq, ?_⟩
  rw [h'.passes, h.passes, hone, Nat.one_mul, h.works_eq, h'.works_eq,
    ← Work.finishing_eq_card hcovers]
  rfl

/-- Each commit of a call on a work store that a controller listens to puts as many passes into the
queue as it has finished items, whoever else listens. A call that marks an item as done brings one
pass, and a call that does not ask for that brings none. -/
theorem finished_items_bring_passes {d : Daemon} {act : Act} (hd : fleet.daemons[i]? = some d)
    (held : (fleet.controllers[c]?).any (·.held) = true)
    (hone : (d.listeners.get .work).count (.autorun c) = 1)
    (hfirm : .failOnce ∉ d.listeners.get .work) (hcourse : Course d.stores.work)
    (hclean : act.Clean d.stores.work fleet.host.disk) :
    ∃ desk result fleet',
      (act.run ⟨d.stores.work, fleet.host, []⟩ = .ok ⟨⟩ desk ∧ result = .ok ⟨⟩ ∨
        ∃ err, act.run ⟨d.stores.work, fleet.host, []⟩ = .error err desk ∧ result = .error err) ∧
      perform i .work act.run fleet = .ok result fleet' ∧ fleet'.works i = desk.store.records ∧
      (∀ before k after, desk.commits = before ++ k :: after →
        ∃ mid, forM before (announce i .work) fleet = .ok ⟨⟩ mid ∧ mid.Schedules c i k) ∧
      (∀ id, act = .call (.markDone id) → result = .ok () →
        fleet'.passes c = fleet.passes c + 1) ∧
      (∀ q, act = .call q → ¬ q.AsksDone → fleet'.passes c = fleet.passes c) := by
  have hattends : fleet.Attends c i .work (d.listeners.get .work) d.stores.work (fleet.passes c) :=
    ⟨held, ⟨d, hd, rfl, rfl⟩, rfl⟩
  have hdistinct := hcourse.distinct
  obtain ⟨result, fleet', hperform, desk, hfinal, hends⟩ :=
    (hattends.leads_perform hfirm (leads_self act.run ⟨d.stores.work, fleet.host, []⟩)).exists_ok
  have hanswer : act.run ⟨d.stores.work, fleet.host, []⟩ = .ok ⟨⟩ desk ∧ result = .ok ⟨⟩ ∨
      ∃ err, act.run ⟨d.stores.work, fleet.host, []⟩ = .error err desk ∧ result = .error err := by
    obtain ⟨_, hresult, hok⟩ | ⟨err, hresult, herror⟩ := hends
    · exact .inl ⟨hok, hresult⟩
    · exact .inr ⟨err, herror, hresult⟩
  have hdesk : Ends act.run ⟨d.stores.work, fleet.host, []⟩ desk := by
    obtain ⟨hok, -⟩ | ⟨err, herror, -⟩ := hanswer
    · exact .inl ⟨_, hok⟩
    · exact .inr ⟨err, herror⟩
  obtain ⟨-, records, hrecounts⟩ := (Act.leads_run hdistinct hclean).of_ends hdesk
  have hpasses : fleet'.passes c =
      fleet.passes c + Work.finishing (desk.commits.flatMap Commit.events) := by
    rw [hfinal.passes, hone, Nat.one_mul]
    rfl
  refine ⟨desk, result, fleet', hanswer, hperform, hfinal.works_eq, ?commit, ?done, ?other⟩
  case commit =>
    intro before k after hk
    obtain ⟨old, hbefore, hcovers⟩ := Store.Recounts.covers (hk ▸ hrecounts)
    obtain ⟨_, mid, hmid, hattends'⟩ := (hattends.leads_announceAll hfirm before).exists_ok
    refine ⟨mid, hmid, hattends'.schedules hfirm hone ?_⟩
    have hold : old = (((before.getLast?).map (·.store)).getD d.stores.work).records := by
      rw [hbefore.records_eq]
      cases before.getLast? <;> rfl
    exact hold ▸ hcovers
  case done =>
    rintro id rfl rfl
    obtain ⟨hok, -⟩ | ⟨err, -, he⟩ := hanswer
    · rw [hpasses, (Act.leads_markDone hdistinct id).of_ok hok]
    · cases he
  case other =>
    rintro q rfl hq
    rw [hpasses, (Act.leads_unfinishing hdistinct hq).of_ends hdesk, Nat.add_zero]

/-- The only child of an item that waits for it is marked as done. The item is closed after it, and
there is one pass. -/
theorem finished_items_bring_passes_climbing : ∃ (fleet fleet' : Fleet) (d : Daemon) (p c : Work),
    fleet.daemons[0]? = some d ∧ Course d.stores.work ∧
    d.listeners.get .work = [.journal, .autorun 0] ∧ d.stores.work.records = [p, c] ∧
    p.status = .done ∧ c.parentId = some p.id ∧ c.status = .inProgress ∧
    perform 0 .work (Act.run (.call (.markDone c.id))) fleet = .ok (.ok ()) fleet' ∧
    Work.Moved p (fleet'.works 0) ∧ fleet'.passes 0 = 1 := by
  let data : Location := ⟨["data"], "/data"⟩
  let host : Host := { ids := fun _ => "w", times := fun _ => .epoch }
  let p : Work := ⟨"p", .story, none, "p", "", .done, none, none, .zero, .epoch, .epoch⟩
  let c : Work := ⟨"c", .task, some "p", "c", "", .inProgress, none, none, .zero, .epoch, .epoch⟩
  let reading : Store.Reading Work := ⟨0, ⟨[p, c], none⟩⟩
  have hrun : ((Store.done? (Store.open (R := Work) data host)).bind fun a =>
      (Store.done? (Act.run (.absorb reading) ⟨a.1, a.2, []⟩)).map fun b => b.2.store.records) =
      some [p, c] := by
    decide +kernel
  simp only [Option.bind_eq_some_iff, Option.map_eq_some_iff, Prod.exists, Store.done?_eq_some]
    at hrun
  obtain ⟨s, host', hopen, _, desk, htook, hrecords⟩ := hrun
  have hclean : (Act.absorb reading).Clean s host'.disk := show Record.Distinct [p, c] by decide
  have hcourse : Course desk.store :=
    .acted (.opened (.of_holds (.of_missing rfl) List.nodup_nil) hopen) hclean (.inl ⟨_, htook⟩)
  let d : Daemon := {
    name := "d"
    data
    stores := (PerEntity.const fun e => ⟨.ofData e.Rec data, [], 0, none, 0⟩ :
      PerEntity fun e => Store e.Rec).set .work desk.store
    listeners := (PerEntity.const fun _ => []).set .work [.journal, .autorun 0] }
  let fleet : Fleet := {
    host
    daemons := [d]
    controllers := [{ daemon := 0, asksOutside := false, continueMessage := "" }] }
  obtain ⟨last, result, fleet', hanswer, hperform, hworks, -, hone, -⟩ :=
    @finished_items_bring_passes 0 0 fleet d (.call (.markDone "c")) rfl rfl rfl
      (show Listener.failOnce ∉ [.journal, .autorun 0] by decide) hcourse trivial
  have hvalid : ∀ w ∈ [p, c], Work.validate w = .ok () := by decide +kernel
  let start : Store.Desk Work := ⟨desk.store, host, []⟩
  have hstart : start.store.records = [p, c] := hrecords
  have hsound : Work.Sound start.store.records := by
    rw [hstart]
    exact ⟨by decide, hvalid⟩
  have hserved : start.Served := Index.writable_empty _
  have hmem : c ∈ start.store.records := by simp [hstart]
  obtain ⟨t, w, last', hdone, hthrough⟩ :=
    Work.exists_markDone_eq hsound hserved hmem rfl (by simp [hstart, c, p])
  have hran : Act.run (.call (.markDone "c")) start = .ok ⟨⟩ last' :=
    map_of_ok hdone _
  obtain ⟨rfl, rfl⟩ : last' = last ∧ result = .ok ⟨⟩ := by
    obtain ⟨hok, hresult⟩ | ⟨err, herror, -⟩ := hanswer
    · cases hran.symm.trans hok
      exact ⟨rfl, hresult⟩
    · cases hran.symm.trans herror
  rw [hstart] at hthrough
  let done : Work := { c with status := .done, updatedAt := t }
  have hzero : Work.Closes [p, done] done 0 :=
    .start (Or.inr ⟨rfl, by simp [Work.HasUnclosed, p, c, done]⟩)
  have hparent : Work.ancestor? [p, done] done 1 = some p := rfl
  have hup : Work.Closes [p, done] done 1 := by
    refine .up hzero hparent rfl fun a ha hchild => .inr ⟨0, Nat.le_refl 0, ?_⟩
    -- the item that waits has one child
    rcases List.mem_cons.1 ha with rfl | ha
    · cases hchild
    · rw [List.mem_singleton.1 ha]
      rfl
  have hmoved : Work.Moved p last'.store.records :=
    (hthrough.closed.closes_succ_iff_moved hzero hparent).1 hup
  exact ⟨fleet, fleet', d, p, c, rfl, hcourse, rfl, hrecords, rfl, rfl, rfl, hperform,
    hworks ▸ hmoved, hone "c" rfl rfl⟩

end Fleet

end WorkQueue
