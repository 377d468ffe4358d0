import WorkQueue.Daemon.Lifecycle
import WorkQueue.Proofs.Daemon.Settling

/-!
# Draining the queue

A controller that is attended to starts what is open, one item after another, if what it has started
is finished each time its tasks have settled: by priority, items of one priority in the order in
which they are kept, and each of them once.
-/

namespace WorkQueue

open Autorun
open Work (AtRest AtWork Filled Quiet StartOrder agenda)

/-- The daemon with a controller that listens to items and settings. -/
def Daemon.watchedBy (d : Daemon) (c : Nat) (channel : Option Nat) : Daemon :=
  { d with
    channel
    listeners := { d.listeners with
      work := d.listeners.work ++ [.autorun c]
      settings := d.listeners.settings ++ [.autorun c] } }

theorem Daemon.mem_watchedBy {d : Daemon} {c : Nat} {channel : Option Nat} {e : Entity}
    {l : Listener} (h : l ∈ (d.watchedBy c channel).listeners.get e) :
    l ∈ d.listeners.get e ∨ l = .autorun c := by
  cases e with
  | work => exact (List.mem_append.1 h).imp_right List.mem_singleton.1
  | settings => exact (List.mem_append.1 h).imp_right List.mem_singleton.1
  | _ => exact Or.inl h

namespace Fleet

variable {fleet : Fleet} {i c capacity : Nat} {d : Daemon}

/-! ### Attaching -/

theorem leads_watch {failed : Interrupted → Fleet → Prop} (hd : fleet.daemons[i]? = some d)
    (unwatched : d.channel = none) :
    Leads (watch i c capacity) fleet
      (fun _ fleet' => fleet'.controllers = fleet.controllers ∧ fleet'.host = fleet.host ∧
        (∃ ch, fleet'.tasks = fleet.tasks ++ [.readEvents ch]) ∧
        ∃ channel, fleet'.daemons[i]? = some (d.watchedBy c channel))
      failed := by
  rw [watch, leads_bind, dropChannel, leads_daemon_bind hd, unwatched]
  apply (leads_pure _).2
  simp only [listen, modifyDaemon, spawn, leads_bind, leads_get, leads_modify,
    List.getElem?_modify, hd, if_pos, true_and]
  exact ⟨⟨_, rfl⟩, _, rfl⟩

theorem leads_attachAutorun {failed : Interrupted → Fleet → Prop}
    (hd : fleet.daemons[i]? = some d) (vacant : d.controller = none)
    (unwatched : d.channel = none) : Leads (attachAutorun i capacity) fleet
      (fun _ fleet' => fleet'.host = fleet.host ∧ fleet'.controllers = fleet.controllers ++
          [{ daemon := i, asksOutside := false, continueMessage := d.config.continueMessage }] ∧
        (∃ ch, fleet'.tasks = fleet.tasks ++ [.readEvents ch, .pass fleet.controllers.length]) ∧
        ∃ channel, fleet'.daemons[i]? = some (Daemon.watchedBy
          { d with controller := some fleet.controllers.length } fleet.controllers.length channel))
      failed := by
  rw [attachAutorun, leads_bind, dropController, leads_daemon_bind hd, vacant]
  apply (leads_pure _).2
  rw [leads_daemon_bind hd, leads_bind, leads_get, leads_bind, leads_modify, leads_bind,
    modifyDaemon, leads_modify, leads_bind]
  refine (leads_watch (d := { d with controller := some fleet.controllers.length }) ?_
    unwatched).imp ?_
  · simp [hd]
  · rintro _ fleet₁ ⟨hcontrollers, hhost, ⟨ch, htasks⟩, channel, hd₂⟩
    refine (leads_modify _).2 ⟨hhost, hcontrollers, ⟨ch, ?_⟩, channel, hd₂⟩
    rw [htasks, List.append_assoc]
    rfl

/-! ### Rounds -/

/-- The ids of the items in progress. -/
def inProgress (i : Nat) : FleetM (List String) := do
  return ((← daemon i).stores.work.list.filter (·.status = .inProgress)).map (·.id)

/-- Lets the tasks settle and finishes what is in progress then, until nothing is, in at most so
many rounds: what was in progress in each of them. -/
def drain (i : Nat) : Nat → FleetM (List (List String))
  | 0 => return []
  | n + 1 => do
    settle
    match ← inProgress i with
    | [] => return []
    | ids =>
      ids.forM fun id => discard (perform i .work (Work.markDone id))
      return ids :: (← drain i n)

end Fleet

namespace Site

variable {site : Site} {gone : Nat → Prop} {items : List Work} {w : Work} {n : Nat}
  {fleet : Fleet} {i : Nat} {d : Daemon}

theorem leads_inProgress {failed : Interrupted → Fleet → Prop} {ids : List String}
    (h : (site.daemon.stores.work.list.filter (·.status = .inProgress)).map (·.id) = ids) :
    Leads (Fleet.inProgress site.controller.daemon) site.fleet
      (fun found fleet => found = ids ∧ fleet = site.fleet) failed := by
  rw [Fleet.inProgress, Fleet.leads_daemon_bind site.daemon_eq]
  exact ⟨h, rfl⟩

theorem filter_list_of_atWork {s : Store Work} (h : AtWork s.records w items) :
    s.list.filter (·.status = .inProgress) = [w] := by
  have hperm := (LawfulRecord.order_perm s.records).filter fun w => decide (w.status = .inProgress)
  rw [h.active] at hperm
  exact hperm.eq_singleton

theorem filter_list_of_atRest {s : Store Work} (h : AtRest s.records items) :
    s.list.filter (·.status = .inProgress) = [] := by
  have hperm := (LawfulRecord.order_perm s.records).filter fun w => decide (w.status = .inProgress)
  rw [Work.filter_active_eq_nil h.idle] at hperm
  exact hperm.eq_nil

/-- What is to be started is started, one item in each round. -/
theorem Attended.leads_drain (h : site.Attended gone)
    (rest : AtRest site.daemon.stores.work.records items)
    (resolvable : ∀ w ∈ items, Resolvable site.daemon.stores.role w)
    (due : .pass site.number ∈ site.fleet.tasks) (hn : items.length < n) :
    Leads (Fleet.drain site.controller.daemon n) site.fleet
      (fun started fleet => started = items.map (fun w => [w.id]) ∧
        ∃ site', site.Reached gone fleet site' ∧ AtRest site'.daemon.stores.work.records [] ∧
          site'.fleet.tasks = [] ∧ site'.daemon.stores.session.records.length =
            site.daemon.stores.session.records.length + items.length)
      (fun _ _ => False) := by
  induction items generalizing site n with
  | nil =>
    obtain ⟨n, rfl⟩ := Nat.exists_eq_add_one.2 hn
    rw [Fleet.drain]
    rw [leads_bind]
    apply ((h.leads_settle_of_quiet (Or.inl rest)).and (Fleet.leads_settle_empties _)).mono _
      fun _ _ hfalse => hfalse.2
    rintro _ fleet ⟨⟨site₁, hreached₁, hstores₁⟩, hempty⟩
    obtain rfl := hreached₁.fleet_eq
    have hrest₁ : AtRest site₁.daemon.stores.work.records [] := hstores₁ ▸ rest
    rw [← hreached₁.later.controller]
    apply (leads_inProgress (by rw [filter_list_of_atRest hrest₁, List.map_nil])).bind
    rintro _ _ ⟨rfl, rfl⟩
    exact (leads_pure _).2 ⟨rfl, site₁, hreached₁, hrest₁, hempty, by rw [hstores₁]; rfl⟩
  | cons w items ih =>
    obtain ⟨n, rfl⟩ := Nat.exists_eq_add_one.2 (Nat.zero_lt_of_lt hn)
    rw [Fleet.drain]
    apply (h.leads_settle_of_atRest rest (resolvable w List.mem_cons_self) due).bind
    rintro _ fleet ⟨site₁, hreached₁, next, hid, hatWork₁, hsessions₁⟩
    obtain rfl := hreached₁.fleet_eq
    rw [← hreached₁.later.controller]
    apply (leads_inProgress (by rw [filter_list_of_atWork hatWork₁, List.map_singleton])).bind
    rintro _ _ ⟨rfl, rfl⟩
    have hmark : Leads (forM [next.id] fun id =>
        discard (Fleet.perform site₁.controller.daemon .work (Work.markDone id))) site₁.fleet
        (fun _ fleet => ∃ site', site₁.Reached gone fleet site' ∧
          AtRest site'.daemon.stores.work.records items ∧
          site'.daemon.stores.session = site₁.daemon.stores.session ∧
          .pass site'.number ∈ site'.fleet.tasks)
        (fun _ _ => False) := by
      rw [List.forM_cons, leads_bind, leads_discard]
      apply (hreached₁.attended.leads_markDone_of_atWork hatWork₁).imp
      intro _ _ hdone
      exact (leads_pure _).2 hdone
    apply hmark.bind
    rintro _ fleet ⟨site₂, hreached₂, hrest₂, hsession₂, hdue₂⟩
    obtain rfl := hreached₂.fleet_eq
    have hlater := hreached₁.later.trans hreached₂.later
    have hresolvable : ∀ w ∈ items, Resolvable site₂.daemon.stores.role w := by
      intro v hv
      rw [hlater.role]
      exact resolvable v (List.mem_cons_of_mem w hv)
    rw [← hreached₂.later.controller]
    apply (ih hreached₂.attended hrest₂ hresolvable hdue₂ (Nat.lt_of_succ_lt_succ hn)).bind
    rintro _ fleet ⟨rfl, site₃, hreached₃, hrest₃, hempty₃, hsessions₃⟩
    refine (leads_pure _).2 ⟨?_, site₃, hlater.reached hreached₃, hrest₃, hempty₃, ?_⟩
    · rw [List.map_cons, hid]
    · rw [hsession₂, hsessions₁] at hsessions₃
      rw [hsessions₃, List.length_cons, Nat.add_assoc, Nat.add_comm 1]

/-! ### From the beginning -/

/-- A controller listens to its daemon, where no other that is alive does, and a pass of it is to be
run. Nothing refuses what its passes do, and what they make can be written and has new ids. -/
structure Attached (site : Site) : Prop where
  free : site.controller.processing = false
  held : site.controller.held = true
  listens : .autorun site.number ∈ site.daemon.listeners.get .work
  alone : ∀ e c, .autorun c ∈ site.daemon.listeners.get e →
    c = site.number ∨ Fleet.isAlive site.fleet c = false
  own : ∀ c, .pass c ∈ site.fleet.tasks → c = site.number
  due : .pass site.number ∈ site.fleet.tasks
  willing : site.Willing
  serviced : Serviced site.daemon.data site.daemon.stores site.fleet.host

theorem Attached.attended (h : site.Attached) :
    site.Attended fun c => Fleet.isAlive site.fleet c = false where
  free := h.free
  willing := h.willing
  serviced := h.serviced
  inCharge := {
    held := ⟨site.controller, site.controller_eq, rfl, h.held⟩
    listens := ⟨site.daemon, site.daemon_eq, h.listens, h.alone⟩
    gone := fun _ hc => hc
    own := h.own
    ahead := List.prefix_rfl }

/-- A first controller that is attached to a daemon is all that, where autorun is on and nothing
refuses what passes do. -/
theorem exists_attached (hd : fleet.daemons[i]? = some d) (vacant : d.controller = none)
    (unwatched : d.channel = none) (alone : ∀ e c, .autorun c ∉ d.listeners.get e)
    (own : ∀ c, .pass c ∉ fleet.tasks) (enabled : Settings.autorunOn d.stores.settings = true)
    (answers : ∀ r : Request, r.isMessage = true → d.outside.refusals.lookup r.name = none)
    (steady : ∀ e, .failOnce ∉ d.listeners.get e)
    (serviced : Serviced d.data d.stores fleet.host) (capacity : Nat) :
    ∃ site : Site, Fleet.attachAutorun i capacity fleet = .ok ⟨⟩ site.fleet ∧
      site.controller.daemon = i ∧ site.daemon.stores = d.stores ∧ site.Attached := by
  have hrun : Leads (Fleet.attachAutorun i capacity) fleet _ fun _ _ => False :=
    Fleet.leads_attachAutorun hd vacant unwatched
  cases hattach : Fleet.attachAutorun i capacity fleet with
  | error e fleet' => exact (hrun.of_error hattach).elim
  | ok _ fleet' =>
    obtain ⟨hhost, hcontrollers, ⟨ch, htasks⟩, channel, hd'⟩ := hrun.of_ok hattach
    let x : Controller :=
      { daemon := i, asksOutside := false, continueMessage := d.config.continueMessage }
    have hx : fleet'.controllers[fleet.controllers.length]? = some x := by
      rw [hcontrollers, List.getElem?_concat_length]
    let site : Site := ⟨fleet', fleet.controllers.length, x, _, hx, hd'⟩
    refine ⟨site, rfl, rfl, rfl, rfl, rfl, ?_, ?_, ?_, ?_, ⟨?_, enabled, ?_⟩, ?_⟩
    · exact List.mem_append_right _ List.mem_cons_self
    · intro e c hc
      rcases Daemon.mem_watchedBy hc with hc | hc
      · exact absurd hc (alone e c)
      · exact Or.inl (Listener.autorun.inj hc)
    · intro c hc
      change _ ∈ fleet'.tasks at hc
      rw [htasks] at hc
      simpa [own] using hc
    · change _ ∈ fleet'.tasks
      rw [htasks]
      exact List.mem_append_right _ (List.mem_cons_of_mem _ List.mem_cons_self)
    · intro r
      have hasks : site.asks r = r.isMessage := Bool.false_or _
      have houtside : site.daemon.outside = d.outside := rfl
      rw [answer, hasks, houtside]
      by_cases hr : r.isMessage = true
      · rw [if_pos hr, answers r hr]
      · exact if_neg hr
    · intro e he
      rcases Daemon.mem_watchedBy he with he | he
      · exact steady e he
      · cases he
    · change Serviced d.data d.stores fleet'.host
      rw [hhost]
      exact serviced

private theorem exists_filled_pair : ∃ (s : Store Work) (a b : Work), Filled [a.id, b.id] s ∧
    s.index = .ofData Work ⟨["data"], "/data"⟩ ∧ s.records = [a, b] ∧
    a.status = .open ∧ b.status = .open ∧ (∀ w ∈ [a, b], w.roleId = some "r") ∧
    b.priority.value < a.priority.value := by
  let data : Location := ⟨["data"], "/data"⟩
  let host : Host := { ids := fun n => if n = 0 then "a" else "b", times := fun _ => .epoch }
  let s : Store Work := { index := .ofData Work data, records := [], digest := none }
  let one : Priority := Priority.zero.succ
  let a : Work := ⟨"a", .task, none, "later", "", .open, some "r", none, one, .epoch, .epoch⟩
  let b : Work := ⟨"b", .task, none, "sooner", "", .open, some "r", none, .zero, .epoch, .epoch⟩
  have hmade : ((Store.done? (Work.create { title := "later", roleId := some "r" }
      ⟨s, host, []⟩)).bind fun x =>
      (Store.done? (Work.create { title := "sooner", roleId := some "r", priority := some .zero }
        ⟨x.2.store, x.2.host, []⟩)).map fun y => (y.2.store.index, y.2.store.records)) =
      some (s.index, [a, b]) := by
    decide +kernel
  simp only [Option.bind_eq_some_iff, Option.map_eq_some_iff, Prod.exists, Prod.mk.injEq,
    Store.done?_eq_some] at hmade
  obtain ⟨w₁, d₁, hfirst, w₂, d₂, hsecond, hindex, hrecords⟩ := hmade
  have hfilled : Filled [w₁.id, w₂.id] d₂.store :=
    .answered (q := .create _) (.answered (q := .create _) (.empty rfl) (fun _ => nofun) hfirst)
      (fun _ => nofun) hsecond
  have hids : [w₁.id, w₂.id] = [a.id, b.id] := by
    rw [← hfilled.map_id, hrecords]
    rfl
  exact ⟨d₂.store, a, b, hids ▸ hfilled, hindex, hrecords, rfl, rfl, by decide, by decide⟩

/-- Autorun drains the queue in order. Where the items were made in some order, none of them was
deleted, none is in progress, and the open ones have roles that are there, each round finds one item
in progress: the open items by priority, those of one priority in the order in which they were made,
each of them once, with a session of its own. In the end none is open or in progress, and no task is
left. -/
theorem drain_starts_all {made : List String} (attached : site.Attached)
    (filled : Filled made site.daemon.stores.work)
    (idle : ∀ w ∈ site.daemon.stores.work.records, w.status ≠ .inProgress)
    (resolvable : ∀ w ∈ site.daemon.stores.work.records, w.status = .open →
      Resolvable site.daemon.stores.role w) :
    ∃ items, StartOrder site.daemon.stores.work.records items ∧ (items.map (·.id)).Nodup ∧
      (∀ p, ((items.filter (·.priority.value = p)).map (·.id)).Sublist made) ∧
      ∀ n, items.length < n → ∃ fleet d,
        Fleet.drain site.controller.daemon n site.fleet =
          .ok (items.map fun w => [w.id]) fleet ∧
        fleet.tasks = [] ∧ fleet.daemons[site.controller.daemon]? = some d ∧
        d.stores.session.records.length =
          site.daemon.stores.session.records.length + items.length ∧
        ∀ w ∈ d.stores.work.records, w.status ≠ .open ∧ w.status ≠ .inProgress := by
  obtain ⟨sound, linked⟩ := filled.sound_and_linked
  have rest : AtRest site.daemon.stores.work.records (agenda site.daemon.stores.work.records) :=
    ⟨sound, linked, rfl, Work.activeCount_eq_zero_iff.2 idle⟩
  have horder := Work.startOrder_agenda site.daemon.stores.work.records
  refine ⟨_, horder, Work.nodup_agenda sound.distinct,
    fun p => filled.map_id ▸ horder.sublist p, ?_⟩
  intro n hn
  have hdrain := attached.attended.leads_drain rest (fun w hw => by
    obtain ⟨hmem, hopen⟩ := Work.mem_agenda.1 hw
    exact resolvable w hmem hopen) attached.due hn
  cases hrun : Fleet.drain site.controller.daemon n site.fleet with
  | error e fleet => exact (hdrain.of_error hrun).elim
  | ok started fleet =>
    obtain ⟨rfl, site', hreached, hrest, hempty, hsessions⟩ := hdrain.of_ok hrun
    obtain rfl := hreached.fleet_eq
    refine ⟨site'.fleet, site'.daemon, rfl, hempty, hreached.later.controller ▸ site'.daemon_eq,
      hsessions, ?_⟩
    intro w hw
    refine ⟨?_, Work.activeCount_eq_zero_iff.1 hrest.idle w hw⟩
    intro hopen
    have hagenda := Work.mem_agenda.2 ⟨hw, hopen⟩
    rw [hrest.agenda_eq] at hagenda
    exact List.not_mem_nil hagenda

/-- The second of two items comes first. -/
theorem drain_starts_all_pair : ∃ (site : Site) (a b : Work) (fleet : Fleet),
    site.Attached ∧ Filled [a.id, b.id] site.daemon.stores.work ∧
    site.daemon.stores.work.records = [a, b] ∧ a.status = .open ∧ b.status = .open ∧
    b.priority.value < a.priority.value ∧
    Fleet.drain site.controller.daemon 3 site.fleet = .ok [[b.id], [a.id]] fleet := by
  obtain ⟨s, a, b, hfilled, hindex, hrecords, ha, hb, hroles, hbefore⟩ := exists_filled_pair
  let data : Location := ⟨["data"], "/data"⟩
  let r : Role := ⟨"r", "r", "", .epoch, .epoch⟩
  let on : Settings := ⟨"global", true, .epoch, .epoch⟩
  let d : Daemon := {
    name := "d"
    data
    stores := {
      work := s
      role := { index := .ofData Role data, records := [r], digest := none }
      command := { index := .ofData Snippet data, records := [], digest := none }
      session := { index := .ofData Session data, records := [], digest := none }
      settings := { index := .ofData Settings data, records := [on], digest := none } } }
  let fleet : Fleet := {
    host := {
      ids := fun n => String.ofList (List.replicate (n + 1) 's')
      times := fun _ => .epoch }
    daemons := [d] }
  have hids : Function.Injective fleet.host.ids := by
    intro m n h
    have hlength := congrArg List.length (String.ofList_injective h)
    simpa using hlength
  have hserviced : Serviced d.data d.stores fleet.host := {
    work := hindex
    session := rfl
    workWritable := Index.writable_empty _
    sessionWritable := Index.writable_empty _
    injective := hids
    named := by simp [fleet, List.replicate_succ]
    spent := fun _ hs => absurd hs List.not_mem_nil }
  have hdeaf (e : Entity) : d.listeners.get e = [] := by cases e <;> rfl
  obtain ⟨site, -, hdaemon, hstores, hattached⟩ := exists_attached
    (show fleet.daemons[0]? = some d from rfl) rfl rfl (fun e c => hdeaf e ▸ List.not_mem_nil)
    (fun _ => List.not_mem_nil) rfl (fun _ _ => rfl) (fun e => hdeaf e ▸ List.not_mem_nil) hserviced
    64
  have hworks : site.daemon.stores.work = s := by rw [hstores]
  rw [← hworks] at hfilled hrecords
  have hidle : ∀ w ∈ site.daemon.stores.work.records, w.status ≠ .inProgress := by
    rw [hrecords]
    simp [ha, hb]
  have hresolvable : ∀ w ∈ site.daemon.stores.work.records, w.status = .open →
      Resolvable site.daemon.stores.role w := by
    intro w hw _
    rw [hrecords] at hw
    rw [hstores]
    exact ⟨"r", r, hroles w hw, rfl⟩
  obtain ⟨items, horder, -, -, hdrain⟩ := drain_starts_all hattached hfilled hidle hresolvable
  rw [hrecords] at horder
  obtain rfl := horder.eq_of_lt ha hb hbefore
  obtain ⟨fleet', -, hrun, -⟩ := hdrain 3 (Nat.lt_add_one 2)
  exact ⟨site, a, b, fleet', hattached, hfilled, hrecords, ha, hb, hbefore, hrun⟩

end Site

end WorkQueue
