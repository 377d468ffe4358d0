import WorkQueue.Proofs.Daemon.Messages

/-!
# Who is written to

A controller runs its tasks in any order, each as a whole turn. In between events of agents are
reported, passes are asked for, records are changed, autorun is switched, and collaborators answer
as they like. Whatever the course of it, messages go to work in progress only.
-/

namespace WorkQueue

open Autorun
open Record (Distinct)
open Store (Rooted)
open Work (Aging)
open Fleet (Said)

namespace Autorun.Request

/-- A message in answer to an event. -/
def isNudge : Request → Bool
  | send _ _ => true
  | _ => false

/-- The first message of a session. -/
def isKickoff : Request → Bool
  | kickoff _ _ _ => true
  | _ => false

end Autorun.Request

/-- What a controller was told and what it has said. -/
structure Correspondence where
  fleet : Fleet
  /-- the events of agents that were reported -/
  reported : Multiset AgentEvent
  /-- the messages that were handed over, each with the fleet at that moment -/
  handed : List (Request × Fleet) := []
  /-- the items that its passes have moved to in progress -/
  started : List Work := []

namespace Correspondence

/-- Nothing has been said yet. -/
def start (fleet : Fleet) : Correspondence where
  fleet := fleet
  reported := fleet.pending

def nudges (f : Correspondence) : List Request := (f.handed.map (·.1)).filter (·.isNudge)

def kickoffs (f : Correspondence) : List Request := (f.handed.map (·.1)).filter (·.isKickoff)

/-- A task was run to its end, which was at a place in the queue, and leaves the queue. -/
def turned (c k : Nat) (t : Task) (fleet' : Fleet) (f : Correspondence) : Correspondence where
  fleet := { fleet' with tasks := fleet'.tasks.eraseIdx k }
  reported := f.reported
  handed := f.handed ++
    (fleet'.messages.drop f.fleet.messages.length).map fun r => (r, f.fleet.moment t)
  started := f.started ++ (fleet'.worksOf c).filter (isNewlyActive (f.fleet.worksOf c))

/-- One turn of the controller of a daemon, or what happens between two turns. -/
inductive Move (c i : Nat) (f : Correspondence) : Correspondence → Prop where
  | runs {k : Nat} {t : Task} {fleet' : Fleet} (queued : f.fleet.tasks[k]? = some t)
      (own : Fleet.Task.isOf c t = true) (run : Ends (Fleet.runTask t) f.fleet fleet') :
      Move c i f (f.turned c k t fleet')
  | asksForPass {fleet' : Fleet} (run : Ends (Fleet.spawn (.pass c)) f.fleet fleet') :
      Move c i f { f with fleet := fleet' }
  | hands {event : AgentEvent} {fleet' : Fleet}
      (run : Ends (Fleet.spawn (.handle c event)) f.fleet fleet') :
      Move c i f { f with fleet := fleet', reported := f.reported + {event} }
  | reports {event : AgentEvent} {fleet' : Fleet} (run : Ends (Fleet.emit i event) f.fleet fleet') :
      Move c i f { f with fleet := fleet', reported := f.reported + {event} }
  | changesWork {q : Work.Request} {fleet' : Fleet}
      (run : Ends (Fleet.perform i .work q.run) f.fleet fleet') :
      Move c i f { f with fleet := fleet' }
  | changesRecord {e : Entity} {q : Store.Request e.Rec} {fleet' : Fleet} (other : e ≠ .work)
      (run : Ends (Fleet.perform i e q.run) f.fleet fleet') : Move c i f { f with fleet := fleet' }
  | switches {on : Bool} {fleet' : Fleet}
      (run : Ends (Fleet.perform i .settings (Settings.setAutorun on)) f.fleet fleet') :
      Move c i f { f with fleet := fleet' }
  /-- Collaborators answer otherwise, the clock goes on, or others have written to the disk. -/
  | elsewhere (outside : Outside) {host : Host} (ids : host.ids = f.fleet.host.ids)
      (taken : f.fleet.host.minted ≤ host.minted) :
      Move c i f { f with fleet := { f.fleet with
        host, daemons := f.fleet.daemons.modify i fun d => { d with outside } } }

end Correspondence

namespace Site

variable {site site' : Site} {scene : Scene} {fleet : Fleet} {e : Entity} {α : Type}

/-! ### Between two turns -/

/-- The controller is ready again, items got older, and nothing was said. So much was reported. -/
structure Aged (site : Site) (into : Multiset AgentEvent) (fleet : Fleet) : Prop where
  next : ∃ site', site'.fleet = fleet ∧ site.Succeeds site' ∧
    Aging site.daemon.stores.work.records site.fleet.host.supply
      site'.daemon.stores.work.records site'.fleet.host.supply
  messages : fleet.messages = site.fleet.messages
  pending_le : fleet.pending ≤ site.fleet.pending + into

/-- The items got older in a call on the store of an entity. -/
def Ages (site : Site) (e : Entity) (desk : Store.Desk e.Rec) : Prop :=
  Aging site.daemon.stores.work.records site.fleet.host.supply
    (site.daemon.stores.set e desk.store).work.records desk.host.supply

theorem Shows.exists_site (h : site.Shows scene fleet)
    (free : scene.processing = site.controller.processing) :
    ∃ (site' : Site) (notifiers : _), site'.fleet = fleet ∧ site'.number = site.number ∧
      site'.controller = site.controller ∧
      site'.daemon = site.daemonWith scene.stores notifiers := by
  obtain ⟨notifiers, hdaemon⟩ := h.exists_daemon
  have hcontroller := h.controller_eq
  rw [free] at hcontroller
  exact ⟨⟨fleet, site.number, site.controller, _, hcontroller, hdaemon⟩, notifiers, rfl, rfl, rfl,
    rfl⟩

/-- A call on a store lets items get older and says nothing. -/
theorem Ready.leads_edit (ready : site.Ready) {call : StoreM e.Rec α}
    (rooted : ∀ i supply, Keeps (Rooted i supply) call)
    (ages : Leads call ⟨site.daemon.stores.get e, site.fleet.host, []⟩ (fun _ => site.Ages e)
      fun _ => site.Ages e) :
    Leads (Fleet.perform site.controller.daemon e call) site.fleet
      (fun _ fleet' => site.Aged 0 fleet') (fun _ fleet' => site.Aged 0 fleet') := by
  have hunheard := (Fleet.blind_unheard site.fleet).keeps_perform (i := site.controller.daemon) call
    _ (Fleet.unheard_self site.fleet)
  have hsilent := (Fleet.blind_messages site.fleet.messages).keeps_perform
    (i := site.controller.daemon) call site.fleet rfl
  have hgrounded := Fleet.keeps_perform_grounded (j := site.controller.daemon)
    (fun i => rooted i site.fleet.host.supply) _ (grounded_self site.fleet)
  apply ((leads_perform site.shows_scene ages).and (hunheard.and (hsilent.and hgrounded))).mono
  · rintro _ fleet' ⟨⟨desk, h, hresult⟩, hunheard', hsilent', hgrounded'⟩
    have hages : site.Ages e desk := by
      rcases hresult with ⟨-, -, hages⟩ | ⟨-, -, hages⟩
      · exact hages
      · exact hages
    obtain ⟨site', notifiers, rfl, number, controller, hdaemon⟩ := h.exists_site rfl
    have haging : Aging site.daemon.stores.work.records site.fleet.host.supply
        site'.daemon.stores.work.records site'.fleet.host.supply := by
      rw [hdaemon, h.host]
      exact hages
    refine ⟨⟨site', rfl, ?_, haging⟩, hsilent', ?_⟩
    · exact ready.succeeds number controller (congrArg Daemon.data hdaemon :)
        (congrArg Daemon.listeners hdaemon :) (haging.distinct ready.distinct) hgrounded'
    · rw [hunheard'.pending_eq, add_zero]
  · rintro _ _ ⟨⟨⟨e, he⟩, -⟩, -⟩
    exact absurd he (ready.steady e)

theorem Ready.leads_changeWork (ready : site.Ready) (q : Work.Request) :
    Leads (Fleet.perform site.controller.daemon .work q.run) site.fleet
      (fun _ fleet' => site.Aged 0 fleet') (fun _ fleet' => site.Aged 0 fleet') := by
  apply ready.leads_edit (e := .work) fun _ _ => q.keeps_run_rooted
  exact q.leads_run_aging.mono (fun _ _ h => h.last) fun _ _ h => h.last

/-- A call on other records leaves the items as they are. -/
theorem Ready.leads_changeRecord (ready : site.Ready) (other : e ≠ .work) {call : StoreM e.Rec α}
    (rooted : ∀ i supply, Keeps (Rooted i supply) call) :
    Leads (Fleet.perform site.controller.daemon e call) site.fleet
      (fun _ fleet' => site.Aged 0 fleet') (fun _ fleet' => site.Aged 0 fleet') := by
  apply ready.leads_edit rooted
  have hages {desk : Store.Desk e.Rec}
      (h : Rooted (site.daemon.stores.get e).index site.fleet.host.supply desk) :
      site.Ages e desk := by
    have hsame : (site.daemon.stores.set e desk.store).work = site.daemon.stores.work :=
      PerEntity.get_set_of_ne site.daemon.stores desk.store other.symm
    rw [Ages, hsame]
    exact .of_eq h.last.ids h.last.taken
  have hstart : Rooted (site.daemon.stores.get e).index site.fleet.host.supply
      ⟨site.daemon.stores.get e, site.fleet.host, []⟩ :=
    Store.rooted_start ⟨rfl, rfl, le_refl _⟩
  apply (rooted _ _ _ hstart).mono
  · exact fun _ _ => hages
  · exact fun _ _ => hages

/-- Events that come in, are handed on or lost leave everything else as it is. -/
theorem Ready.aged_of_passes (ready : site.Ready) {into : Multiset AgentEvent}
    (h : Fleet.Passes into site.fleet fleet) : site.Aged into fleet where
  next := by
    let site' : Site := {
      site with
      fleet
      controller_eq := h.controllers ▸ site.controller_eq
      daemon_eq := h.daemons ▸ site.daemon_eq }
    have hsupply : fleet.host.supply = site.fleet.host.supply := by rw [h.host]
    exact ⟨site', rfl, ready.succeeds rfl rfl rfl rfl ready.distinct (grounded_of_passes h),
      hsupply ▸ .refl⟩
  messages := congrArg (List.filter _) h.requests
  pending_le := h.pending_le

/-- What collaborators answer, the clock and the disk are no business of items. -/
theorem Ready.aged_elsewhere (ready : site.Ready) (outside : Outside) {host : Host}
    (ids : host.ids = site.fleet.host.ids) (taken : site.fleet.host.minted ≤ host.minted) :
    site.Aged 0 { site.fleet with
      host, daemons := site.fleet.daemons.modify site.controller.daemon fun d =>
        { d with outside } } where
  next := by
    let site' : Site := {
      fleet := { site.fleet with
        host, daemons := site.fleet.daemons.modify site.controller.daemon fun d =>
          { d with outside } }
      number := site.number
      controller := site.controller
      daemon := { site.daemon with outside }
      controller_eq := site.controller_eq
      daemon_eq := by simp [site.daemon_eq] }
    refine ⟨site', rfl, ⟨rfl, rfl, ⟨ready.free, ready.steady, ready.distinct, ?_, ready.work,
      ready.session⟩, ids, taken⟩, .of_eq ids taken⟩
    intro n
    exact ids ▸ ready.named n
  messages := rfl
  pending_le := (add_zero _).ge

theorem Succeeds.trans {site'' : Site} (h : site.Succeeds site') (h' : site'.Succeeds site'') :
    site.Succeeds site'' :=
  ⟨h'.number.trans h.number, h'.controller.trans h.controller, h'.ready, h'.ids.trans h.ids,
    h.taken.trans h'.taken⟩

theorem Succeeds.worksOf_eq (h : site.Succeeds site') :
    site'.fleet.worksOf site.number = site'.daemon.stores.work.records := by
  rw [← h.number, site'.worksOf_eq]

/-- The queue may change without the controller. -/
theorem Succeeds.requeued (h : site.Succeeds site') (tasks : List Task) :
    ∃ site'' : Site, site''.fleet = { site'.fleet with tasks } ∧ site.Succeeds site'' := by
  obtain ⟨free, steady, distinct, named, work, session⟩ := h.ready
  let site'' : Site := { site' with fleet := { site'.fleet with tasks } }
  exact ⟨site'', rfl, h.number, h.controller, ⟨free, steady, distinct, named, work, session⟩,
    h.ids, h.taken⟩

/-- What waits when a task has left the queue, and the task's own event, waited before. -/
theorem Turned.pending_add_le {k : Nat} {t : Task} (h : site.Turned t fleet)
    (queued : site.fleet.tasks[k]? = some t) :
    ({ fleet with tasks := fleet.tasks.eraseIdx k } : Fleet).pending +
      ((Fleet.Task.event? t).toList : Multiset AgentEvent) ≤ site.fleet.pending := by
  obtain ⟨joined, hjoined⟩ := h.ahead
  have hlt := (List.getElem?_eq_some_iff.1 queued).1
  have hqueued : fleet.tasks[k]? = some t := by
    rw [← hjoined, List.getElem?_append_left hlt]
    exact queued
  rw [Fleet.pending_eraseIdx hqueued]
  exact h.pending_le

end Site

namespace Fleet

variable {c : Nat} {continueMessage : String} {fleet fleet' : Fleet} {t : Task}

/-- What one task may say, and for which items. -/
structure Speaks (c : Nat) (continueMessage : String) (fleet : Fleet) (t : Task)
    (said : List Request) (begun : List Work) : Prop where
  serves : ∀ r ∈ said, Serves c (fleet.moment t) r
  nudges : ∃ answered : List AgentEvent,
    said.filter (·.isNudge) = answered.map (fun e => .send e.sessionId continueMessage) ∧
    (∀ e ∈ answered, e.AsksOn) ∧
    (answered : Multiset AgentEvent) ≤ ((Task.event? t).toList : Multiset AgentEvent)
  kickoffs : List.Forall₂ (fun w r => r.Opens w) begun (said.filter (·.isKickoff))

theorem Said.speaks (h : Said c continueMessage fleet t fleet')
    (hd : Distinct (fleet.worksOf c)) :
    ∃ said, fleet'.messages = fleet.messages ++ said ∧
      Speaks c continueMessage fleet t said
        ((fleet'.worksOf c).filter (isNewlyActive (fleet.worksOf c))) := by
  have hnone {ws : List Work} (works : ws = fleet.worksOf c) :
      ws.filter (isNewlyActive (fleet.worksOf c)) = [] :=
    filter_isNewlyActive_eq_nil fun _ hw => works ▸ hw
  cases h with
  | nothing messages works =>
    refine ⟨[], messages.trans (List.append_nil _).symm, ?_, ⟨[], rfl, ?_, Multiset.zero_le _⟩, ?_⟩
    · exact fun _ hr => nomatch hr
    · exact fun _ he => nomatch he
    · rw [hnone works]
      exact .nil
  | @nudge event task asks works messages serves =>
    refine ⟨_, messages, ?_, ⟨[event], rfl, ?_, ?_⟩, ?_⟩
    · intro r hr
      exact List.mem_singleton.1 hr ▸ serves
    · intro e he
      exact List.mem_singleton.1 he ▸ asks
    · rw [task]
      exact le_refl _
    · rw [hnone works]
      exact .nil
  | @kickoff r previous w task begun opens messages serves =>
    obtain ⟨session, parentTitle, prompt, bound, hr⟩ := opens
    subst hr
    refine ⟨_, messages, ?_, ⟨[], rfl, ?_, Multiset.zero_le _⟩, ?_⟩
    · intro r hr
      exact List.mem_singleton.1 hr ▸ serves
    · exact fun _ he => nomatch he
    · rw [filter_isNewlyActive_of_begun begun hd]
      exact .cons ⟨session, parentTitle, prompt, bound, rfl⟩ .nil

/-- What was started before stays started once. -/
theorem Said.logged {supply supply' : (Nat → String) × Nat} {started : List String}
    (h : Said c continueMessage fleet t fleet') (ids : supply'.1 = supply.1)
    (taken : supply.2 ≤ supply'.2) (hlogged : Logged (fleet.worksOf c) supply started) :
    Logged (fleet'.worksOf c) supply'
      (started ++ begunIds (fleet.worksOf c) (fleet'.worksOf c)) := by
  have hlater {works : List Work} {started : List String} (h : Logged works supply started) :
      Logged works supply' started := h.aging (.of_eq ids taken)
  have hsame (works : fleet'.worksOf c = fleet.worksOf c) :
      Logged (fleet'.worksOf c) supply'
        (started ++ begunIds (fleet.worksOf c) (fleet'.worksOf c)) := by
    rw [works, begunIds_self, List.append_nil]
    exact hlater hlogged
  cases h with
  | nothing messages works => exact hsame works
  | nudge task asks works messages serves => exact hsame works
  | kickoff task begun opens messages serves => exact hlater (hlogged.begun begun)

end Fleet

namespace Correspondence

variable {c k : Nat} {first site : Site} {f f' : Correspondence} {fleet' : Fleet} {t : Task}

/-- What holds after every move. -/
structure Sound (first : Site) (f : Correspondence) : Prop where
  next : ∃ site, site.fleet = f.fleet ∧ first.Succeeds site
  messages : f.fleet.messages = first.fleet.messages ++ f.handed.map (·.1)
  serves : ∀ m ∈ f.handed, m.2.Serves first.number m.1
  /-- what waits to be handled has not been answered -/
  answers : ∃ answered : List AgentEvent,
    f.nudges = answered.map (fun e => .send e.sessionId first.controller.continueMessage) ∧
    (∀ e ∈ answered, e.AsksOn) ∧ (answered : Multiset AgentEvent) + f.fleet.pending ≤ f.reported
  opens : List.Forall₂ (fun w r => r.Opens w) f.started f.kickoffs
  logged : Logged (first.fleet.worksOf first.number) first.fleet.host.supply [] →
    Logged (f.fleet.worksOf first.number) f.fleet.host.supply (f.started.map (·.id))

theorem sound_start (ready : first.Ready) : Sound first (start first.fleet) where
  next := ⟨first, rfl, rfl, rfl, ready, rfl, le_refl _⟩
  messages := (List.append_nil _).symm
  serves _ hm := nomatch hm
  answers := ⟨[], rfl, fun _ he => (nomatch he), (zero_add _).le⟩
  opens := .nil
  logged h := h

/-- Where nothing is said and items get older, all stays as it should be. -/
theorem Sound.aged (h : Sound first f) (hsite : site.fleet = f.fleet)
    (succeeds : first.Succeeds site) {into : Multiset AgentEvent} (aged : site.Aged into fleet') :
    Sound first { f with fleet := fleet', reported := f.reported + into } := by
  obtain ⟨site', rfl, hnext, haging⟩ := aged.next
  refine ⟨⟨site', rfl, succeeds.trans hnext⟩, ?_, h.serves, ?_, h.opens, ?_⟩
  · exact aged.messages.trans (hsite ▸ h.messages)
  · obtain ⟨answered, hnudges, hasks, hle⟩ := h.answers
    refine ⟨answered, hnudges, hasks, ?_⟩
    calc (answered : Multiset AgentEvent) + site'.fleet.pending
      _ ≤ answered + (f.fleet.pending + into) := by
        rw [← hsite]
        exact add_le_add_right aged.pending_le _
      _ ≤ f.reported + into := by
        rw [← add_assoc]
        exact add_le_add_left hle into
  · intro hnothing
    have hlogged := h.logged hnothing
    rw [← hsite, succeeds.worksOf_eq] at hlogged
    dsimp only
    rw [(succeeds.trans hnext).worksOf_eq]
    exact hlogged.aging haging

theorem handed_turned {said : List Request} (h : fleet'.messages = f.fleet.messages ++ said) :
    (f.turned c k t fleet').handed = f.handed ++ said.map fun r => (r, f.fleet.moment t) := by
  rw [turned, h, List.drop_left]

/-- A task that was run leaves the queue, and its event with it. -/
theorem Sound.turned (h : Sound first f) (hsite : site.fleet = f.fleet)
    (succeeds : first.Succeeds site) (queued : f.fleet.tasks[k]? = some t)
    (turned : site.Turned t fleet') : Sound first (f.turned first.number k t fleet') := by
  have hpending := turned.pending_add_le (hsite ▸ queued)
  obtain ⟨⟨site', rfl, hnext⟩, hsays, -, -⟩ := turned
  have hids : site'.fleet.host.supply.1 = f.fleet.host.supply.1 := hsite ▸ hnext.ids
  have htaken : f.fleet.host.supply.2 ≤ site'.fleet.host.supply.2 := hsite ▸ hnext.taken
  have hdistinct : Distinct (f.fleet.worksOf first.number) := by
    rw [← hsite, succeeds.worksOf_eq]
    exact succeeds.ready.distinct
  rw [hsite] at hpending
  rw [hsite, succeeds.number, succeeds.controller] at hsays
  obtain ⟨said, hmessages, hspeaks⟩ := hsays.speaks hdistinct
  have hhanded : (f.turned first.number k t site'.fleet).handed = _ := handed_turned hmessages
  have hall : (f.turned first.number k t site'.fleet).handed.map (·.1) =
      f.handed.map (·.1) ++ said := by
    rw [hhanded]
    simp [Function.comp_def]
  constructor
  · obtain ⟨site'', hfleet, hsucceeds⟩ := hnext.requeued (site'.fleet.tasks.eraseIdx k)
    exact ⟨site'', hfleet, succeeds.trans hsucceeds⟩
  · rw [hall, ← List.append_assoc, ← h.messages]
    exact hmessages
  · intro m hm
    rw [hhanded] at hm
    rcases List.mem_append.1 hm with hm | hm
    · exact h.serves m hm
    · obtain ⟨r, hr, rfl⟩ := List.mem_map.1 hm
      exact hspeaks.serves r hr
  · obtain ⟨answered, hnudges, hasks, hle⟩ := h.answers
    obtain ⟨answered', hnudges', hasks', hle'⟩ := hspeaks.nudges
    refine ⟨answered ++ answered', ?_, ?_, ?_⟩
    · rw [nudges, hall, List.filter_append, List.map_append, ← hnudges']
      exact congrArg (· ++ _) hnudges
    · intro e he
      exact (List.mem_append.1 he).elim (hasks e) (hasks' e)
    · rw [← Multiset.coe_add, add_assoc, add_comm (answered' : Multiset AgentEvent)]
      exact (add_le_add_right ((add_le_add_right hle' _).trans hpending) _).trans hle
  · rw [kickoffs, hall, List.filter_append]
    exact List.rel_append h.opens hspeaks.kickoffs
  · intro hnothing
    have hlogged := hsays.logged hids htaken (h.logged hnothing)
    rw [begunIds, ← List.map_append] at hlogged
    exact hlogged

/-- One move keeps what holds. -/
theorem Move.sound (h : Sound first f)
    (m : Move first.number first.controller.daemon f f') : Sound first f' := by
  obtain ⟨site, hsite, succeeds⟩ := h.next
  have hready := succeeds.ready
  -- where nothing is reported
  have hquiet {fleet' : Fleet} (aged : site.Aged 0 fleet') :
      Sound first { f with fleet := fleet' } := by
    have hsound := h.aged hsite succeeds aged
    rwa [add_zero] at hsound
  cases m with
  | runs queued own run =>
    rw [← hsite] at run
    rw [← succeeds.number] at own
    have hturn := hready.leads_runTask own
    apply h.turned hsite succeeds queued
    rcases run with ⟨_, hok⟩ | ⟨_, herror⟩
    · exact hturn.of_ok hok
    · exact (hturn.of_error herror).elim
  | asksForPass run =>
    rw [← hsite] at run
    have hpasses := (Fleet.leads_spawn_passes (.pass first.number)).of_ends run
    exact hquiet (hready.aged_of_passes hpasses)
  | @hands event _ run =>
    rw [← hsite] at run
    have hpasses := (Fleet.leads_spawn_passes (.handle first.number event)).of_ends run
    exact h.aged hsite succeeds (hready.aged_of_passes hpasses)
  | @reports event _ run =>
    rw [← hsite, ← succeeds.controller] at run
    have hpasses := (Fleet.leads_emit_passes site.daemon_eq event).of_ends run
    exact h.aged hsite succeeds (hready.aged_of_passes hpasses)
  | changesWork run =>
    rw [← hsite, ← succeeds.controller] at run
    exact hquiet ((hready.leads_changeWork _).of_ends run)
  | @changesRecord _ q _ other run =>
    rw [← hsite, ← succeeds.controller] at run
    have hchange := hready.leads_changeRecord other fun _ _ =>
      q.keeps_run (Store.detached_rooted _ _)
    exact hquiet (hchange.of_ends run)
  | @switches on _ run =>
    rw [← hsite, ← succeeds.controller] at run
    have hchange := hready.leads_changeRecord (e := .settings) nofun
      fun _ _ => Settings.keeps_setAutorun_rooted on
    exact hquiet (hchange.of_ends run)
  | elsewhere outside ids taken =>
    rw [← hsite] at ids taken ⊢
    rw [← succeeds.controller]
    exact hquiet (hready.aged_elsewhere outside ids taken)

theorem sound_of_run (ready : first.Ready)
    (hrun : Relation.ReflTransGen (Move first.number first.controller.daemon)
      (start first.fleet) f) : Sound first f := by
  induction hrun with
  | refl => exact sound_start ready
  | tail _ m ih => exact m.sound ih

/-! ### Courses -/

/-- Runs the task at a place in the queue, if it is the controller's. -/
def turn (c k : Nat) (f : Correspondence) : Option Correspondence := do
  let t ← f.fleet.tasks[k]?
  guard (Fleet.Task.isOf c t)
  let (_, fleet) ← Store.done? (Fleet.runTask t f.fleet)
  return f.turned c k t fleet

/-- Reports an event of an agent. -/
def report (i : Nat) (event : AgentEvent) (f : Correspondence) : Option Correspondence := do
  let (_, fleet) ← Store.done? (Fleet.emit i event f.fleet)
  return { f with fleet, reported := f.reported + {event} }

theorem move_of_turn {i : Nat} (h : turn c k f = some f') : Move c i f f' := by
  simp only [turn, Option.bind_eq_bind, Option.bind_eq_some_iff, Prod.exists, Option.pure_def,
    Option.some.injEq, Store.done?_eq_some, Option.guard_eq_some'] at h
  obtain ⟨t, queued, _, own, _, fleet, run, rfl⟩ := h
  exact .runs queued own (Or.inl ⟨_, run⟩)

theorem move_of_report {i : Nat} {event : AgentEvent} (h : report i event f = some f') :
    Move c i f f' := by
  simp only [report, Option.bind_eq_bind, Option.bind_eq_some_iff, Prod.exists, Option.pure_def,
    Option.some.injEq, Store.done?_eq_some] at h
  obtain ⟨_, fleet, run, rfl⟩ := h
  exact .reports (Or.inl ⟨_, run⟩)

/-! ### Messages -/

/-- Whatever comes between the turns of a controller, and however collaborators answer: each message
goes to the session of an item that is in progress at that moment, with autorun on. Events are
answered once at most, and only those of agents that wait for more. The first messages are those
for the items that passes have started, one each; no item is started twice. -/
theorem messages_go_to_active_work (site : Site) (ready : site.Ready)
    (hrun : Relation.ReflTransGen (Move site.number site.controller.daemon)
      (start site.fleet) f) :
    f.fleet.messages = site.fleet.messages ++ f.handed.map (·.1) ∧
    (∀ r moment, (r, moment) ∈ f.handed → Fleet.Serves site.number moment r) ∧
    (∃ answered : List AgentEvent,
      f.nudges = answered.map (fun e => .send e.sessionId site.controller.continueMessage) ∧
      (∀ e ∈ answered, e.AsksOn) ∧ (answered : Multiset AgentEvent) ≤ f.reported) ∧
    List.Forall₂ (fun w r => r.Opens w) f.started f.kickoffs ∧
    (Function.Injective site.fleet.host.ids →
      (∀ w ∈ site.daemon.stores.work.records, ∀ n, site.fleet.host.minted ≤ n →
        w.id ≠ site.fleet.host.ids n) →
      (f.started.map (·.id)).Nodup) := by
  have hsound := sound_of_run ready hrun
  refine ⟨hsound.messages, fun _ _ h => hsound.serves _ h, ?_, hsound.opens, ?_⟩
  · obtain ⟨answered, hnudges, hasks, hle⟩ := hsound.answers
    exact ⟨answered, hnudges, hasks, (Multiset.le_add_right _ _).trans hle⟩
  · intro hids hunused
    have hnothing : Logged (site.fleet.worksOf site.number) site.fleet.host.supply [] := by
      rw [site.worksOf_eq]
      exact ⟨hids, ready.distinct, hunused, fun _ h => (nomatch h), fun _ _ _ h => (nomatch h),
        List.nodup_nil⟩
    exact (hsound.logged hnothing).nodup

/-- An item is started and its agent is told to go on when it waits for more. -/
theorem messages_go_to_active_work_nudged : ∃ (site : Site) (f : Correspondence),
    site.Ready ∧
    Relation.ReflTransGen (Move site.number site.controller.daemon) (start site.fleet) f ∧
    f.started.map (·.id) = ["w"] ∧ f.nudges = [.send "s" "on"] ∧ f.kickoffs.length = 1 ∧
    (∀ r moment, (r, moment) ∈ f.handed → Fleet.Serves site.number moment r) ∧
    List.Forall₂ (fun w r => r.Opens w) f.started f.kickoffs := by
  let data : Location := ⟨["data"], "/data"⟩
  let w : Work := ⟨"w", .task, none, "w", "", .open, some "r", none, .zero, .epoch, .epoch⟩
  let r : Role := ⟨"r", "r", "", .epoch, .epoch⟩
  let stores : PerEntity fun e => Store e.Rec := {
    work := { index := .ofData Work data, records := [w], digest := none }
    role := { index := .ofData Role data, records := [r], digest := none }
    command := { index := .ofData Snippet data, records := [], digest := none }
    session := { index := .ofData Session data, records := [], digest := none }
    settings := { index := .ofData Settings data, records := [], digest := none } }
  let d : Daemon := {
    name := "d", data, stores, outside := { autorun := some true }, controller := some 0
    channel := some 0 }
  let c : Controller := { daemon := 0, asksOutside := true, continueMessage := "on" }
  let site : Site := {
    fleet := {
      host := {
        ids := fun n => String.ofList (List.replicate (n + 1) 's')
        times := fun _ => .epoch }
      daemons := [d]
      controllers := [c]
      channels := [{ controller := 0, capacity := 16 }]
      tasks := [.pass 0] }
    number := 0
    controller := c
    daemon := d
    controller_eq := rfl
    daemon_eq := rfl }
  have hready : site.Ready := by
    refine ⟨rfl, ?_, by decide, ?_, rfl, rfl⟩
    · intro e
      cases e <;> exact List.not_mem_nil
    · intro n hempty
      have hlength := congrArg String.length hempty
      simp [site] at hlength
  -- the pass, the event, its way to the controller, and the answer
  have hchecked : ((turn 0 0 (start site.fleet)).bind fun f₁ =>
      (report 0 ⟨"s", .idle, false⟩ f₁).bind fun f₂ => (turn 0 0 f₂).bind fun f₃ =>
      (turn 0 0 f₃).map fun f => (f.started.map (·.id), f.nudges, f.kickoffs.length)) =
      some (["w"], [.send "s" "on"], 1) := by
    decide +kernel
  obtain ⟨f₁, h₁, hchecked⟩ := Option.bind_eq_some_iff.1 hchecked
  obtain ⟨f₂, h₂, hchecked⟩ := Option.bind_eq_some_iff.1 hchecked
  obtain ⟨f₃, h₃, hchecked⟩ := Option.bind_eq_some_iff.1 hchecked
  obtain ⟨f, h, hf⟩ := Option.map_eq_some_iff.1 hchecked
  obtain ⟨hstarted, hnudges, hkickoffs⟩ := by
    simpa only [Prod.mk.injEq] using hf
  have hrun : Relation.ReflTransGen (Move 0 0) (start site.fleet) f :=
    .tail (.tail (.tail (.single (move_of_turn h₁)) (move_of_report h₂)) (move_of_turn h₃))
      (move_of_turn h)
  obtain ⟨-, hserves, -, hopens, -⟩ := messages_go_to_active_work site hready hrun
  exact ⟨site, f, hready, hrun, hstarted, hnudges, hkickoffs, hserves, hopens⟩

end Correspondence

end WorkQueue
