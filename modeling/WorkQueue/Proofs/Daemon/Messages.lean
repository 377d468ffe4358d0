import WorkQueue.Proofs.Daemon.Flight
import WorkQueue.Proofs.Daemon.Pending
import WorkQueue.Proofs.Daemon.Settling

/-!
# What a turn says

A task is run to its end as one turn. A pass sends the first message for the item that it has just
started, and an event is answered by a message to the session that it is about. Neither says more
than that, and at the moment at which a message is sent its session belongs to an item in progress.
-/

namespace WorkQueue

open Autorun
open Record (Distinct)
open Work (Begun)

/-- The agent waits for more: it is idle, and not only because its session has just begun. -/
def AgentEvent.AsksOn (event : AgentEvent) : Prop :=
  event.state = .idle ∧ event.isInitial = false

instance (event : AgentEvent) : Decidable event.AsksOn := inferInstanceAs (Decidable (_ ∧ _))

namespace Autorun.Request

/-- The session that a message goes to. -/
def addressee? : Request → Option String
  | send session _ | kickoff session _ _ => some session
  | _ => none

/-- The first message for an item, to the session that it is bound to. -/
def Opens (r : Request) (w : Work) : Prop := ∃ session parentTitle prompt,
  w.sessionId = some session ∧
    r = .kickoff session (kickoffMessage w parentTitle) (.kickoff prompt)

end Autorun.Request

namespace Fleet

/-- The task runs a controller's turn, or that of none. -/
def Task.isOf (c : Nat) : Task → Bool
  | .pass c' | .handle c' _ => c' = c
  | _ => true

/-- Whether autorun is on for a controller. -/
def autorunOn (c : Nat) (fleet : Fleet) : Bool :=
  (fleet.controllers[c]?).any fun x => (fleet.daemons[x.daemon]?).any fun d =>
    (if x.asksOutside then d.outside.autorun else none).getD
      (Settings.autorunOn d.stores.settings)

/-- Autorun is on, and the message goes to the session of an item in progress. -/
structure Serves (c : Nat) (fleet : Fleet) (r : Request) : Prop where
  enabled : fleet.autorunOn c = true
  active : ∃ session, r.addressee? = some session ∧
    ∃ w ∈ fleet.worksOf c, w.status = .inProgress ∧ w.sessionId = some session

/-- The moment at which a task sends its message, if it sends one. A pass has made its other calls
by then; what else sends a message changes nothing before. -/
def moment (fleet : Fleet) : Task → Fleet
  | .pass c =>
    match runUntil c Stage.isKickoff maxSteps .settings fleet with
    | .ok _ fleet' => fleet'
    | .error _ fleet' => fleet'
  | _ => fleet

/-- What a task has said, and the item that it has started. -/
inductive Said (c : Nat) (continueMessage : String) (fleet : Fleet) (t : Task) (fleet' : Fleet) :
    Prop where
  | nothing (messages : fleet'.messages = fleet.messages)
      (works : fleet'.worksOf c = fleet.worksOf c) : Said c continueMessage fleet t fleet'
  | nudge {event : AgentEvent} (task : t = .handle c event) (asks : event.AsksOn)
      (works : fleet'.worksOf c = fleet.worksOf c)
      (messages : fleet'.messages = fleet.messages ++ [.send event.sessionId continueMessage])
      (serves : Serves c (fleet.moment t) (.send event.sessionId continueMessage)) :
      Said c continueMessage fleet t fleet'
  | kickoff {r : Request} {previous w : Work} (task : t = .pass c)
      (begun : Begun (fleet.worksOf c) previous w (fleet'.worksOf c)) (opens : r.Opens w)
      (messages : fleet'.messages = fleet.messages ++ [r])
      (serves : Serves c (fleet.moment t) r) : Said c continueMessage fleet t fleet'

end Fleet

open Fleet (Grounded Passes Said Serves Undisturbed Unheard)

namespace Site

variable {site site' : Site} {scene : Scene} {fleet : Fleet} {w : Work} {role : Role} {t : Task}

/-! ### What is seen -/

theorem Shows.controller_eq (h : site.Shows scene fleet) : fleet.controllers[site.number]? =
    some { site.controller with processing := scene.processing } := by
  have hlt := (List.getElem?_eq_some_iff.1 site.controller_eq).1
  rw [h.controllers, controllersWith, List.getElem?_set_self hlt]

theorem Shows.worksOf_eq (h : site.Shows scene fleet) :
    fleet.worksOf site.number = scene.stores.work.records := by
  obtain ⟨notifiers, hd⟩ := h.exists_daemon
  simp [Fleet.worksOf, h.controller_eq, hd, daemonWith]

theorem worksOf_eq (site : Site) :
    site.fleet.worksOf site.number = site.daemon.stores.work.records :=
  site.shows_scene.worksOf_eq

theorem Shows.autorunOn_eq (h : site.Shows scene fleet)
    (settings : scene.stores.settings = site.daemon.stores.settings) :
    fleet.autorunOn site.number = site.autorunOn := by
  obtain ⟨notifiers, hd⟩ := h.exists_daemon
  simp [Fleet.autorunOn, h.controller_eq, hd, daemonWith, autorunOn, settings]

theorem Shows.messages_eq (h : site.Shows scene fleet) :
    fleet.messages = site.fleet.messages ++ scene.messages := by
  rw [Fleet.messages, h.requests, List.filter_append]
  rfl

theorem Shows.said_nothing (h : site.Shows scene fleet)
    (works : scene.stores.work = site.daemon.stores.work) (silent : scene.messages = [])
    (continueMessage : String) (t : Task) :
    Said site.number continueMessage site.fleet t fleet := by
  apply Said.nothing
  · rw [h.messages_eq, silent, List.append_nil]
  · rw [h.worksOf_eq, site.worksOf_eq, works]

/-- The message goes out where autorun is on and the session belongs to an item in progress. -/
theorem Shows.said_nudge {event : AgentEvent} (h : site.Shows scene fleet) (asks : event.AsksOn)
    (enabled : site.autorunOn = true) (hw : w ∈ site.daemon.stores.work.records)
    (active : w.status = .inProgress) (bound : w.sessionId = some event.sessionId)
    (works : scene.stores.work = site.daemon.stores.work)
    (said : scene.messages = [.send event.sessionId site.controller.continueMessage]) :
    Said site.number site.controller.continueMessage site.fleet (.handle site.number event)
      fleet := by
  apply Said.nudge rfl asks
  · rw [h.worksOf_eq, site.worksOf_eq, works]
  · rw [h.messages_eq, said]
  · have hmem : w ∈ site.fleet.worksOf site.number := by
      rw [site.worksOf_eq]
      exact hw
    exact ⟨(site.shows_scene.autorunOn_eq rfl).trans enabled, event.sessionId, rfl, w, hmem, active,
      bound⟩

theorem Moved.mem (h : site.Moved w started scene) : started ∈ scene.stores.work.records := by
  obtain ⟨-, hnext, -⟩ := Work.get?_of_edit h.edit
  exact Record.mem_of_find? hnext

theorem Moved.begun {started : Work} (h : site.Moved w started scene) (hopen : w.status = .open) :
    Begun site.daemon.stores.work.records w started scene.stores.work.records := by
  obtain ⟨t, ht⟩ := h.value
  exact ⟨h.edit, hopen, congrArg Work.status ht⟩

theorem Next.status_eq (h : site.Next w) : w.status = .open := by
  have hfound := List.find?_some h.first
  exact of_decide_eq_true hfound

theorem Moved.opens {started : Work} (h : site.Moved w started scene) (role : Role) :
    (site.kickoff started role scene).Opens started := by
  obtain ⟨t, ht⟩ := h.value
  exact ⟨_, _, _, congrArg Work.sessionId ht, rfl⟩

/-! ### Between two turns -/

/-- The controller is free, no listener fails, and items, identities and indices are in order. -/
structure Ready (site : Site) : Prop where
  free : site.controller.processing = false
  steady : ∀ e, .failOnce ∉ site.daemon.listeners.get e
  distinct : Distinct site.daemon.stores.work.records
  named : ∀ n, site.fleet.host.ids n ≠ ""
  work : site.daemon.stores.work.index = Index.ofData Work site.daemon.data
  session : site.daemon.stores.session.index = Index.ofData Session site.daemon.data

/-- The same controller is ready again, and identities were taken from the same supply. -/
structure Succeeds (site site' : Site) : Prop where
  number : site'.number = site.number
  controller : site'.controller = site.controller
  ready : site'.Ready
  ids : site'.fleet.host.ids = site.fleet.host.ids
  taken : site.fleet.host.minted ≤ site'.fleet.host.minted

/-- No listener interrupts a pass. -/
theorem Ready.not_released (h : site.Ready) : ¬ site.Released fleet := by
  rintro ⟨⟨e, he⟩, -⟩
  exact h.steady e he

/-! ### Passes -/

theorem runUntil_succ {c n : Nat} {pause : Stage → Bool} {s : Stage} (hs : 0 < s.ahead)
    (hp : pause s = false) :
    runUntil c pause (n + 1) s = (do runUntil c pause n (← guardedStep c s)) := by
  cases s with
  | ended result => cases hs
  | _ => exact if_neg (hp ▸ Bool.false_ne_true)

/-- A pass says nothing, or it comes to the point at which it is about to send its message. -/
theorem Ready.leads_runUntil_kickoff (ready : site.Ready) {n : Nat} {s : Stage}
    (h : site.Shows scene fleet) (stands : site.Stands scene s) (hn : s.ahead ≤ n) :
    Leads (runUntil site.number (fun _ => false) n s) fleet
      (fun _ fleet' => fleet'.messages = fleet.messages ∨
        ∃ s' moment scene', runUntil site.number Stage.isKickoff n s fleet = .ok s' moment ∧
          s'.isKickoff = true ∧ site.Shows scene' moment ∧ site.Stands scene' s')
      (fun _ _ => False) := by
  -- up to that point both runs make the same calls, none of which says anything
  induction n generalizing s scene fleet with
  | zero => exact (leads_pure s).2 (Or.inl rfl)
  | succ n ih =>
    by_cases hs : 0 < s.ahead
    · cases hk : s.isKickoff with
      | false =>
        have hkeeps := (Fleet.blind_messages fleet.messages).enduring.keeps_guardedStep
          ((Fleet.blind_messages fleet.messages).enduring.keeps_step (c := site.number) hk)
        have hstep := leads_guardedStep ready.distinct (ready.named _) h stands hs
        rw [runUntil_succ hs rfl, leads_bind]
        apply ((leads_self _ _).and (hstep.and (hkeeps fleet rfl))).mono
        · rintro s₁ fleet₁ ⟨hrun, ⟨hahead, scene₁, h₁, stands₁⟩, hsame⟩
          apply (ih h₁ stands₁ (by omega)).imp
          rintro _ fleet₂ (hsilent | ⟨s', moment, scene', hpause, hreached⟩)
          · exact Or.inl (hsilent.trans hsame)
          · rw [runUntil_succ hs hk, bind_of_ok hrun]
            exact Or.inr ⟨s', moment, scene', hpause, hreached⟩
        · rintro _ fleet₁ ⟨-, hreleased, -⟩
          exact ready.not_released hreleased
      | true =>
        have hpause : runUntil site.number Stage.isKickoff (n + 1) s fleet = .ok s fleet := by
          cases s <;> first | rfl | cases hk
        have hrun := leads_runUntil ready.distinct (ready.named _) h stands hn
        apply hrun.mono
        · intro _ _ _
          exact Or.inr ⟨s, fleet, scene, hpause, hk, h, stands⟩
        · intro _ _ hreleased
          exact ready.not_released hreleased
    · cases s with
      | ended result => exact (leads_pure _).2 (Or.inl rfl)
      | _ => exact absurd (Nat.succ_pos _) hs

theorem serves_of_stands {s : Stage} (h : site.Shows scene fleet) (stands : site.Stands scene s)
    (hs : s.isKickoff = true) {r : Request} (hr : r.addressee? = some site.session) :
    Serves site.number fleet r := by
  cases stands with
  | kickoff chosen others moved opened title silent first =>
    obtain ⟨t, ht⟩ := moved.value
    refine ⟨(h.autorunOn_eq others.settings).trans chosen.enabled, site.session, hr, _, ?_,
      congrArg Work.status ht, congrArg Work.sessionId ht⟩
    rw [h.worksOf_eq]
    exact moved.mem
  | _ => cases hs

/-- A pass that ends has said nothing and started nothing, or it has sent one message, for the item
that it has started. -/
theorem Transacted.told {result : Except Failure Outcome} (h : site.Transacted scene result) :
    (scene.messages = [] ∧ scene.stores.work = site.daemon.stores.work) ∨
    ∃ w started role, site.Chosen w role ∧ site.Moved w started scene ∧
      scene.messages = [site.kickoff started role scene] := by
  cases h with
  | declined why stores silent => exact Or.inl ⟨silent, congrArg PerEntity.work stores⟩
  | started chosen moved fresh id title sessions said => exact Or.inr ⟨_, _, _, chosen, moved, said⟩
  | failed chosen failed cleared =>
    cases failed with
    | session why works silent => exact Or.inl ⟨silent, works⟩
    | store store run works silent => exact Or.inl ⟨silent, works⟩
    | kickoff moved said refused => exact Or.inr ⟨_, _, _, chosen, moved, said⟩

theorem Ready.leads_startNext (ready : site.Ready) (continueMessage : String) :
    Leads (startNext site.number) site.fleet
      (fun _ fleet' => Said site.number continueMessage site.fleet (.pass site.number) fleet' ∧
        ∃ scene, site.Shows scene fleet' ∧ scene.processing = site.controller.processing ∧
          site.KeepsOthers scene ∧ Distinct scene.stores.work.records)
      (fun _ _ => False) := by
  have hrun := leads_runUntil (n := maxSteps) ready.distinct (ready.named _) site.shows_scene
    (.settings rfl) (Nat.le_refl 5)
  have hpaused := ready.leads_runUntil_kickoff (n := maxSteps) site.shows_scene (.settings rfl)
    (Nat.le_refl 5)
  rw [startNext, resume, leads_bind]
  apply (hrun.and hpaused).mono
  · rintro s fleet' ⟨⟨hahead, scene, h, stands⟩, hpaused⟩
    cases stands with
    | ended free others transacted =>
      rcases transacted.told with ⟨silent, works⟩ | ⟨w, started, role, chosen, moved, said⟩
      · exact (leads_pure _).2 ⟨h.said_nothing works silent _ _, scene, h, free, others,
          works ▸ ready.distinct⟩
      · refine (leads_pure _).2 ⟨?_, scene, h, free, others, moved.edit.distinct ready.distinct⟩
        have hmessages := h.messages_eq
        rw [said] at hmessages
        rcases hpaused with hsilent | ⟨s', moment, scene', hpause, hk, h', stands'⟩
        · exact absurd (hmessages.symm.trans hsilent) (by simp)
        · have hmoment : site.fleet.moment (.pass site.number) = moment := by
            rw [Fleet.moment, hpause]
          have hbegun := moved.begun chosen.next.status_eq
          rw [← site.worksOf_eq, ← h.worksOf_eq] at hbegun
          exact .kickoff rfl hbegun (moved.opens role) hmessages
            (hmoment ▸ serves_of_stands h' stands' hk rfl)
    | _ => cases Nat.lt_one_iff.1 hahead
  · rintro _ _ ⟨-, hfalse⟩
    exact hfalse

/-! ### Events of agents -/

/-- An event is answered to its own session, if the agent waits for more and that is the session of
an item in progress, and autorun is on. -/
theorem leads_handleAgentEvent (site : Site) (event : AgentEvent) :
    Leads (handleAgentEvent site.number event) site.fleet
      (fun _ fleet' => Said site.number site.controller.continueMessage site.fleet
          (.handle site.number event) fleet' ∧
        ∃ scene, site.Shows scene fleet' ∧ scene.processing = site.controller.processing ∧
          scene.stores = site.daemon.stores)
      (fun _ _ => False) := by
  have hsilent {fleet' : Fleet} {scene : Scene} (h : site.Shows scene fleet')
      (stores : scene.stores = site.daemon.stores) (silent : scene.messages = []) :
      Said site.number site.controller.continueMessage site.fleet
        (.handle site.number event) fleet' :=
    h.said_nothing (congrArg PerEntity.work stores) silent _ _
  have hread : (site.noted .readSettings site.scene).messages = [] := by
    rw [messages_noted]
    rfl
  unfold handleAgentEvent
  by_cases hasks : event.state ≠ .idle ∨ event.isInitial = true
  · rw [if_pos hasks]
    exact (leads_pure _).2 ⟨hsilent site.shows_scene rfl rfl, _, site.shows_scene, rfl, rfl⟩
  rw [if_neg hasks]
  obtain ⟨hidle, hinitial⟩ := not_or.1 hasks
  have hasks : event.AsksOn := ⟨not_not.1 hidle, Bool.eq_false_of_not_eq_true hinitial⟩
  apply (leads_controller site.shows_scene).bind
  rintro x fleet₁ ⟨rfl, rfl⟩
  apply (leads_isEnabled site.shows_scene _ rfl).bind
  rintro result fleet₂ ⟨rfl, h₂⟩
  cases site.answer .readSettings with
  | error chain => exact (leads_pure _).2 ⟨hsilent h₂ rfl hread, _, h₂, rfl, rfl⟩
  | ok _ =>
    cases henabled : site.autorunOn with
    | false => exact (leads_pure _).2 ⟨hsilent h₂ rfl hread, _, h₂, rfl, rfl⟩
    | true =>
      apply (leads_daemon h₂).bind
      rintro d fleet₃ ⟨rfl, notifiers, rfl⟩
      dsimp only
      split
      next hactive =>
        obtain ⟨w, hw, hbound⟩ := List.any_eq_true.1 hactive
        obtain ⟨hstatus, hsession⟩ := of_decide_eq_true hbound
        apply (leads_consult h₂ _ _).bind
        rintro answer fleet₄ ⟨-, h₄⟩
        have hmessages : (site.noted (.send event.sessionId site.controller.continueMessage)
            (site.noted .readSettings site.scene)).messages =
            [.send event.sessionId site.controller.continueMessage] := by
          rw [messages_noted, hread]
          rfl
        have hsaid := h₄.said_nudge hasks henabled (mem_list.1 hw) hstatus hsession rfl hmessages
        cases answer with
        | error chain => exact (leads_pure _).2 ⟨hsaid, _, h₄, rfl, rfl⟩
        | ok _ => exact (leads_pure _).2 ⟨hsaid, _, h₄, rfl, rfl⟩
      next => exact (leads_pure _).2 ⟨hsilent h₂ rfl hread, _, h₂, rfl, rfl⟩

/-! ### Tasks -/

/-- Where the stores are kept, and what identities were taken, as it is now. -/
theorem grounded_self (fleet : Fleet) :
    Grounded (fun j e => fleet.daemons[j]?.map fun d => (d.stores.get e).index) fleet.host.supply
      fleet :=
  ⟨fun _ _ => rfl, rfl, le_refl _⟩

/-- The site after a turn that has moved no store to another index. -/
theorem Ready.succeeds (ready : site.Ready) (number : site'.number = site.number)
    (controller : site'.controller = site.controller)
    (data : site'.daemon.data = site.daemon.data)
    (listeners : site'.daemon.listeners = site.daemon.listeners)
    (distinct : Distinct site'.daemon.stores.work.records)
    (grounded : Grounded (fun j e => site.fleet.daemons[j]?.map fun d => (d.stores.get e).index)
      site.fleet.host.supply site'.fleet) : site.Succeeds site' := by
  have hindex (e : Entity) :
      (site'.daemon.stores.get e).index = (site.daemon.stores.get e).index := by
    have hsame := grounded.stores site.controller.daemon e
    have hdaemon := site'.daemon_eq
    rw [controller] at hdaemon
    rw [hdaemon, site.daemon_eq] at hsame
    exact Option.some.inj hsame
  refine ⟨number, controller, ⟨?_, ?_, distinct, ?_, ?_, ?_⟩, grounded.ids, grounded.taken⟩
  · rw [controller]
    exact ready.free
  · intro e
    rw [listeners]
    exact ready.steady e
  · rw [grounded.ids]
    exact ready.named
  · rw [data]
    exact (hindex .work).trans ready.work
  · rw [data]
    exact (hindex .session).trans ready.session

theorem Ready.succeeds_of_later (ready : site.Ready) (later : site.Later site')
    (distinct : Distinct site'.daemon.stores.work.records)
    (grounded : Grounded (fun j e => site.fleet.daemons[j]?.map fun d => (d.stores.get e).index)
      site.fleet.host.supply site'.fleet) : site.Succeeds site' := by
  obtain ⟨notifiers, hdaemon⟩ := later.daemon
  exact ready.succeeds later.number later.controller (congrArg Daemon.data hdaemon :)
    (congrArg Daemon.listeners hdaemon :) distinct grounded

/-- What a task has done that was run to its end. -/
structure Turned (site : Site) (t : Task) (fleet : Fleet) : Prop where
  next : ∃ site', site'.fleet = fleet ∧ site.Succeeds site'
  said : Said site.number site.controller.continueMessage site.fleet t fleet
  ahead : site.fleet.tasks <+: fleet.tasks
  pending_le : fleet.pending ≤ site.fleet.pending

theorem Ready.turned_of_shows (ready : site.Ready) (h : site.Shows scene fleet)
    (free : scene.processing = site.controller.processing) (others : site.KeepsOthers scene)
    (distinct : Distinct scene.stores.work.records)
    (said : Said site.number site.controller.continueMessage site.fleet t fleet)
    (unheard : Unheard site.fleet fleet)
    (grounded : Grounded (fun j e => site.fleet.daemons[j]?.map fun d => (d.stores.get e).index)
      site.fleet.host.supply fleet) : site.Turned t fleet := by
  obtain ⟨site', rfl, later, hstores⟩ := h.later free others
  have hdistinct : Distinct site'.daemon.stores.work.records := by
    rw [hstores]
    exact distinct
  exact ⟨⟨site', rfl, ready.succeeds_of_later later hdistinct grounded⟩, said, unheard.prefix,
    unheard.pending_eq.le⟩

theorem Ready.turned_of_undisturbed (ready : site.Ready)
    (undisturbed : Undisturbed site.controller.daemon site.fleet fleet)
    (messages : fleet.messages = site.fleet.messages) (ahead : site.fleet.tasks <+: fleet.tasks)
    (pending_le : fleet.pending ≤ site.fleet.pending)
    (grounded : Grounded (fun j e => site.fleet.daemons[j]?.map fun d => (d.stores.get e).index)
      site.fleet.host.supply fleet) : site.Turned t fleet := by
  obtain ⟨site', rfl, later, hstores⟩ := later_of_undisturbed undisturbed
  have hworks : site'.fleet.worksOf site.number = site.fleet.worksOf site.number := by
    rw [← later.number, site'.worksOf_eq, hstores, later.number, site.worksOf_eq]
  have hdistinct : Distinct site'.daemon.stores.work.records := by
    rw [hstores]
    exact ready.distinct
  exact ⟨⟨site', rfl, ready.succeeds_of_later later hdistinct grounded⟩,
    .nothing messages hworks, ahead, pending_le⟩

theorem Ready.leads_dispatch (ready : site.Ready) (j : Nat) (e : Entity) (slot : Nat) :
    Leads (Fleet.modifyNotifier j e slot (·.dispatchAll)) site.fleet
      (fun _ fleet' => site.Turned t fleet') (fun _ _ => False) := by
  have hgrounded := Fleet.unmoved_grounded.keeps_modifyDaemon (i := j)
    (f := fun d => { d with
      notifiers := d.notifiers.set e ((d.notifiers.get e).modify slot (·.dispatchAll)) })
    (fun _ => rfl) _ (grounded_self site.fleet)
  apply (leads_modify _).2
  refine ready.turned_of_undisturbed ⟨rfl, ?_, rfl⟩ rfl List.prefix_rfl (le_refl _) hgrounded
  intro d hd
  by_cases hj : j = site.controller.daemon
  · exact ⟨_, by simp only [List.getElem?_modify, hj, hd, if_pos]; rfl⟩
  · exact ⟨d.notifiers, by simp [hj, hd]⟩

theorem grounded_of_passes {into : Multiset AgentEvent} (h : Passes into site.fleet fleet) :
    Grounded (fun j e => site.fleet.daemons[j]?.map fun d => (d.stores.get e).index)
      site.fleet.host.supply fleet := by
  obtain ⟨hstores, hids, htaken⟩ := grounded_self site.fleet
  exact ⟨h.daemons ▸ hstores, h.host ▸ hids, h.host ▸ htaken⟩

theorem Ready.turned_of_passes (ready : site.Ready) (h : Passes 0 site.fleet fleet) :
    site.Turned t fleet := by
  have hundisturbed : Undisturbed site.controller.daemon site.fleet fleet := by
    refine ⟨h.controllers, ?_, h.host⟩
    intro d hd
    exact ⟨d.notifiers, h.daemons ▸ hd⟩
  apply ready.turned_of_undisturbed hundisturbed
  · exact congrArg (List.filter _) h.requests
  · exact h.ahead
  · exact h.pending_le.trans (add_zero _).le
  · exact grounded_of_passes h

/-- A task of the controller, or of none, says what it may say and leaves the controller ready. -/
theorem Ready.leads_runTask (ready : site.Ready) (own : Fleet.Task.isOf site.number t = true) :
    Leads (Fleet.runTask t) site.fleet (fun _ fleet' => site.Turned t fleet')
      (fun _ _ => False) := by
  have hgrounded := grounded_self site.fleet
  have hunheard := Fleet.unheard_self site.fleet
  cases t with
  | dispatch j e slot => exact ready.leads_dispatch j e slot
  | pass c =>
    obtain rfl := of_decide_eq_true own
    rw [Fleet.runTask, leads_tryCatch, leads_discard]
    apply ((ready.leads_startNext site.controller.continueMessage).and
      ((Fleet.keeps_startNext_unheard _ _ _ hunheard).and
        (Fleet.keeps_startNext_grounded _ _ hgrounded))).mono
    · rintro _ fleet' ⟨⟨hsaid, scene, h, free, others, distinct⟩, hunheard', hgrounded'⟩
      exact ready.turned_of_shows h free others distinct hsaid hunheard' hgrounded'
    · rintro _ _ ⟨hfalse, -⟩
      exact hfalse.elim
  | readEvents k =>
    apply (Fleet.leads_readEvents_passes k).imp
    intro _ fleet' hpasses
    exact ready.turned_of_passes hpasses
  | handle c event =>
    obtain rfl := of_decide_eq_true own
    rw [Fleet.runTask, leads_tryCatch, leads_discard]
    have hkept := (Fleet.keeps_handleAgentEvent (I := Unheard site.fleet)
      (fun _ _ h => ⟨h.channels, h.joined⟩) site.number event _ hunheard).and
      (Fleet.keeps_handleAgentEvent (fun _ _ h => ⟨h.stores, h.ids, h.taken⟩) site.number event _
        hgrounded)
    apply ((site.leads_handleAgentEvent event).and hkept).mono
    · rintro _ fleet' ⟨⟨hsaid, scene, h, free, stores⟩, hunheard', hgrounded'⟩
      exact ready.turned_of_shows h free (keepsOthers_of_stores_eq stores)
        (congrArg PerEntity.work stores ▸ ready.distinct) hsaid hunheard' hgrounded'
    · rintro _ _ ⟨hfalse, -⟩
      exact hfalse.elim

end Site

end WorkQueue
