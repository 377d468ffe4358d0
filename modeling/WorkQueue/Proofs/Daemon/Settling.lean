import Mathlib.Data.List.Infix
import WorkQueue.Proofs.Daemon.Quiescence
import WorkQueue.Proofs.Daemon.Willing

/-!
# Letting tasks settle

Where a controller is attended to, nothing keeps its passes from starting what is to be started, and
no task but a pass changes what it works on. So the first pass in the queue starts the first item of
the agenda, and what is run after it finds an item in progress.
-/

namespace WorkQueue

open Autorun
open Work (AtRest AtWork Quiet)

namespace Fleet

variable {c i n : Nat} {gone : Nat → Prop} {ts : List Task} {t : Task} {fleet fleet' : Fleet}

/-- The controllers, the host and, up to its notifiers, a daemon are as they were. -/
structure Undisturbed (i : Nat) (fleet fleet' : Fleet) : Prop where
  controllers : fleet'.controllers = fleet.controllers
  daemon : ∀ d, fleet.daemons[i]? = some d →
    ∃ notifiers, fleet'.daemons[i]? = some { d with notifiers }
  host : fleet'.host = fleet.host

theorem undisturbed_self (i : Nat) (fleet : Fleet) : Undisturbed i fleet fleet :=
  ⟨rfl, fun d hd => ⟨d.notifiers, hd⟩, rfl⟩

/-- What a task leaves as it is that runs no pass. -/
structure Untroubled (c i : Nat) (gone : Nat → Prop) (ts : List Task) (fleet fleet' : Fleet) :
    Prop where
  undisturbed : Undisturbed i fleet fleet'
  inCharge : InCharge c i gone ts fleet'

theorem Untroubled.modifyChannel (h : Untroubled c i gone ts fleet fleet') (k : Nat)
    (f : Channel → Channel) :
    Untroubled c i gone ts fleet { fleet' with channels := fleet'.channels.modify k f } where
  undisturbed := ⟨h.undisturbed.controllers, h.undisturbed.daemon, h.undisturbed.host⟩
  inCharge := h.inCharge.congr (fun _ => rfl) (fun d hd => ⟨d, hd, fun _ _ => Iff.rfl⟩) rfl

/-- The events of a channel are handed to a controller that is alive. -/
theorem leads_spawnAll {failed : Interrupted → Fleet → Prop} {k : Nat}
    (h : Untroubled c i gone ts fleet fleet') (alive : isAlive fleet' k = true)
    (events : List AgentEvent) :
    Leads (events.forM fun event => spawn (.handle k event)) fleet'
      (fun _ fleet' => Untroubled c i gone ts fleet fleet') failed := by
  have hboth : Leads (events.forM fun event => spawn (.handle k event)) fleet'
      (fun _ fleet' => Untroubled c i gone ts fleet fleet' ∧ isAlive fleet' k = true) failed := by
    apply leads_forM_of_kept (I := fun fleet' => Untroubled c i gone ts fleet fleet' ∧
      isAlive fleet' k = true) _ ⟨h, alive⟩
    rintro event - fleet₁ ⟨⟨⟨hcontrollers, hdaemon, hhost⟩, hcharge⟩, halive⟩
    refine (leads_modify _).2 ⟨⟨⟨hcontrollers, hdaemon, hhost⟩, ?_⟩, ?_⟩
    · apply hcharge.joined
      · rintro _ ⟨⟩
      · intro k' hk'
        obtain rfl := of_decide_eq_true hk'
        exact halive
    · simp only [isAlive, Bool.or_eq_true, List.any_append] at halive ⊢
      exact halive.imp_right Or.inl
  exact hboth.imp fun _ _ h => h.1

theorem leads_readEvents {failed : Interrupted → Fleet → Prop}
    (h : InCharge c i gone ts fleet) (k : Nat) :
    Leads (readEvents k) fleet (fun _ fleet' => Untroubled c i gone ts fleet fleet') failed := by
  have hstart : Untroubled c i gone ts fleet fleet := ⟨undisturbed_self i fleet, h⟩
  have hend {fleet' : Fleet} (h' : Untroubled c i gone ts fleet fleet') :
      Leads (endReading k) fleet' (fun _ fleet' => Untroubled c i gone ts fleet fleet') failed :=
    (leads_modify _).2 (h'.modifyChannel k _)
  rw [readEvents, leads_bind, leads_get]
  split
  · exact (leads_pure _).2 hstart
  split
  · exact hend hstart
  split
  · split
    · exact (leads_pure _).2 hstart
    · exact hend hstart
  split
  · next halive =>
    apply (leads_spawnAll hstart halive _).bind
    intro _ fleet₁ h₁
    split
    · exact (leads_modify _).2 (h₁.modifyChannel k _)
    · exact hend h₁
  · exact hend hstart

/-- A task that runs no pass comes to its end and leaves it all as it was. -/
theorem leads_runTask_other (h : InCharge c i gone ts fleet) (ht : ∀ c', t ≠ .pass c') :
    Leads (runTask t) fleet (fun _ fleet' => Untroubled c i gone ts fleet fleet')
      (fun _ _ => False) := by
  have hstart : Untroubled c i gone ts fleet fleet := ⟨undisturbed_self i fleet, h⟩
  cases t with
  | pass c' => exact absurd rfl (ht c')
  | readEvents k => exact leads_readEvents h k
  | dispatch j e slot =>
    have hcharge : Keeps (InCharge c i gone ts) (modifyNotifier j e slot (·.dispatchAll)) :=
      InCharge.keeps_modifyDaemon fun _ _ _ => Iff.rfl
    refine (leads_modify _).2 ⟨⟨rfl, ?_, rfl⟩, hcharge fleet h⟩
    intro d hd
    by_cases hj : j = i
    · exact ⟨_, by simp only [List.getElem?_modify, hj, hd, if_pos]; rfl⟩
    · exact ⟨d.notifiers, by simp [hj, hd]⟩
  | handle k event =>
    have hasked (fleet' : Fleet) (requests : List Request)
        (h : Untroubled c i gone ts fleet fleet') :
        Untroubled c i gone ts fleet { fleet' with requests } :=
      ⟨⟨h.undisturbed.controllers, h.undisturbed.daemon, h.undisturbed.host⟩,
        h.inCharge.asked _ _⟩
    rw [runTask, leads_tryCatch, leads_discard]
    exact keeps_handleAgentEvent hasked k event fleet hstart

end Fleet

namespace Site

variable {site site' site'' : Site} {scene : Scene} {gone : Nat → Prop} {fleet : Fleet}
  {items : List Work} {w : Work} {t : Task} {ts : List Task} {n : Nat}

/-! ### Later states -/

/-- The same controller and daemon with what passes only read as it was. -/
structure Later (site site' : Site) : Prop where
  number : site'.number = site.number
  controller : site'.controller = site.controller
  daemon : ∃ notifiers, site'.daemon = site.daemonWith site'.daemon.stores notifiers
  role : site'.daemon.stores.role = site.daemon.stores.role
  settings : site'.daemon.stores.settings = site.daemon.stores.settings

theorem later_self (site : Site) : site.Later site :=
  ⟨rfl, rfl, ⟨site.daemon.notifiers, rfl⟩, rfl, rfl⟩

theorem Later.trans (h : site.Later site') (h' : site'.Later site'') : site.Later site'' where
  number := h'.number.trans h.number
  controller := h'.controller.trans h.controller
  daemon := by
    obtain ⟨notifiers, hdaemon⟩ := h.daemon
    obtain ⟨notifiers', hdaemon'⟩ := h'.daemon
    refine ⟨notifiers', ?_⟩
    rw [hdaemon', daemonWith, hdaemon]
    rfl
  role := h'.role.trans h.role
  settings := h'.settings.trans h.settings

theorem Later.willing (h : site.Later site') (hw : site.Willing) : site'.Willing := by
  obtain ⟨notifiers, hdaemon⟩ := h.daemon
  have houtside : site'.daemon.outside = site.daemon.outside :=
    (congrArg Daemon.outside hdaemon).trans rfl
  constructor
  · intro r
    rw [answer, asks, houtside, h.controller]
    exact hw.answers r
  · rw [autorunOn, houtside, h.controller, h.settings]
    exact hw.enabled
  · intro e
    rw [congrArg Daemon.listeners hdaemon]
    exact hw.steady e

/-- What is seen at the end of a pass is a later state. -/
theorem Shows.later (h : site.Shows scene fleet)
    (free : scene.processing = site.controller.processing) (others : site.KeepsOthers scene) :
    ∃ site', site'.fleet = fleet ∧ site.Later site' ∧ site'.daemon.stores = scene.stores := by
  obtain ⟨notifiers, hdaemons⟩ := h.daemons
  have hcontroller : fleet.controllers[site.number]? = some site.controller := by
    rw [h.controllers, free, controllersWith_self, site.controller_eq]
  have hdaemon : fleet.daemons[site.controller.daemon]? =
      some (site.daemonWith scene.stores notifiers) := by
    rw [hdaemons, List.getElem?_set_self (List.getElem?_eq_some_iff.1 site.daemon_eq).1]
  exact ⟨⟨fleet, site.number, site.controller, _, hcontroller, hdaemon⟩, rfl,
    ⟨rfl, rfl, ⟨notifiers, rfl⟩, others.role, others.settings⟩, rfl⟩

theorem later_of_undisturbed (h : Fleet.Undisturbed site.controller.daemon site.fleet fleet) :
    ∃ site', site'.fleet = fleet ∧ site.Later site' ∧
      site'.daemon.stores = site.daemon.stores := by
  obtain ⟨notifiers, hdaemon⟩ := h.daemon _ site.daemon_eq
  have hcontroller : fleet.controllers[site.number]? = some site.controller := by
    rw [h.controllers, site.controller_eq]
  exact ⟨⟨fleet, site.number, site.controller, _, hcontroller, hdaemon⟩, rfl,
    ⟨rfl, rfl, ⟨notifiers, rfl⟩, rfl, rfl⟩, rfl⟩

/-- The controller is free and in charge, and nothing refuses what its passes do. -/
structure Attended (gone : Nat → Prop) (site : Site) : Prop where
  free : site.controller.processing = false
  willing : site.Willing
  serviced : Serviced site.daemon.data site.daemon.stores site.fleet.host
  inCharge : Fleet.InCharge site.number site.controller.daemon gone site.fleet.tasks site.fleet

/-- The fleet has come to a later state in which the controller is attended to. -/
structure Reached (gone : Nat → Prop) (site : Site) (fleet : Fleet) (site' : Site) : Prop where
  fleet_eq : site'.fleet = fleet
  later : site.Later site'
  attended : site'.Attended gone

theorem Later.reached (h : site.Later site') (h' : site'.Reached gone fleet site'') :
    site.Reached gone fleet site'' :=
  ⟨h'.fleet_eq, h.trans h'.later, h'.attended⟩

theorem Attended.reached_self (h : site.Attended gone) : site.Reached gone site.fleet site :=
  ⟨rfl, site.later_self, h⟩

theorem Attended.reached (h : site.Attended gone) (later : site.Later site')
    (serviced : Serviced site.daemon.data site'.daemon.stores site'.fleet.host)
    (inCharge : Fleet.InCharge site.number site.controller.daemon gone ts site'.fleet) :
    site.Reached gone site'.fleet site' where
  fleet_eq := rfl
  later := later
  attended := by
    obtain ⟨notifiers, hdaemon⟩ := later.daemon
    constructor
    · rw [later.controller]
      exact h.free
    · exact later.willing h.willing
    · rw [congrArg Daemon.data hdaemon]
      exact serviced
    · rw [later.number, later.controller]
      exact inCharge.whole

theorem Attended.reached_of_undisturbed (h : site.Attended gone)
    (undisturbed : Fleet.Undisturbed site.controller.daemon site.fleet fleet)
    (inCharge : Fleet.InCharge site.number site.controller.daemon gone ts fleet) :
    ∃ site', site.Reached gone fleet site' ∧ site'.daemon.stores = site.daemon.stores := by
  obtain ⟨site', rfl, later, hstores⟩ := later_of_undisturbed undisturbed
  have hserviced : Serviced site.daemon.data site'.daemon.stores site'.fleet.host := by
    rw [hstores, undisturbed.host]
    exact h.serviced
  exact ⟨site', h.reached later hserviced inCharge, hstores⟩

theorem Attended.reached_of_shows (h : site.Attended gone) (seen : site.Shows scene fleet)
    (free : scene.processing = false) (others : site.KeepsOthers scene)
    (serviced : Serviced site.daemon.data scene.stores scene.host)
    (inCharge : Fleet.InCharge site.number site.controller.daemon gone ts fleet) :
    ∃ site', site.Reached gone fleet site' ∧ site'.daemon.stores = scene.stores := by
  obtain ⟨site', rfl, later, hstores⟩ := seen.later (free.trans h.free.symm) others
  have hserviced : Serviced site.daemon.data site'.daemon.stores site'.fleet.host := by
    rw [hstores, seen.host]
    exact serviced
  exact ⟨site', h.reached later hserviced inCharge, hstores⟩

/-! ### Tasks -/

/-- The item is in progress, these are to be started after it, and there is one session more. -/
def Started (sessions : Nat) (w : Work) (items : List Work)
    (stores : PerEntity fun e => Store e.Rec) : Prop :=
  ∃ next, next.id = w.id ∧ AtWork stores.work.records next items ∧
    stores.session.records.length = sessions + 1

theorem Attended.leads_pass_of_quiet (h : site.Attended gone)
    (quiet : Quiet site.daemon.stores.work.records) :
    Leads (Fleet.runTask (.pass site.number)) site.fleet
      (fun _ fleet => (∃ site', site.Reached gone fleet site' ∧
        site'.daemon.stores = site.daemon.stores) ∧ site.fleet.tasks <+: fleet.tasks)
      (fun _ _ => False) := by
  rw [Fleet.runTask, leads_tryCatch, leads_discard]
  apply ((leads_startNext_of_quiet h.willing h.free quiet).and
    (Fleet.InCharge.keeps_startNext _ h.inCharge)).mono
  · rintro _ fleet ⟨seen, hcharge⟩
    exact ⟨h.reached_of_shows seen h.free (keepsOthers_of_stores_eq rfl) h.serviced hcharge,
      hcharge.ahead⟩
  · rintro _ _ ⟨hfalse, -⟩
    exact hfalse.elim

theorem Attended.leads_pass_of_atRest (h : site.Attended gone)
    (first : AtRest site.daemon.stores.work.records (w :: items))
    (resolvable : Resolvable site.daemon.stores.role w) :
    Leads (Fleet.runTask (.pass site.number)) site.fleet
      (fun _ fleet => (∃ site', site.Reached gone fleet site' ∧
        Started site.daemon.stores.session.records.length w items site'.daemon.stores) ∧
          site.fleet.tasks <+: fleet.tasks)
      (fun _ _ => False) := by
  rw [Fleet.runTask, leads_tryCatch, leads_discard]
  apply ((leads_startNext_of_atRest h.willing h.free h.serviced first resolvable).and
    (Fleet.InCharge.keeps_startNext _ h.inCharge)).mono
  · rintro _ fleet ⟨⟨scene, next, hid, seen, hfree, others, atWork, sessions, hserviced⟩, hcharge⟩
    obtain ⟨site', hreached, hstores⟩ :=
      h.reached_of_shows seen hfree others hserviced hcharge
    exact ⟨⟨site', hreached, next, hid, hstores ▸ atWork, hstores ▸ sessions⟩, hcharge.ahead⟩
  · rintro _ _ ⟨hfalse, -⟩
    exact hfalse.elim

theorem Attended.leads_other (h : site.Attended gone) (ht : ∀ c, t ≠ .pass c) :
    Leads (Fleet.runTask t) site.fleet
      (fun _ fleet => (∃ site', site.Reached gone fleet site' ∧
        site'.daemon.stores = site.daemon.stores) ∧ site.fleet.tasks <+: fleet.tasks)
      (fun _ _ => False) := by
  apply (Fleet.leads_runTask_other h.inCharge ht).imp
  rintro _ fleet ⟨undisturbed, hcharge⟩
  exact ⟨h.reached_of_undisturbed undisturbed hcharge, hcharge.ahead⟩

/-- The task at the head leaves the queue. -/
theorem Attended.tail (h : site.Attended gone) (htasks : t :: ts <+: site.fleet.tasks) :
    ∃ site', site.Reached gone { site.fleet with tasks := site.fleet.tasks.tail } site' ∧
      site'.daemon.stores = site.daemon.stores ∧ ts <+: site'.fleet.tasks := by
  have hcharge : Fleet.InCharge site.number site.controller.daemon gone (t :: ts) site.fleet :=
    { h.inCharge with ahead := htasks }
  have hundisturbed : Fleet.Undisturbed site.controller.daemon site.fleet
      { site.fleet with tasks := site.fleet.tasks.tail } :=
    ⟨rfl, fun d hd => ⟨d.notifiers, hd⟩, rfl⟩
  obtain ⟨site', hreached, hstores⟩ := h.reached_of_undisturbed hundisturbed hcharge.tail
  refine ⟨site', hreached, hstores, ?_⟩
  rw [hreached.fleet_eq]
  exact hcharge.tail.ahead

/-! ### Settling -/

theorem leads_settleSteps_nil {done : Unit → Fleet → Prop} {failed : Interrupted → Fleet → Prop}
    (htasks : fleet.tasks = []) :
    Leads (Fleet.settleSteps n) fleet done failed ↔ done () fleet := by
  cases n with
  | zero => rfl
  | succ n =>
    rw [Fleet.settleSteps, leads_bind, leads_get, htasks]
    rfl

/-- What the task at the head leaves is what the rest is run on, and more that has joined them. -/
theorem leads_settleSteps_succ {P : (PerEntity fun e => Store e.Rec) → Prop}
    {done : Unit → Fleet → Prop} (htasks : site.fleet.tasks = t :: ts)
    (hrun : Leads (Fleet.runTask t) site.fleet
      (fun _ fleet => (∃ site', site.Reached gone fleet site' ∧ P site'.daemon.stores) ∧
        site.fleet.tasks <+: fleet.tasks)
      (fun _ _ => False))
    (hrest : ∀ site', site.Later site' → site'.Attended gone → P site'.daemon.stores →
      ts <+: site'.fleet.tasks →
        Leads (Fleet.settleSteps n) site'.fleet done fun _ _ => False) :
    Leads (Fleet.settleSteps (n + 1)) site.fleet done fun _ _ => False := by
  rw [Fleet.settleSteps, leads_bind, leads_get, htasks]
  apply hrun.bind
  rintro _ fleet ⟨⟨site₁, hreached₁, hstores₁⟩, hahead⟩
  obtain rfl := hreached₁.fleet_eq
  rw [htasks] at hahead
  obtain ⟨site₂, hreached₂, hstores₂, htasks₂⟩ := hreached₁.attended.tail hahead
  have hlater := hreached₁.later.trans hreached₂.later
  have hgo := hrest site₂ hlater hreached₂.attended (hstores₂ ▸ hstores₁) htasks₂
  rw [hreached₂.fleet_eq] at hgo
  exact hgo

/-- Where there is nothing to start now, nothing is started. -/
theorem Attended.leads_settleSteps_of_quiet (h : site.Attended gone)
    (quiet : Quiet site.daemon.stores.work.records) (n : Nat) :
    Leads (Fleet.settleSteps n) site.fleet
      (fun _ fleet => ∃ site', site.Reached gone fleet site' ∧
        site'.daemon.stores = site.daemon.stores)
      (fun _ _ => False) := by
  induction n generalizing site with
  | zero => exact (leads_pure _).2 ⟨site, h.reached_self, rfl⟩
  | succ n ih =>
    cases htasks : site.fleet.tasks with
    | nil => exact (leads_settleSteps_nil htasks).2 ⟨site, h.reached_self, rfl⟩
    | cons t ts =>
      have hrun : Leads (Fleet.runTask t) site.fleet
          (fun _ fleet => (∃ site', site.Reached gone fleet site' ∧
            site'.daemon.stores = site.daemon.stores) ∧ site.fleet.tasks <+: fleet.tasks)
          (fun _ _ => False) := by
        by_cases hpass : ∃ c, t = .pass c
        · obtain ⟨c, rfl⟩ := hpass
          obtain rfl := h.inCharge.own c (htasks ▸ List.mem_cons_self)
          exact h.leads_pass_of_quiet quiet
        · exact h.leads_other fun c hc => hpass ⟨c, hc⟩
      apply leads_settleSteps_succ (P := (· = site.daemon.stores)) htasks hrun
      intro site₁ later₁ attended₁ hstores₁ _
      apply (ih attended₁ (hstores₁ ▸ quiet)).imp
      rintro _ fleet ⟨site₂, hreached₂, hstores₂⟩
      exact ⟨site₂, later₁.reached hreached₂, hstores₂.trans hstores₁⟩

/-- The first pass in the queue starts the first item of the agenda, and what follows it leaves the
item in progress. -/
theorem Attended.leads_settleSteps_of_atRest (h : site.Attended gone)
    (first : AtRest site.daemon.stores.work.records (w :: items))
    (resolvable : Resolvable site.daemon.stores.role w)
    (due : .pass site.number ∈ site.fleet.tasks.take n) :
    Leads (Fleet.settleSteps n) site.fleet
      (fun _ fleet => ∃ site', site.Reached gone fleet site' ∧
        Started site.daemon.stores.session.records.length w items site'.daemon.stores)
      (fun _ _ => False) := by
  induction n generalizing site with
  | zero => exact absurd due List.not_mem_nil
  | succ n ih =>
    cases htasks : site.fleet.tasks with
    | nil =>
      rw [htasks] at due
      exact absurd due List.not_mem_nil
    | cons t ts =>
      by_cases hpass : ∃ c, t = .pass c
      · obtain ⟨c, rfl⟩ := hpass
        obtain rfl := h.inCharge.own c (htasks ▸ List.mem_cons_self)
        apply leads_settleSteps_succ htasks (h.leads_pass_of_atRest first resolvable)
        rintro site₁ later₁ attended₁ hstarted _
        obtain ⟨next, -, atWork, -⟩ := id hstarted
        apply (attended₁.leads_settleSteps_of_quiet (Or.inr ⟨next, items, atWork⟩) n).imp
        rintro _ fleet ⟨site₂, hreached₂, hstores₂⟩
        exact ⟨site₂, later₁.reached hreached₂, hstores₂ ▸ hstarted⟩
      · apply leads_settleSteps_succ (P := (· = site.daemon.stores)) htasks
          (h.leads_other fun c hc => hpass ⟨c, hc⟩)
        intro site₁ later₁ attended₁ hstores₁ hahead
        -- the pass is not at the head, so it is among the rest
        have hdue : .pass site₁.number ∈ site₁.fleet.tasks.take n := by
          rw [htasks, List.take_succ_cons] at due
          rw [later₁.number]
          apply (hahead.take n).subset
          rcases List.mem_cons.1 due with rfl | hdue
          · exact absurd ⟨_, rfl⟩ hpass
          · exact hdue
        apply (ih attended₁ (hstores₁ ▸ first) (hstores₁ ▸ resolvable) hdue).imp
        rintro _ fleet ⟨site₂, hreached₂, hstarted⟩
        rw [hstores₁] at hstarted
        exact ⟨site₂, later₁.reached hreached₂, hstarted⟩

theorem Attended.leads_settle_of_quiet (h : site.Attended gone)
    (quiet : Quiet site.daemon.stores.work.records) :
    Leads Fleet.settle site.fleet
      (fun _ fleet => ∃ site', site.Reached gone fleet site' ∧
        site'.daemon.stores = site.daemon.stores)
      (fun _ _ => False) := by
  rw [Fleet.settle, leads_bind, leads_get]
  exact h.leads_settleSteps_of_quiet quiet _

/-- Where a pass is in the queue, the first item of the agenda is in progress once the tasks have
settled. -/
theorem Attended.leads_settle_of_atRest (h : site.Attended gone)
    (first : AtRest site.daemon.stores.work.records (w :: items))
    (resolvable : Resolvable site.daemon.stores.role w)
    (due : .pass site.number ∈ site.fleet.tasks) :
    Leads Fleet.settle site.fleet
      (fun _ fleet => ∃ site', site.Reached gone fleet site' ∧
        Started site.daemon.stores.session.records.length w items site'.daemon.stores)
      (fun _ _ => False) := by
  rw [Fleet.settle, leads_bind, leads_get]
  apply h.leads_settleSteps_of_atRest first resolvable
  rw [List.take_of_length_le (Fleet.length_le_totalWeight site.fleet)]
  exact due

/-! ### Finishing -/

/-- What is in progress is done, and a pass is in the queue for what is to be started next. -/
theorem Attended.leads_markDone_of_atWork (h : site.Attended gone)
    (atWork : AtWork site.daemon.stores.work.records w items) :
    Leads (Fleet.perform site.controller.daemon .work (Work.markDone w.id)) site.fleet
      (fun _ fleet => ∃ site', site.Reached gone fleet site' ∧
        AtRest site'.daemon.stores.work.records items ∧
        site'.daemon.stores.session = site.daemon.stores.session ∧
        .pass site'.number ∈ site'.fleet.tasks)
      (fun _ _ => False) := by
  have hdone := Work.leads_markDone_of_atWork atWork h.serviced.served_work
  have hkept : Leads (Work.markDone w.id) (site.scene.desk .work)
      (fun _ desk => AtRest desk.store.records items ∧
        Serviced site.daemon.data (site.daemon.stores.set .work desk.store) desk.host)
      (fun _ _ => False) := by
    apply (h.serviced.leads_update hdone).imp
    rintro _ desk ⟨⟨hrest, -⟩, hserviced, -⟩
    exact ⟨hrest, hserviced⟩
  have hperform := leads_perform_of_willing (e := .work) h.willing site.shows_scene hkept
  have hcharge := Fleet.InCharge.keeps_perform .work (Work.markDone w.id) _ h.inCharge
  have hdue := h.inCharge.secures_perform (Work.markDone w.id) fun d hd => by
    obtain rfl := Option.some.inj (site.daemon_eq.symm.trans hd)
    exact hdone.imp fun _ _ hdone => hdone.2
  apply ((hperform.and hcharge).and hdue).mono
  · rintro _ fleet ⟨⟨⟨_, desk, rfl, ⟨hrest, hserviced⟩, seen⟩, hcharge⟩, hdue⟩
    have others : site.KeepsOthers (site.scene.moved .work desk.store desk.host) := ⟨rfl, rfl, rfl⟩
    obtain ⟨site', hreached, hstores⟩ :=
      h.reached_of_shows seen h.free others hserviced hcharge
    refine ⟨site', hreached, hstores ▸ hrest, by rw [hstores]; rfl, ?_⟩
    rw [hreached.later.number, hreached.fleet_eq]
    exact hdue.mem
  · rintro _ _ ⟨⟨hfalse, -⟩, -⟩
    exact hfalse

end Site

end WorkQueue
