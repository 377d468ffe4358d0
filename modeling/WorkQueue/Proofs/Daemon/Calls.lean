import WorkQueue.Daemon.Pass
import WorkQueue.Proofs.Store.Calls

/-!
# What a pass does to its fleet

A controller works for one daemon of a fleet. From there a pass is seen to change the stores of the
daemon, the host, the calls that were made outside, and whether a pass is under way. The listeners
of the stores are called with every event, but they only note the event, queue it, or put tasks into
the queue of the fleet: unless one of them fails, they neither end the call nor change what is seen.
-/

namespace WorkQueue

open Autorun

namespace Fleet

variable {fleet : Fleet} {i : Nat} {e : Entity} {desk : Store.Desk e.Rec} {α : Type}

theorem leads_daemon_bind {done : α → Fleet → Prop} {failed : Interrupted → Fleet → Prop}
    {d : Daemon} (hd : fleet.daemons[i]? = some d) (f : Daemon → FleetM α) :
    Leads (daemon i >>= f) fleet done failed ↔ Leads (f d) fleet done failed := by
  rw [leads_bind, daemon, leads_bind, leads_get, hd]
  exact leads_pure d

theorem leads_daemon_bind_of {f : Daemon → FleetM α} {done : α → Fleet → Prop}
    {failed : Interrupted → Fleet → Prop}
    (hmissing : fleet.daemons[i]? = none → failed ⟨⟩ fleet)
    (hf : ∀ d, fleet.daemons[i]? = some d → Leads (f d) fleet done failed) :
    Leads (daemon i >>= f) fleet done failed := by
  cases hd : fleet.daemons[i]? with
  | none =>
    rw [leads_bind, daemon, leads_bind, leads_get, hd]
    exact (leads_throw _).2 (hmissing hd)
  | some d => exact (leads_daemon_bind hd f).2 (hf d hd)

theorem keeps_daemon {I : Fleet → Prop} (i : Nat) : Keeps I (daemon i) := by
  apply keeps_get_bind
  intro fleet
  cases fleet.daemons[i]? with
  | none => exact keeps_throw _
  | some d => exact keeps_pure d

/-! ### What follows a call on a store -/

/-- What a call ended with takes the place of what its commits left. -/
def replace (i : Nat) (e : Entity) (desk : Store.Desk e.Rec) (x : α) : FleetM α := do
  modifyDaemon i fun d => { d with stores := d.stores.set e desk.store }
  modify fun fleet => { fleet with host := desk.host }
  return x

/-- The commits of a call are announced, and then it is at its end. -/
def conclude (i : Nat) (e : Entity) (desk : Store.Desk e.Rec) (x : α) : FleetM α := do
  desk.commits.forM (announce i e)
  replace i e desk x

/-- A call runs on the store and the host that it finds. -/
theorem leads_perform_of {call : StoreM e.Rec α} {done : Except StoreError α → Fleet → Prop}
    {failed : Interrupted → Fleet → Prop}
    (hmissing : fleet.daemons[i]? = none → failed ⟨⟩ fleet)
    (hcall : ∀ d, fleet.daemons[i]? = some d → Leads call ⟨d.stores.get e, fleet.host, []⟩
      (fun x desk => Leads (conclude i e desk (.ok x)) fleet done failed)
      fun err desk => Leads (conclude i e desk (.error err)) fleet done failed) :
    Leads (perform i e call) fleet done failed := by
  apply leads_daemon_bind_of hmissing
  intro d hd
  rw [leads_bind, leads_get]
  have hcalled := hcall d hd
  cases hrun : call ⟨d.stores.get e, fleet.host, []⟩ with
  | ok x desk => exact hcalled.of_ok hrun
  | error err desk => exact hcalled.of_error hrun

theorem keeps_replace {I : Fleet → Prop}
    (hstore : Keeps I (modifyDaemon i fun d => { d with stores := d.stores.set e desk.store }))
    (hhost : Keeps I (modify fun fleet : Fleet => { fleet with host := desk.host } : FleetM Unit))
    (x : α) : Keeps I (replace i e desk x) := by
  apply hstore.bind
  intro _
  apply hhost.bind
  intro _
  exact keeps_pure x

theorem keeps_conclude {I : Fleet → Prop} {x : α}
    (hannounce : ∀ cm ∈ desk.commits, Keeps I (announce i e cm))
    (hreplace : Keeps I (replace i e desk x)) : Keeps I (conclude i e desk x) := by
  apply Keeps.bind (keeps_forM hannounce)
  intro _
  exact hreplace

theorem keeps_perform_of {I : Fleet → Prop} (hannounce : ∀ cm, Keeps I (announce i e cm))
    (hreplace : ∀ (desk : Store.Desk e.Rec) (x : Except StoreError α), Keeps I (replace i e desk x))
    (call : StoreM e.Rec α) : Keeps I (perform i e call) := by
  have hend (result : Except StoreError α) (desk : Store.Desk e.Rec) :
      Keeps I (conclude i e desk result) :=
    keeps_conclude (fun cm _ => hannounce cm) (hreplace desk result)
  intro fleet h
  apply leads_perform_of fun _ => h
  intro d _
  apply leads_iff.2 ⟨?_, ?_⟩
  · intro x desk _
    exact hend (.ok x) desk fleet h
  · intro err desk _
    exact hend (.error err) desk fleet h

/-! ### Listeners -/

/-- What listeners change of a daemon are its notifiers and who listens. Elsewhere they change the
journal and the tasks. -/
theorem keeps_callListener_of {I : Fleet → Prop} (event : Event e.Rec) (l : Listener)
    (hdaemon : ∀ f : Daemon → Daemon, (∀ d, (f d).stores = d.stores) →
      (∀ d, (f d).watchers = d.watchers) → Keeps I (modifyDaemon i f))
    (helsewhere : ∀ fleet : Fleet, I fleet → ∀ journal tasks, I { fleet with journal, tasks }) :
    Keeps I (callListener i e event l) := by
  cases l with
  | journal =>
    apply (keeps_daemon i).bind
    intro d
    exact keeps_modify fun fleet h => helsewhere fleet h _ fleet.tasks
  | notifier slot =>
    apply Keeps.bind
    · exact hdaemon _ (fun _ => rfl) fun _ => rfl
    · intro _
      apply keeps_modify
      intro fleet h
      by_cases hmem : Task.dispatch i e slot ∈ fleet.tasks
      · rw [if_pos hmem]
        exact h
      · rw [if_neg hmem]
        exact helsewhere fleet h fleet.journal _
  | autorun c =>
    apply keeps_get_bind
    intro fleet
    by_cases ht : (triggers e event && isAlive fleet c) = true
    · rw [if_pos ht]
      exact keeps_modify fun fleet h => helsewhere fleet h fleet.journal _
    · rw [if_neg ht]
      exact keeps_pure _
  | failOnce =>
    apply Keeps.bind
    · exact hdaemon _ (fun _ => rfl) fun _ => rfl
    · intro _
      exact keeps_throw _

theorem keeps_announce_of {I : Fleet → Prop} {cm : Store.Commit e.Rec}
    (hstore : Keeps I (modifyDaemon i fun d => { d with stores := d.stores.set e cm.store }))
    (hhost : Keeps I (modify fun fleet : Fleet => { fleet with host := cm.host } : FleetM Unit))
    (hlistener : ∀ event l, Keeps I (callListener i e event l)) : Keeps I (announce i e cm) := by
  apply hstore.bind
  intro _
  apply hhost.bind
  intro _
  apply (keeps_daemon i).bind
  intro d
  apply keeps_forM
  intro event _
  apply keeps_forM
  intro l _
  exact hlistener event l

end Fleet

/-- A controller of a fleet, and the daemon that it works for. -/
structure Site where
  fleet : Fleet
  number : Nat
  controller : Controller
  daemon : Daemon
  controller_eq : fleet.controllers[number]? = some controller
  daemon_eq : fleet.daemons[controller.daemon]? = some daemon

/-- What is seen of a pass. -/
structure Scene where
  stores : PerEntity fun e => Store e.Rec
  host : Host
  /-- the calls outside that the pass has made -/
  asked : List Request := []
  processing : Bool

namespace Scene

/-- The scene with another store of an entity, on another host. -/
def moved (scene : Scene) (e : Entity) (s : Store e.Rec) (host : Host) : Scene :=
  { scene with stores := scene.stores.set e s, host }

/-- What a call on the store of an entity starts from. -/
def desk (scene : Scene) (e : Entity) : Store.Desk e.Rec where
  store := scene.stores.get e
  host := scene.host

theorem moved_moved (scene : Scene) {e : Entity} (s s' : Store e.Rec) (host host' : Host) :
    (scene.moved e s host).moved e s' host' = scene.moved e s' host' := by
  cases e <;> rfl

theorem moved_self (scene : Scene) (e : Entity) :
    scene.moved e (scene.stores.get e) scene.host = scene := by
  cases e <;> rfl

end Scene

namespace Site

/-- The controllers, with ours under way or not. -/
def controllersWith (site : Site) (processing : Bool) : List Controller :=
  site.fleet.controllers.set site.number { site.controller with processing }

/-- The daemon with other stores and notifiers. -/
def daemonWith (site : Site) (stores : PerEntity fun e => Store e.Rec)
    (notifiers : PerEntity fun e => List (Notifier e.Rec)) : Daemon :=
  { site.daemon with stores, notifiers }

@[simp] theorem daemonWith_outside (site : Site) (stores : PerEntity fun e => Store e.Rec)
    (notifiers : PerEntity fun e => List (Notifier e.Rec)) :
    (site.daemonWith stores notifiers).outside = site.daemon.outside := rfl

structure Shows (site : Site) (scene : Scene) (fleet : Fleet) : Prop where
  daemons : ∃ notifiers, fleet.daemons = site.fleet.daemons.set site.controller.daemon
    (site.daemonWith scene.stores notifiers)
  host : fleet.host = scene.host
  requests : fleet.requests = site.fleet.requests ++ scene.asked
  controllers : fleet.controllers = site.controllersWith scene.processing

/-- What is seen before the pass. -/
def scene (site : Site) : Scene where
  stores := site.daemon.stores
  host := site.fleet.host
  processing := site.controller.processing

theorem modify_set {α : Type} (xs : List α) (i : Nat) (x : α) (f : α → α) :
    (xs.set i x).modify i f = xs.set i (f x) := by
  induction xs generalizing i with
  | nil => simp
  | cons y ys ih =>
    cases i with
    | zero => rfl
    | succ i => exact congrArg (y :: ·) (ih i)

theorem modify_controllersWith (site : Site) (was processing : Bool) :
    (site.controllersWith was).modify site.number (fun x => { x with processing }) =
      site.controllersWith processing :=
  modify_set _ _ _ _

variable {site : Site} {scene : Scene} {fleet : Fleet}

theorem controllersWith_self (site : Site) :
    site.controllersWith site.controller.processing = site.fleet.controllers :=
  Store.set_eq_self site.controller_eq

theorem shows_scene (site : Site) : site.Shows site.scene site.fleet where
  daemons := ⟨site.daemon.notifiers, (Store.set_eq_self site.daemon_eq).symm⟩
  host := rfl
  requests := (List.append_nil _).symm
  controllers := site.controllersWith_self.symm

theorem Shows.exists_daemon (h : site.Shows scene fleet) : ∃ notifiers,
    fleet.daemons[site.controller.daemon]? = some (site.daemonWith scene.stores notifiers) := by
  obtain ⟨notifiers, hdaemons⟩ := h.daemons
  have hlt := (List.getElem?_eq_some_iff.1 site.daemon_eq).1
  exact ⟨notifiers, by rw [hdaemons, List.getElem?_set_self hlt]⟩

theorem leads_daemon {failed : Interrupted → Fleet → Prop} (h : site.Shows scene fleet) :
    Leads (Fleet.daemon site.controller.daemon) fleet (fun d fleet' => fleet' = fleet ∧
      ∃ notifiers, d = site.daemonWith scene.stores notifiers) failed := by
  obtain ⟨notifiers, hget⟩ := h.exists_daemon
  rw [Fleet.daemon, leads_bind, leads_get, hget]
  exact (leads_pure _).2 ⟨rfl, notifiers, rfl⟩

theorem leads_controller {failed : Interrupted → Fleet → Prop} (h : site.Shows scene fleet) :
    Leads (Fleet.controller site.number) fleet (fun x fleet' => fleet' = fleet ∧
      x = { site.controller with processing := scene.processing }) failed := by
  have hlt := (List.getElem?_eq_some_iff.1 site.controller_eq).1
  have hget : fleet.controllers[site.number]? =
      some { site.controller with processing := scene.processing } := by
    rw [h.controllers, controllersWith, List.getElem?_set_self hlt]
  rw [Fleet.controller, leads_bind, leads_get, hget]
  exact (leads_pure _).2 ⟨rfl, rfl⟩

theorem leads_modifyDaemon {failed : Interrupted → Fleet → Prop} {f : Daemon → Daemon}
    {stores : PerEntity fun e => Store e.Rec} (h : site.Shows scene fleet)
    (hf : ∀ notifiers, ∃ notifiers', f (site.daemonWith scene.stores notifiers) =
      site.daemonWith stores notifiers') :
    Leads (Fleet.modifyDaemon site.controller.daemon f) fleet
      (fun _ fleet' => site.Shows { scene with stores } fleet') failed := by
  obtain ⟨notifiers, hdaemons⟩ := h.daemons
  obtain ⟨notifiers', hf⟩ := hf notifiers
  apply (leads_modify _).2
  refine ⟨⟨notifiers', ?_⟩, h.host, h.requests, h.controllers⟩
  change fleet.daemons.modify site.controller.daemon f = _
  rw [hdaemons, modify_set, hf]

theorem leads_modifyController {failed : Interrupted → Fleet → Prop} (h : site.Shows scene fleet)
    (processing : Bool) :
    Leads (Fleet.modifyController site.number fun x => { x with processing }) fleet
      (fun _ fleet' => site.Shows { scene with processing } fleet') failed := by
  apply (leads_modify _).2
  refine ⟨h.daemons, h.host, h.requests, ?_⟩
  change fleet.controllers.modify site.number _ = _
  rw [h.controllers, modify_controllersWith]

/-! ### Calls on stores -/

/-- A listener has failed. Whether a pass is under way is all that changed of the controllers. -/
structure Breaks (site : Site) (fleet : Fleet) : Prop where
  listener : ∃ e, .failOnce ∈ site.daemon.listeners.get e
  controllers : ∃ processing, fleet.controllers = site.controllersWith processing

section Stores

variable {e : Entity}

theorem leads_callListener {event : Event e.Rec} {l : Listener}
    (hl : l ∈ site.daemon.listeners.get e) (h : site.Shows scene fleet) :
    Leads (Fleet.callListener site.controller.daemon e event l) fleet
      (fun _ fleet' => site.Shows scene fleet')
      (fun _ fleet' => site.Breaks fleet') := by
  cases l with
  | journal =>
    rw [Fleet.callListener]
    apply (leads_daemon h).bind
    rintro d fleet' ⟨rfl, -⟩
    exact (leads_modify _).2 ⟨h.daemons, h.host, h.requests, h.controllers⟩
  | notifier slot =>
    rw [Fleet.callListener]
    apply (leads_modifyDaemon h fun notifiers => ⟨_, rfl⟩).bind
    intro _ fleet' h'
    apply (leads_modify _).2
    by_cases hmem : Task.dispatch site.controller.daemon e slot ∈ fleet'.tasks
    · rw [if_pos hmem]
      exact h'
    · rw [if_neg hmem]
      exact ⟨h'.daemons, h'.host, h'.requests, h'.controllers⟩
  | autorun c =>
    rw [Fleet.callListener, leads_bind, leads_get]
    by_cases ht : (Fleet.triggers e event && Fleet.isAlive fleet c) = true
    · rw [if_pos ht]
      exact (leads_modify _).2 ⟨h.daemons, h.host, h.requests, h.controllers⟩
    · rw [if_neg ht]
      exact (leads_pure _).2 h
  | failOnce =>
    rw [Fleet.callListener, Fleet.modifyDaemon, leads_bind, leads_modify]
    exact (leads_throw _).2 ⟨⟨e, hl⟩, _, h.controllers⟩

theorem leads_setStore {failed : Interrupted → Fleet → Prop} (h : site.Shows scene fleet)
    (s : Store e.Rec) : Leads (Fleet.modifyDaemon site.controller.daemon fun d =>
        { d with stores := d.stores.set e s }) fleet
      (fun _ fleet' => site.Shows (scene.moved e s scene.host) fleet') failed :=
  leads_modifyDaemon h fun notifiers => ⟨notifiers, rfl⟩

theorem leads_announce (h : site.Shows scene fleet) (c : Store.Commit e.Rec) :
    Leads (Fleet.announce site.controller.daemon e c) fleet
      (fun _ fleet' => site.Shows (scene.moved e c.store c.host) fleet')
      (fun _ fleet' => site.Breaks fleet') := by
  rw [Fleet.announce]
  apply (leads_setStore h c.store).bind
  intro _ fleet₁ h₁
  rw [leads_bind, leads_modify]
  have h₂ : site.Shows (scene.moved e c.store c.host) { fleet₁ with host := c.host } :=
    ⟨h₁.daemons, rfl, h₁.requests, h₁.controllers⟩
  apply (leads_daemon h₂).bind
  rintro d fleet₃ ⟨rfl, notifiers, rfl⟩
  apply leads_forM_of_kept _ h₂
  intro event _ fleet₄ h₄
  apply leads_forM_of_kept _ h₄
  intro l hl fleet₅ h₅
  exact leads_callListener hl h₅

theorem leads_announceAll (h : site.Shows scene fleet) (commits : List (Store.Commit e.Rec)) :
    Leads (forM commits (Fleet.announce site.controller.daemon e)) fleet
      (fun _ fleet' => ∃ s host, site.Shows (scene.moved e s host) fleet')
      (fun _ fleet' => site.Breaks fleet') := by
  have hstart : ∃ s host, site.Shows (scene.moved e s host) fleet :=
    ⟨scene.stores.get e, scene.host, (scene.moved_self e).symm ▸ h⟩
  apply leads_forM_of_kept (I := fun fleet => ∃ s host, site.Shows (scene.moved e s host) fleet) _
    hstart
  rintro c - fleet₁ ⟨s, host, h₁⟩
  apply (leads_announce h₁ c).imp
  intro _ fleet₂ h₂
  rw [Scene.moved_moved] at h₂
  exact ⟨c.store, c.host, h₂⟩

/-- A call on a store does to the fleet what it does to the store and the host. -/
theorem leads_perform {α : Type} {call : StoreM e.Rec α} {done : α → Store.Desk e.Rec → Prop}
    {refused : StoreError → Store.Desk e.Rec → Prop} (h : site.Shows scene fleet)
    (hcall : Leads call (scene.desk e) done refused) :
    Leads (Fleet.perform site.controller.daemon e call) fleet (fun result fleet' =>
      ∃ desk, site.Shows (scene.moved e desk.store desk.host) fleet' ∧
        ((∃ x, result = .ok x ∧ done x desk) ∨ ∃ err, result = .error err ∧ refused err desk))
      (fun _ fleet' => site.Breaks fleet') := by
  have hend (result : Except StoreError α) (desk : Store.Desk e.Rec) :
      Leads (Fleet.conclude site.controller.daemon e desk result) fleet
        (fun result' fleet' => result' = result ∧
          site.Shows (scene.moved e desk.store desk.host) fleet')
        (fun _ fleet' => site.Breaks fleet') := by
    apply (leads_announceAll h desk.commits).bind
    rintro _ fleet₁ ⟨s, host, h₁⟩
    apply (leads_setStore h₁ desk.store).bind
    intro _ fleet₂ h₂
    rw [Scene.moved_moved] at h₂
    rw [leads_bind, leads_modify]
    exact (leads_pure _).2 ⟨rfl, h₂.daemons, rfl, h₂.requests, h₂.controllers⟩
  obtain ⟨notifiers, hget⟩ := h.exists_daemon
  apply Fleet.leads_perform_of
  · intro hmissing
    cases hget.symm.trans hmissing
  intro d hd
  obtain rfl := Option.some.inj (hd.symm.trans hget)
  rw [h.host]
  have hdesk : ⟨(site.daemonWith scene.stores notifiers).stores.get e, scene.host, []⟩ =
    scene.desk e := rfl
  rw [hdesk]
  apply hcall.mono
  · intro x desk hdone
    apply (hend (.ok x) desk).imp
    rintro _ fleet₂ ⟨rfl, h₂⟩
    exact ⟨desk, h₂, Or.inl ⟨x, rfl, hdone⟩⟩
  · intro err desk hrefused
    apply (hend (.error err) desk).imp
    rintro _ fleet₂ ⟨rfl, h₂⟩
    exact ⟨desk, h₂, Or.inr ⟨err, rfl, hrefused⟩⟩

end Stores

/-! ### Calls outside -/

/-- The call is made outside, so that it can be refused there. -/
def asks (site : Site) (r : Request) : Bool := site.controller.asksOutside || r.isMessage

def answer (site : Site) (r : Request) : Except Chain Unit :=
  if site.asks r then
    match site.daemon.outside.refusals.lookup r.name with
    | some chain => .error chain
    | none => .ok ()
  else .ok ()

/-- The scene after a call outside. -/
def noted (site : Site) (r : Request) (scene : Scene) : Scene :=
  { scene with asked := scene.asked ++ if site.asks r then [r] else [] }

theorem leads_consult {failed : Interrupted → Fleet → Prop} (h : site.Shows scene fleet)
    (processing : Bool) (r : Request) :
    Leads (consult { site.controller with processing } r) fleet (fun result fleet' =>
      result = site.answer r ∧ site.Shows (site.noted r scene) fleet') failed := by
  unfold consult answer noted
  by_cases hr : site.asks r = true
  · have hr' : (site.controller.asksOutside || r.isMessage) = true := hr
    rw [if_pos hr', if_pos hr, if_pos hr, leads_bind, leads_modify]
    have h₁ : site.Shows { scene with asked := scene.asked ++ [r] }
        { fleet with requests := fleet.requests ++ [r] } :=
      ⟨h.daemons, h.host, by rw [h.requests, List.append_assoc], h.controllers⟩
    apply (leads_daemon h₁).bind
    rintro d fleet₁ ⟨rfl, notifiers, rfl⟩
    rw [daemonWith_outside]
    cases site.daemon.outside.refusals.lookup r.name with
    | some chain => exact (leads_pure _).2 ⟨rfl, h₁⟩
    | none => exact (leads_pure _).2 ⟨rfl, h₁⟩
  · have hr' : ¬ (site.controller.asksOutside || r.isMessage) = true := hr
    rw [if_neg hr', if_neg hr, if_neg hr, List.append_nil]
    exact (leads_pure _).2 ⟨rfl, h⟩

/-- How a call on the session store ends: it is refused outside, or it is made and succeeds or fails
there, which is told with its context. -/
inductive Called (site : Site) (scene : Scene) (r : Request) (context : String)
    (done : Store.Desk Session → Prop) (failed : StoreError → Store.Desk Session → Prop) :
    Except Chain Unit → Scene → Prop where
  | refused {chain : Chain} (outside : site.answer r = .error chain) :
      Called site scene r context done failed (.error chain) (site.noted r scene)
  | made {desk : Store.Desk Session} (result : done desk) :
      Called site scene r context done failed (.ok ())
        ((site.noted r scene).moved .session desk.store desk.host)
  | failed {e : StoreError} {desk : Store.Desk Session} (result : failed e desk) :
      Called site scene r context done failed (.error (context :: e.chain))
        ((site.noted r scene).moved .session desk.store desk.host)

theorem leads_onSessions {call : StoreM Session Session} {done : Store.Desk Session → Prop}
    {failed : StoreError → Store.Desk Session → Prop} (h : site.Shows scene fleet)
    (processing : Bool) (r : Request) (context : String)
    (hcall : Leads call (scene.desk .session) (fun _ desk => done desk) failed) :
    Leads (onSessions { site.controller with processing } r context call) fleet
      (fun result fleet' => ∃ scene', site.Shows scene' fleet' ∧
        site.Called scene r context done failed result scene')
      (fun _ fleet' => site.Breaks fleet') := by
  unfold onSessions
  apply (leads_consult h processing r).bind
  rintro result fleet₁ ⟨rfl, h₁⟩
  cases hanswer : site.answer r with
  | error chain => exact (leads_pure _).2 ⟨_, h₁, .refused hanswer⟩
  | ok _ =>
    apply (leads_perform (e := .session) h₁ hcall).bind
    rintro result fleet₂ ⟨desk, h₂, ⟨s, rfl, hdone⟩ | ⟨e, rfl, hfailed⟩⟩
    · exact (leads_pure _).2 ⟨_, h₂, .made hdone⟩
    · exact (leads_pure _).2 ⟨_, h₂, .failed hfailed⟩

end Site

end WorkQueue
