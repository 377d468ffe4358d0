import WorkQueue.Proofs.Daemon.Calls
import WorkQueue.Proofs.Work.Activity

/-!
# What the passes of a controller share

The passes of a controller work on the items of one daemon, take ids from one supply, and one of
them at a time holds the controller. Only a call on the items, a new id, and taking the controller
or giving it up change any of that, so also where a listener interrupts a call.
-/

namespace WorkQueue

open Autorun
open Store (Stays Supplied)

structure Shared where
  daemon : Nat
  processing : Bool
  works : List Work
  supply : (Nat → String) × Nat

/-- The same with other items and another supply. -/
def Shared.moved (v : Shared) (works : List Work) (supply : (Nat → String) × Nat) : Shared :=
  { v with works, supply }

namespace Fleet

/-- What the passes of a controller find. -/
structure Shares (c : Nat) (v : Shared) (fleet : Fleet) : Prop where
  controller : ∃ x, fleet.controllers[c]? = some x ∧ x.daemon = v.daemon ∧
    x.processing = v.processing
  daemon : ∃ d, fleet.daemons[v.daemon]? = some d ∧ d.stores.work.records = v.works
  supply : fleet.host.supply = v.supply

variable {c : Nat} {v : Shared} {fleet : Fleet} {e : Entity}

theorem leads_daemon_shared {failed : Interrupted → Fleet → Prop} (h : Shares c v fleet) :
    Leads (Fleet.daemon v.daemon) fleet
      (fun d fleet' => fleet' = fleet ∧ d.stores.work.records = v.works) failed := by
  obtain ⟨d, hd, hworks⟩ := h.daemon
  rw [Fleet.daemon, leads_bind, leads_get, hd]
  exact (leads_pure _).2 ⟨rfl, hworks⟩

theorem leads_controller_shared {failed : Interrupted → Fleet → Prop} (h : Shares c v fleet) :
    Leads (Fleet.controller c) fleet (fun x fleet' => fleet' = fleet ∧ x.daemon = v.daemon ∧
      x.processing = v.processing) failed := by
  obtain ⟨x, hx, hdaemon, hprocessing⟩ := h.controller
  rw [Fleet.controller, leads_bind, leads_get, hx]
  exact (leads_pure _).2 ⟨rfl, hdaemon, hprocessing⟩

theorem leads_setProcessing {failed : Interrupted → Fleet → Prop} (h : Shares c v fleet)
    (processing : Bool) :
    Leads (modifyController c fun x => { x with processing }) fleet
      (fun _ fleet' => Shares c { v with processing } fleet') failed := by
  obtain ⟨x, hx, hdaemon, -⟩ := h.controller
  refine (leads_modify _).2 ⟨⟨{ x with processing }, ?_, hdaemon, rfl⟩, h.daemon, h.supply⟩
  simp [hx]

theorem leads_newSession_shared {failed : Interrupted → Fleet → Prop} (h : Shares c v fleet) :
    Leads newSession fleet
      (fun _ fleet' => Shares c (v.moved v.works (v.supply.1, v.supply.2 + 1)) fleet') failed :=
  (leads_modifyGet _).2 ⟨h.controller, h.daemon, by rw [← h.supply]; rfl⟩

theorem keeps_modifyDaemon {i : Nat} {f : Daemon → Daemon}
    (hf : ∀ d, (f d).stores.work = d.stores.work) : Keeps (Shares c v) (modifyDaemon i f) := by
  apply keeps_modify
  intro fleet h
  obtain ⟨d, hd, hworks⟩ := h.daemon
  refine ⟨h.controller, ?_, h.supply⟩
  by_cases hi : i = v.daemon
  · exact ⟨f d, by simp [hi, hd], (congrArg _ (hf d)).trans hworks⟩
  · exact ⟨d, by simp [hi, hd], hworks⟩

theorem keeps_callListener (i : Nat) (event : Event e.Rec) (l : Listener) :
    Keeps (Shares c v) (callListener i e event l) := by
  apply keeps_callListener_of
  · intro f hstores _
    exact keeps_modifyDaemon fun d => congrArg (·.work) (hstores d)
  · intro fleet h journal tasks
    exact ⟨h.controller, h.daemon, h.supply⟩

theorem keeps_callListeners (i : Nat) (events : List (Event e.Rec)) (ls : List Listener) :
    Keeps (Shares c v) (events.forM fun event => ls.forM (callListener i e event)) := by
  apply keeps_forM
  intro event _
  apply keeps_forM
  intro l _
  exact keeps_callListener i event l

/-! ### Calls on stores -/

theorem leads_setWorks {failed : Interrupted → Fleet → Prop} (h : Shares c v fleet)
    (s : Store Work) :
    Leads (modifyDaemon v.daemon fun d => { d with stores := d.stores.set .work s }) fleet
      (fun _ fleet' => Shares c (v.moved s.records v.supply) fleet') failed := by
  obtain ⟨d, hd, -⟩ := h.daemon
  refine (leads_modify _).2 ⟨h.controller, ⟨{ d with stores := d.stores.set .work s }, ?_, rfl⟩,
    h.supply⟩
  change (fleet.daemons.modify v.daemon _)[v.daemon]? = _
  simp [hd]

theorem leads_setHost {failed : Interrupted → Fleet → Prop} (h : Shares c v fleet) (host : Host) :
    Leads (modify fun fleet : Fleet => { fleet with host }) fleet
      (fun _ fleet' => Shares c (v.moved v.works host.supply) fleet') failed :=
  (leads_modify _).2 ⟨h.controller, h.daemon, rfl⟩

theorem keeps_setStore (i : Nat) (he : e ≠ .work) (s : Store e.Rec) :
    Keeps (Shares c v) (modifyDaemon i fun d => { d with stores := d.stores.set e s }) :=
  keeps_modifyDaemon fun d => PerEntity.get_set_of_ne d.stores s he.symm

theorem keeps_setHost {host : Host} (hhost : host.supply = v.supply) :
    Keeps (Shares c v) (modify fun fleet : Fleet => { fleet with host } : FleetM Unit) :=
  keeps_modify fun _ h => ⟨h.controller, h.daemon, hhost⟩

/-- A commit of the items is taken over before any listener is called. -/
theorem leads_announce_work (h : Shares c v fleet) (cm : Store.Commit Work) :
    Leads (announce v.daemon .work cm) fleet
      (fun _ fleet' => Shares c (v.moved cm.store.records cm.host.supply) fleet')
      (fun _ fleet' => Shares c (v.moved cm.store.records cm.host.supply) fleet') := by
  rw [announce]
  apply (leads_setWorks h cm.store).bind
  intro _ fleet₁ h₁
  apply (leads_setHost h₁ cm.host).bind
  intro _ fleet₂ h₂
  apply (keeps_daemon v.daemon fleet₂ h₂).bind
  intro d fleet₃ h₃
  exact keeps_callListeners (e := .work) v.daemon cm.events (d.listeners.get .work) fleet₃ h₃

theorem keeps_announce (i : Nat) (he : e ≠ .work) {cm : Store.Commit e.Rec}
    (hhost : cm.host.supply = v.supply) : Keeps (Shares c v) (announce i e cm) :=
  keeps_announce_of (keeps_setStore i he cm.store) (keeps_setHost hhost) (keeps_callListener i)

/-- A call on other records changes nothing that passes share, unless it takes an id. -/
theorem keeps_perform {α : Type} (i : Nat) (he : e ≠ .work) {call : StoreM e.Rec α}
    (hcall : Keeps (Supplied v.supply) call) : Keeps (Shares c v) (perform i e call) := by
  have hend (result : Except StoreError α) {desk : Store.Desk e.Rec}
      (hs : Supplied v.supply desk) : Keeps (Shares c v) (conclude i e desk result) := by
    apply keeps_conclude
    · intro cm hcm
      exact keeps_announce i he (hs.commits cm hcm)
    · exact keeps_replace (keeps_setStore i he desk.store) (keeps_setHost hs.host) result
  intro fleet h
  apply leads_perform_of fun _ => h
  intro d _
  have hstart : Supplied v.supply (⟨d.stores.get e, fleet.host, []⟩ : Store.Desk e.Rec) :=
    h.supply ▸ Store.supplied_start _ _
  apply (hcall _ hstart).mono
  · intro x desk hs
    exact hend (.ok x) hs fleet h
  · intro err desk hs
    exact hend (.error err) hs fleet h

/-- A call on the items comes to its end, or a listener interrupts it at one of its commits. -/
theorem leads_perform_work {α : Type} {call : StoreM Work α}
    {P : List Work → (Nat → String) × Nat → Prop} {done : α → Store.Desk Work → Prop}
    {refused : StoreError → Store.Desk Work → Prop} (h : Shares c v fleet)
    (hcall : ∀ s host, s.records = v.works → host.supply = v.supply →
      Leads call ⟨s, host, []⟩ (fun a desk => done a desk ∧ Stays P desk)
        (fun err desk => refused err desk ∧ Stays P desk)) :
    Leads (perform v.daemon .work call) fleet
      (fun result fleet' => ∃ desk, Shares c (v.moved desk.store.records desk.host.supply) fleet' ∧
        Stays P desk ∧
        ((∃ a, result = .ok a ∧ done a desk) ∨ ∃ err, result = .error err ∧ refused err desk))
      (fun _ fleet' => ∃ works supply,
        Shares c (v.moved works supply) fleet' ∧ P works supply) := by
  have hend (result : Except StoreError α) {desk : Store.Desk Work} (hs : Stays P desk) :
      Leads (conclude v.daemon .work desk result) fleet
        (fun result' fleet' => result' = result ∧
          Shares c (v.moved desk.store.records desk.host.supply) fleet')
        (fun _ fleet' => ∃ works supply,
          Shares c (v.moved works supply) fleet' ∧ P works supply) := by
    have hstart : ∃ works supply, Shares c (v.moved works supply) fleet := ⟨v.works, v.supply, h⟩
    apply Leads.bind
    · apply leads_forM_of_kept (I := fun fleet => ∃ works supply,
        Shares c (v.moved works supply) fleet) _ hstart
      rintro cm hcm fleet₂ ⟨works, supply, h₂⟩
      apply (leads_announce_work h₂ cm).mono
      · intro _ fleet₃ h₃
        exact ⟨_, _, h₃⟩
      · intro _ fleet₃ h₃
        exact ⟨_, _, h₃, hs.commits cm hcm⟩
    · rintro _ fleet₂ ⟨works, supply, h₂⟩
      apply (leads_setWorks h₂ desk.store).bind
      intro _ fleet₃ h₃
      apply (leads_setHost h₃ desk.host).bind
      intro _ fleet₄ h₄
      exact (leads_pure _).2 ⟨rfl, h₄⟩
  obtain ⟨d, hd, hworks⟩ := h.daemon
  apply leads_perform_of
  · intro hmissing
    cases hd.symm.trans hmissing
  intro d' hd'
  obtain rfl := Option.some.inj (hd.symm.trans hd')
  apply (hcall _ _ hworks h.supply).mono
  · rintro x desk ⟨hdone, hs⟩
    apply (hend (.ok x) hs).imp
    rintro _ fleet₂ ⟨rfl, h₂⟩
    exact ⟨desk, h₂, hs, Or.inl ⟨x, rfl, hdone⟩⟩
  · rintro err desk ⟨hrefused, hs⟩
    apply (hend (.error err) hs).imp
    rintro _ fleet₂ ⟨rfl, h₂⟩
    exact ⟨desk, h₂, hs, Or.inr ⟨err, rfl, hrefused⟩⟩

/-! ### Calls on collaborators -/

section Calls

variable {x : Controller} {r : Request}

theorem leads_consult_shared {failed : Interrupted → Fleet → Prop} (h : Shares c v fleet)
    (hx : x.daemon = v.daemon) :
    Leads (consult x r) fleet (fun _ fleet' => Shares c v fleet') failed := by
  unfold consult
  split
  · rw [leads_bind, leads_modify, hx]
    have h₁ : Shares c v { fleet with requests := fleet.requests ++ [r] } :=
      ⟨h.controller, h.daemon, h.supply⟩
    apply (leads_daemon_shared h₁).bind
    rintro d fleet₂ ⟨rfl, -⟩
    split
    · exact (leads_pure _).2 h₁
    · exact (leads_pure _).2 h₁
  · exact (leads_pure _).2 h

theorem leads_isEnabled_shared {failed : Interrupted → Fleet → Prop} (h : Shares c v fleet)
    (hx : x.daemon = v.daemon) :
    Leads (isEnabled x) fleet (fun _ fleet' => Shares c v fleet') failed := by
  rw [isEnabled]
  apply (leads_consult_shared h hx).bind
  intro answer fleet₁ h₁
  cases answer with
  | error chain => exact (leads_pure _).2 h₁
  | ok _ =>
    rw [hx]
    apply (leads_daemon_shared h₁).bind
    rintro d fleet₂ ⟨rfl, -⟩
    exact (leads_pure _).2 h₁

theorem leads_onSessions_shared (h : Shares c v fleet) (hx : x.daemon = v.daemon)
    {context : String} {call : StoreM Session Session} (hcall : Keeps (Supplied v.supply) call) :
    Leads (onSessions x r context call) fleet (fun _ fleet' => Shares c v fleet')
      (fun _ fleet' => Shares c v fleet') := by
  rw [onSessions]
  apply (leads_consult_shared h hx).bind
  intro answer fleet₁ h₁
  cases answer with
  | error chain => exact (leads_pure _).2 h₁
  | ok _ =>
    have hperform : Keeps (Shares c v) (perform x.daemon .session call) :=
      keeps_perform (e := .session) x.daemon (fun he => nomatch he) hcall
    apply (hperform fleet₁ h₁).bind
    intro result fleet₂ h₂
    cases result with
    | ok _ => exact (leads_pure _).2 h₂
    | error err => exact (leads_pure _).2 h₂

end Calls

end Fleet

end WorkQueue
