import WorkQueue.Daemon.Tasks
import WorkQueue.Proofs.Daemon.Shared

/-!
# Controllers in charge

A controller in charge is held and listens to the items of its daemon, where no other controller
that is alive listens. What it does, and what other tasks do that run no pass, leaves it in charge,
and tasks only join the queue. So a change that finishes an item puts a pass into it.
-/

namespace WorkQueue

open Autorun

/-- What a controller works for, and whether somebody holds it. -/
def Controller.post (x : Controller) : Nat × Bool := (x.daemon, x.held)

namespace Fleet

/-! ### Calls outside -/

section Outside

variable {I : Fleet → Prop} (hI : ∀ fleet requests, I fleet → I { fleet with requests })

include hI

theorem keeps_consult (x : Controller) (r : Request) : Keeps I (consult x r) := by
  unfold consult
  split
  · apply Keeps.bind
    · exact keeps_modify fun fleet h => hI fleet _ h
    intro _
    apply (keeps_daemon x.daemon).bind
    intro d
    split
    · exact keeps_pure _
    · exact keeps_pure _
  · exact keeps_pure _

theorem keeps_isEnabled (x : Controller) : Keeps I (isEnabled x) := by
  apply (keeps_consult hI x .readSettings).bind
  intro answer
  cases answer with
  | error chain => exact keeps_pure _
  | ok _ =>
    apply (keeps_daemon x.daemon).bind
    intro d
    exact keeps_pure _

omit hI in
theorem keeps_controller (c : Nat) : Keeps I (controller c) := by
  apply keeps_get_bind
  intro fleet
  cases fleet.controllers[c]? with
  | none => exact keeps_throw _
  | some x => exact keeps_pure x

theorem keeps_handleAgentEvent (c : Nat) (event : AgentEvent) :
    Keeps I (handleAgentEvent c event) := by
  unfold handleAgentEvent
  split
  · exact keeps_pure _
  apply (keeps_controller c).bind
  intro x
  apply (keeps_isEnabled hI x).bind
  intro answer
  cases answer with
  | error chain => exact keeps_pure _
  | ok enabled =>
    cases enabled with
    | false => exact keeps_pure _
    | true =>
      apply (keeps_daemon x.daemon).bind
      intro d
      dsimp only
      split
      · apply (keeps_consult hI x _).bind
        intro answer
        cases answer with
        | error chain => exact keeps_pure _
        | ok _ => exact keeps_pure _
      · exact keeps_pure _

end Outside

/-! ### Being in charge -/

/-- The controller is in charge, and the tasks of the queue run no pass of another one. These tasks
are first in the queue. -/
structure InCharge (c i : Nat) (gone : Nat → Prop) (ts : List Task) (fleet : Fleet) : Prop where
  held : ∃ x, fleet.controllers[c]? = some x ∧ x.daemon = i ∧ x.held = true
  listens : ∃ d, fleet.daemons[i]? = some d ∧ .autorun c ∈ d.listeners.get .work ∧
    ∀ e c', .autorun c' ∈ d.listeners.get e → c' = c ∨ gone c'
  gone : ∀ c', gone c' → isAlive fleet c' = false
  own : ∀ c', .pass c' ∈ fleet.tasks → c' = c
  ahead : ts <+: fleet.tasks

variable {c i : Nat} {gone : Nat → Prop} {ts : List Task} {fleet fleet' : Fleet} {e : Entity}

theorem isAlive_eq_false_iff : isAlive fleet c = false ↔
    (∀ x, fleet.controllers[c]? = some x → x.held = false) ∧
      ∀ t ∈ fleet.tasks, Task.uses c t = false := by
  simp [isAlive, Option.any_eq_false]

namespace InCharge

theorem alive (h : InCharge c i gone ts fleet) : isAlive fleet c = true := by
  obtain ⟨x, hx, -, hheld⟩ := h.held
  simp [isAlive, hx, hheld]

/-- Nothing has changed that matters to who is in charge. -/
theorem congr (h : InCharge c i gone ts fleet)
    (controllers : ∀ k : Nat, fleet'.controllers[k]?.map Controller.post =
      fleet.controllers[k]?.map Controller.post)
    (daemon : ∀ d, fleet.daemons[i]? = some d → ∃ d', fleet'.daemons[i]? = some d' ∧
      ∀ e c', .autorun c' ∈ d'.listeners.get e ↔ .autorun c' ∈ d.listeners.get e)
    (tasks : fleet'.tasks = fleet.tasks) : InCharge c i gone ts fleet' where
  held := by
    obtain ⟨x, hx, hdaemon, hheld⟩ := h.held
    have hsame := controllers c
    rw [hx] at hsame
    obtain ⟨x', hx', heq⟩ := Option.map_eq_some_iff.1 hsame
    obtain ⟨hdaemon', hheld'⟩ := Prod.mk.inj heq
    exact ⟨x', hx', hdaemon'.trans hdaemon, hheld'.trans hheld⟩
  listens := by
    obtain ⟨d, hd, hlistens, hothers⟩ := h.listens
    obtain ⟨d', hd', hsame⟩ := daemon d hd
    exact ⟨d', hd', (hsame .work c).2 hlistens, fun e c' hc => hothers e c' ((hsame e c').1 hc)⟩
  gone := by
    intro c' hc
    obtain ⟨hheld, huses⟩ := isAlive_eq_false_iff.1 (h.gone c' hc)
    rw [isAlive_eq_false_iff, tasks]
    refine ⟨?_, huses⟩
    intro x' hx'
    have hsame := controllers c'
    rw [hx'] at hsame
    obtain ⟨x, hx, heq⟩ := Option.map_eq_some_iff.1 hsame.symm
    exact (Prod.mk.inj heq).2.symm.trans (hheld x hx)
  own := by
    rw [tasks]
    exact h.own
  ahead := by
    rw [tasks]
    exact h.ahead

/-- A task joins the queue that runs no pass of another and uses no controller that is gone. -/
theorem joined (h : InCharge c i gone ts fleet) {t : Task} (own : ∀ c', t = .pass c' → c' = c)
    (alive : ∀ c', Task.uses c' t = true → isAlive fleet c' = true) :
    InCharge c i gone ts { fleet with tasks := fleet.tasks ++ [t] } where
  held := h.held
  listens := h.listens
  gone := by
    intro c' hc
    obtain ⟨hheld, huses⟩ := isAlive_eq_false_iff.1 (h.gone c' hc)
    refine isAlive_eq_false_iff.2 ⟨hheld, ?_⟩
    intro t' ht'
    rcases List.mem_append.1 ht' with ht' | ht'
    · exact huses t' ht'
    · obtain rfl := List.mem_singleton.1 ht'
      apply Bool.eq_false_of_not_eq_true
      intro hu
      exact Bool.false_ne_true ((h.gone c' hc).symm.trans (alive c' hu))
  own := by
    intro c' hc
    rcases List.mem_append.1 hc with hc | hc
    · exact h.own c' hc
    · exact own c' (List.mem_singleton.1 hc).symm
  ahead := h.ahead.trans (List.prefix_append _ _)

theorem whole (h : InCharge c i gone ts fleet) : InCharge c i gone fleet.tasks fleet :=
  { h with ahead := List.prefix_rfl }

/-- The task at the head leaves the queue. -/
theorem tail {t : Task} (h : InCharge c i gone (t :: ts) fleet) :
    InCharge c i gone ts { fleet with tasks := fleet.tasks.tail } where
  held := h.held
  listens := h.listens
  gone := by
    intro c' hc
    obtain ⟨hheld, huses⟩ := isAlive_eq_false_iff.1 (h.gone c' hc)
    exact isAlive_eq_false_iff.2 ⟨hheld, fun t ht => huses t (List.mem_of_mem_tail ht)⟩
  own c' hc := h.own c' (List.mem_of_mem_tail hc)
  ahead := by
    obtain ⟨later, hlater⟩ := h.ahead
    rw [← hlater]
    exact List.prefix_append ts later

/-! ### What leaves it in charge -/

theorem keeps_elsewhere {f : Fleet → Fleet}
    (controllers : ∀ fleet, (f fleet).controllers = fleet.controllers)
    (daemons : ∀ fleet, (f fleet).daemons = fleet.daemons)
    (tasks : ∀ fleet, (f fleet).tasks = fleet.tasks) :
    Keeps (InCharge c i gone ts) (modify f : FleetM Unit) := by
  apply keeps_modify
  intro fleet h
  apply h.congr
  · intro c'
    rw [controllers]
  · intro d hd
    exact ⟨d, (congrArg (·[i]?) (daemons fleet)).trans hd, fun _ _ => Iff.rfl⟩
  · exact tasks fleet

theorem keeps_modifyDaemon {j : Nat} {f : Daemon → Daemon}
    (hf : ∀ d e c', .autorun c' ∈ (f d).listeners.get e ↔ .autorun c' ∈ d.listeners.get e) :
    Keeps (InCharge c i gone ts) (modifyDaemon j f) := by
  apply keeps_modify
  intro fleet h
  refine h.congr (fun _ => rfl) ?_ rfl
  intro d hd
  by_cases hj : j = i
  · exact ⟨f d, by simp [hj, hd], hf d⟩
  · exact ⟨d, by simp [hj, hd], fun _ _ => Iff.rfl⟩

theorem keeps_modifyController {c' : Nat} {f : Controller → Controller}
    (hf : ∀ x, (f x).post = x.post) :
    Keeps (InCharge c i gone ts) (modifyController c' f) := by
  apply keeps_modify
  intro fleet h
  refine h.congr ?_ (fun d hd => ⟨d, hd, fun _ _ => Iff.rfl⟩) rfl
  intro k
  by_cases hk : c' = k
  · cases hx : fleet.controllers[k]? <;> simp [hk, hx, hf]
  · simp [hk]

theorem keeps_daemon_bind {α : Type} {f : Daemon → FleetM α}
    (hf : ∀ d, (∀ e c', .autorun c' ∈ d.listeners.get e → c' = c ∨ gone c') →
      Keeps (InCharge c i gone ts) (f d)) : Keeps (InCharge c i gone ts) (daemon i >>= f) := by
  intro fleet h
  obtain ⟨d, hd, -, hothers⟩ := h.listens
  rw [leads_daemon_bind hd]
  exact hf d hothers fleet h

theorem keeps_controller_bind {α : Type} {f : Controller → FleetM α}
    (hf : ∀ x, x.daemon = i → Keeps (InCharge c i gone ts) (f x)) :
    Keeps (InCharge c i gone ts) (controller c >>= f) := by
  intro fleet h
  obtain ⟨x, hx, hdaemon, -⟩ := h.held
  rw [leads_bind, controller, leads_bind, leads_get, hx]
  exact (leads_pure _).2 (hf x hdaemon fleet h)

theorem keeps_wake_dispatch (j : Nat) (e : Entity) (slot : Nat) :
    Keeps (InCharge c i gone ts) (wake (.dispatch j e slot)) := by
  apply keeps_modify
  intro fleet h
  by_cases hmem : Task.dispatch j e slot ∈ fleet.tasks
  · rw [if_pos hmem]
    exact h
  · rw [if_neg hmem]
    apply h.joined
    · rintro _ ⟨⟩
    · rintro _ ⟨⟩

theorem keeps_callListener (j : Nat) (event : Event e.Rec) {l : Listener}
    (hl : ∀ c', l = .autorun c' → c' = c ∨ gone c') :
    Keeps (InCharge c i gone ts) (callListener j e event l) := by
  cases l with
  | journal =>
    apply (keeps_daemon j).bind
    intro d
    exact keeps_elsewhere (fun _ => rfl) (fun _ => rfl) fun _ => rfl
  | notifier slot =>
    apply Keeps.bind
    · exact keeps_modifyDaemon fun _ _ _ => Iff.rfl
    · intro _
      exact keeps_wake_dispatch j e slot
  | autorun c' =>
    intro fleet h
    rw [callListener, leads_bind, leads_get]
    by_cases ht : (triggers e event && isAlive fleet c') = true
    · rw [if_pos ht]
      obtain ⟨-, halive⟩ := Bool.and_eq_true_iff.1 ht
      have hours : c' = c := by
        rcases hl c' rfl with hc | hgone
        · exact hc
        · exact absurd ((h.gone c' hgone).symm.trans halive) Bool.false_ne_true
      apply (leads_modify _).2
      apply h.joined
      · rintro _ ⟨⟩
        exact hours
      · intro k hk
        obtain rfl := of_decide_eq_true hk
        exact halive
    · rw [if_neg ht]
      exact h
  | failOnce =>
    apply Keeps.bind
    · apply keeps_modifyDaemon
      intro d e' c'
      change _ ∈ (d.listeners.set e _).get e' ↔ _
      by_cases he : e' = e
      · subst he
        rw [PerEntity.get_set]
        apply List.mem_erase_of_ne
        rintro ⟨⟩
      · rw [PerEntity.get_set_of_ne _ _ he]
    · intro _
      exact keeps_throw _

theorem keeps_setStore (e : Entity) (s : Store e.Rec) : Keeps (InCharge c i gone ts)
    (modifyDaemon i fun d => { d with stores := d.stores.set e s }) :=
  keeps_modifyDaemon fun _ _ _ => Iff.rfl

theorem keeps_setHost (host : Host) : Keeps (InCharge c i gone ts)
    (modify fun fleet : Fleet => { fleet with host } : FleetM Unit) :=
  keeps_elsewhere (fun _ => rfl) (fun _ => rfl) fun _ => rfl

theorem keeps_announce (e : Entity) (cm : Store.Commit e.Rec) :
    Keeps (InCharge c i gone ts) (announce i e cm) := by
  apply (keeps_setStore e cm.store).bind
  intro _
  apply (keeps_setHost cm.host).bind
  intro _
  apply keeps_daemon_bind
  intro d hothers
  apply keeps_forM
  intro event _
  apply keeps_forM
  intro l hl
  apply keeps_callListener
  rintro c' rfl
  exact hothers e c' hl

theorem keeps_replace {α : Type} (desk : Store.Desk e.Rec) (x : α) :
    Keeps (InCharge c i gone ts) (replace i e desk x) :=
  Fleet.keeps_replace (keeps_setStore e desk.store) (keeps_setHost desk.host) x

theorem keeps_perform {α : Type} (e : Entity) (call : StoreM e.Rec α) :
    Keeps (InCharge c i gone ts) (perform i e call) :=
  keeps_perform_of (keeps_announce e) keeps_replace call

theorem asked (fleet : Fleet) (requests : List Request) (h : InCharge c i gone ts fleet) :
    InCharge c i gone ts { fleet with requests } :=
  h.congr (fun _ => rfl) (fun d hd => ⟨d, hd, fun _ _ => Iff.rfl⟩) rfl

/-! ### Passes -/

theorem keeps_onSessions {x : Controller} (hx : x.daemon = i) (r : Request) (context : String)
    (call : StoreM Session Session) :
    Keeps (InCharge c i gone ts) (onSessions x r context call) := by
  apply (keeps_consult asked x r).bind
  intro answer
  cases answer with
  | error chain => exact keeps_pure _
  | ok _ =>
    have hperform : Keeps (InCharge c i gone ts) (perform x.daemon .session call) :=
      hx ▸ keeps_perform .session call
    apply hperform.bind
    intro result
    cases result with
    | ok _ => exact keeps_pure _
    | error err => exact keeps_pure _

theorem keeps_release (c' : Nat) : Keeps (InCharge c i gone ts) (release c') :=
  keeps_modifyController fun _ => rfl

theorem keeps_finish (c' : Nat) (result : Except Failure Outcome) :
    Keeps (InCharge c i gone ts) (finish c' result) := by
  apply (keeps_release c').bind
  intro _
  exact keeps_pure _

theorem keeps_begin (x : Controller) : Keeps (InCharge c i gone ts) (begin c x) := by
  unfold begin
  split
  · exact keeps_pure _
  apply (keeps_daemon x.daemon).bind
  intro d
  split
  · exact keeps_pure _
  apply Keeps.bind
  · exact keeps_modifyController fun _ => rfl
  intro _
  apply Keeps.bind
  · apply keeps_modifyGet
    intro fleet h
    exact h.congr (fun _ => rfl) (fun d hd => ⟨d, hd, fun _ _ => Iff.rfl⟩) rfl
  intro _
  exact keeps_pure _

theorem keeps_startWork {x : Controller} (hx : x.daemon = i) (w : Work) (role : Role)
    (session : String) : Keeps (InCharge c i gone ts) (startWork x w role session) := by
  have hperform : Keeps (InCharge c i gone ts) (perform x.daemon .work (Work.start w.id session)) :=
    hx ▸ keeps_perform .work _
  apply hperform.bind
  intro result
  cases result with
  | error e => exact keeps_pure _
  | ok started =>
    apply (keeps_daemon x.daemon).bind
    intro d
    exact keeps_pure _

theorem keeps_step (s : Stage) : Keeps (InCharge c i gone ts) (step c s) := by
  apply keeps_controller_bind
  intro x hx
  cases s with
  | settings =>
    apply (keeps_isEnabled asked x).bind
    intro answer
    cases answer with
    | error chain => exact keeps_pure _
    | ok enabled =>
      cases enabled with
      | false => exact keeps_pure _
      | true =>
        apply keeps_controller_bind
        intro x _
        exact keeps_begin x
  | create w role session =>
    apply (keeps_onSessions hx _ _ _).bind
    intro answer
    cases answer with
    | error chain => exact keeps_finish c _
    | ok _ => exact keeps_pure _
  | retitle w role session =>
    apply (keeps_onSessions hx _ _ _).bind
    intro answer
    cases answer with
    | error chain => exact keeps_pure _
    | ok _ => exact keeps_startWork hx w role session
  | kickoff w session message options =>
    apply (keeps_consult asked x _).bind
    intro answer
    cases answer with
    | error chain => exact keeps_pure _
    | ok _ => exact keeps_finish c _
  | discard session failure =>
    have hdelete : Keeps (InCharge c i gone ts) (onSessions x (.deleteSession session)
        (sessionContext "delete" session) (deleteSession session)) := keeps_onSessions hx _ _ _
    intro fleet h
    rw [leads_bind, leads_discard]
    apply (hdelete fleet h).imp
    intro _ fleet₁ h₁
    exact keeps_finish c _ fleet₁ h₁
  | ended result => exact keeps_pure _

theorem keeps_guardedStep (s : Stage) : Keeps (InCharge c i gone ts) (guardedStep c s) := by
  apply (keeps_step s).tryCatch
  intro e
  apply (keeps_release c).bind
  intro _
  exact keeps_throw e

theorem keeps_runUntil (pause : Stage → Bool) (n : Nat) (s : Stage) :
    Keeps (InCharge c i gone ts) (runUntil c pause n s) := by
  induction n generalizing s with
  | zero => exact keeps_pure s
  | succ n ih =>
    have hgo : Keeps (InCharge c i gone ts)
        (if pause s then return s else do runUntil c pause n (← guardedStep c s)) := by
      split
      · exact keeps_pure s
      · exact (keeps_guardedStep s).bind ih
    cases s with
    | ended result => exact keeps_pure _
    | _ => exact hgo

/-- A pass leaves its controller in charge. -/
theorem keeps_startNext : Keeps (InCharge c i gone ts) (startNext c) := by
  apply (keeps_runUntil _ maxSteps .settings).bind
  intro s
  exact keeps_pure s.result

end InCharge

/-! ### Scheduling -/

/-- The controller is in charge, and one of its passes is to be run. -/
def Due (c i : Nat) (gone : Nat → Prop) (fleet : Fleet) : Prop :=
  ∃ ts, .pass c ∈ ts ∧ InCharge c i gone ts fleet

theorem Due.mem (h : Due c i gone fleet) : .pass c ∈ fleet.tasks := by
  obtain ⟨ts, hmem, hcharge⟩ := h
  exact hcharge.ahead.subset hmem

theorem keeps_due {α : Type} {a : FleetM α} (ha : ∀ ts, Keeps (InCharge c i gone ts) a) :
    Keeps (Due c i gone) a := by
  rintro fleet ⟨ts, hmem, h⟩
  apply (ha ts fleet h).mono
  · intro _ _ h'
    exact ⟨ts, hmem, h'⟩
  · intro _ _ h'
    exact ⟨ts, hmem, h'⟩

theorem Due.of_mem (hmem : .pass c ∈ fleet.tasks) (h : InCharge c i gone ts fleet) :
    Due c i gone fleet :=
  ⟨fleet.tasks, hmem, h.whole⟩

namespace InCharge

theorem secures_callListener {event : Event e.Rec} (h : InCharge c i gone ts fleet)
    (ht : triggers e event = true) :
    Secures (callListener i e event (.autorun c)) fleet fun _ fleet' => Due c i gone fleet' := by
  rw [Secures, callListener, leads_bind, leads_get, ht, h.alive]
  apply (leads_modify _).2
  have hjoined : InCharge c i gone ts { fleet with tasks := fleet.tasks ++ [.pass c] } := by
    apply h.joined
    · rintro _ ⟨⟩
      rfl
    · intro k hk
      obtain rfl := of_decide_eq_true hk
      exact h.alive
  exact .of_mem (List.mem_append_right _ List.mem_cons_self) hjoined

theorem secures_announce {cm : Store.Commit Work} {event : Event Work}
    (h : InCharge c i gone ts fleet) (hevent : event ∈ cm.events)
    (hfinishes : Event.finishesWork event = true) :
    Secures (announce i .work cm) fleet fun _ fleet' => Due c i gone fleet' := by
  rw [announce]
  apply (keeps_setStore .work cm.store fleet h).secures.bind
  intro _ fleet₁ h₁
  apply (keeps_setHost cm.host fleet₁ h₁).secures.bind
  intro _ fleet₂ h₂
  obtain ⟨d, hd, hlistens, hothers⟩ := h₂.listens
  rw [Secures, leads_daemon_bind hd]
  -- of all events this one puts the pass into the queue, and of all listeners ours
  have hone (ts : List Task) (event : Event Work) (l : Listener)
      (hl : l ∈ d.listeners.get .work) :
      Keeps (InCharge c i gone ts) (callListener i .work event l) := by
    apply keeps_callListener
    rintro c' rfl
    exact hothers .work c' hl
  have hall (ts : List Task) (event : Event Work) : Keeps (InCharge c i gone ts)
      ((d.listeners.get .work).forM (callListener i .work event)) :=
    keeps_forM fun l hl => hone ts event l hl
  apply leads_forM_of_mem (I := InCharge c i gone ts) hevent _ _ _ h₂
  · intro event _ fleet₃ h₃
    exact (hall ts event fleet₃ h₃).secures
  · intro fleet₃ h₃
    apply leads_forM_of_mem (I := InCharge c i gone ts) hlistens _ _ _ h₃
    · intro l hl fleet₄ h₄
      exact (hone ts event l hl fleet₄ h₄).secures
    · intro fleet₄ h₄
      exact h₄.secures_callListener hfinishes
    · intro l hl fleet₄ h₄
      exact (keeps_due (hone · event l hl) fleet₄ h₄).secures
  · intro event _ fleet₃ h₃
    exact (keeps_due (hall · event) fleet₃ h₃).secures

/-- A call that finishes an item puts a pass into the queue. -/
theorem secures_perform {α : Type} (h : InCharge c i gone ts fleet) (call : StoreM Work α)
    (hcall : ∀ d, fleet.daemons[i]? = some d →
      Leads call ⟨d.stores.work, fleet.host, []⟩
        (fun _ desk => ∃ cm ∈ desk.commits, ∃ event ∈ cm.events, Event.finishesWork event = true)
        (fun _ _ => False)) :
    Secures (perform i .work call) fleet fun _ fleet' => Due c i gone fleet' := by
  apply leads_perform_of fun _ => trivial
  intro d hd
  apply (hcall d hd).mono
  · rintro x desk ⟨cm, hcm, event, hevent, hfinishes⟩
    apply Leads.bind
    · apply leads_forM_of_mem (I := InCharge c i gone ts) (P := Due c i gone) hcm _ _ _ h
      · intro cm _ fleet₁ h₁
        exact (keeps_announce .work cm fleet₁ h₁).secures
      · intro fleet₁ h₁
        exact h₁.secures_announce hevent hfinishes
      · intro cm _ fleet₁ h₁
        exact (keeps_due (fun _ => keeps_announce .work cm) fleet₁ h₁).secures
    · intro _ fleet₁ h₁
      exact (keeps_due (fun _ => keeps_replace (e := .work) desk _) fleet₁ h₁).secures
  · intro _ _ hfalse
    exact hfalse.elim

end InCharge

end Fleet

end WorkQueue
