import WorkQueue.Proofs.Daemon.Calls
import WorkQueue.Proofs.Store.Added
import WorkQueue.Proofs.Work.Starting

/-!
# Passes as transactions

A pass that chooses no item leaves every store as it was and sends nothing. A pass that has chosen
one starts it, in a new session and with one message to that session, or it fails. The item is in
progress after a failure only if its message could not be sent, and a session is left over only if
it could not be deleted again: that call was refused outside, or the system refused to write. Every
pass gives the controller up again.
-/

namespace WorkQueue

open Autorun
open Record (Distinct)
open Store (Added Edit)

/-- The messages among the calls outside. -/
def Scene.messages (scene : Scene) : List Request := scene.asked.filter (·.isMessage)

namespace Site

/-! ### What a pass may come to -/

/-- The id of the session that a pass prepares. -/
def session (site : Site) : String := site.fleet.host.nextId

def autorunOn (site : Site) : Bool :=
  (if site.controller.asksOutside then site.daemon.outside.autorun else none).getD
    (Settings.autorunOn site.daemon.stores.settings)

/-- The item that is next: the first open one of the list, if none is in progress. -/
structure Next (site : Site) (w : Work) : Prop where
  idle : ∀ v ∈ site.daemon.stores.work.records, v.status ≠ .inProgress
  first : site.daemon.stores.work.list.find? (·.status = .open) = some w

/-- Why a pass chooses nothing. -/
inductive Declines (site : Site) : Except Failure Outcome → Prop where
  | settings {chain : Chain} (refused : site.answer .readSettings = .error chain) :
      Declines site (.error (.settings chain))
  | disabled (off : site.autorunOn = false) : Declines site (.ok .disabled)
  | busy (held : site.controller.processing = true) : Declines site (.ok .busy)
  | alreadyActive {v : Work} (found : v ∈ site.daemon.stores.work.records)
      (active : v.status = .inProgress) : Declines site (.ok .alreadyActive)
  | noOpenWork (started : ∀ v ∈ site.daemon.stores.work.records, v.status ≠ .open) :
      Declines site (.ok .noOpenWork)
  | missingRole {w : Work} (next : site.Next w) (missing : w.roleId = none) :
      Declines site (.error (.missingRole w.id))
  | unknownRole {w : Work} {id : String} (next : site.Next w) (refers : w.roleId = some id)
      (unknown : site.daemon.stores.role.get? id = none) :
      Declines site (.error (.unknownRole w.id id))

/-- The item and its role that a pass chooses. -/
structure Chosen (site : Site) (w : Work) (role : Role) : Prop where
  settings : site.answer .readSettings = .ok ()
  enabled : site.autorunOn = true
  free : site.controller.processing = false
  next : site.Next w
  role : ∃ id, w.roleId = some id ∧ site.daemon.stores.role.get? id = some role

/-- The item has moved to in progress, in its place and with the others as they were. -/
structure Moved (site : Site) (w started : Work) (scene : Scene) : Prop where
  value : ∃ t, started = w.startedAt t site.session
  edit : Edit site.daemon.stores.work.records scene.stores.work.records (.updated (some w) started)

/-- The first message to the session. -/
def kickoff (site : Site) (started : Work) (role : Role) (scene : Scene) : Request :=
  .kickoff site.session
    (kickoffMessage started ((started.parentId.bind scene.stores.work.get?).map (·.title)))
    (.kickoff role.prompt)

/-- Why the session for the item is not there, or has not its title. -/
inductive Unprepared (site : Site) (w : Work) : Chain → Prop where
  | createRefused {chain : Chain}
      (refused : site.answer (.createSession site.session) = .error chain) :
      Unprepared site w chain
  | createFailed {e : StoreError} {desk desk' : Store.Desk Session}
      (store : desk.store = site.daemon.stores.session)
      (run : createSession site.session desk = .error e desk') :
      Unprepared site w (sessionContext "create" site.session :: e.chain)
  | retitleRefused {chain : Chain}
      (refused : site.answer (.retitleSession site.session w.title) = .error chain) :
      Unprepared site w chain
  | retitleFailed {s : Session} {e : StoreError} {desk desk' : Store.Desk Session}
      (id : s.id = site.session) (added : Added site.daemon.stores.session s desk)
      (run : retitleSession site.session w.title desk = .error e desk') :
      Unprepared site w (sessionContext "retitle" site.session :: e.chain)

/-- Why the pass fails, and what has been done for the item by then. -/
inductive Failed (site : Site) (w : Work) (role : Role) (scene : Scene) : Failure → Prop where
  | session {chain : Chain} (why : site.Unprepared w chain)
      (works : scene.stores.work = site.daemon.stores.work) (silent : scene.messages = []) :
      Failed site w role scene (.session chain)
  | store {e : StoreError} {desk desk' : Store.Desk Work}
      (store : desk.store = site.daemon.stores.work)
      (run : Work.start w.id site.session desk = .error e desk')
      (works : scene.stores.work = site.daemon.stores.work) (silent : scene.messages = []) :
      Failed site w role scene (.store e)
  | kickoff {chain : Chain} {started : Work} (moved : site.Moved w started scene)
      (said : scene.messages = [site.kickoff started role scene])
      (refused : site.answer (site.kickoff started role scene) = .error chain) :
      Failed site w role scene (.kickoff chain)

/-- Why the session that was added for the item is still there. -/
inductive Undeleted (site : Site) (s : Session) (scene : Scene) : Prop where
  | refused {chain : Chain} (refused : site.answer (.deleteSession site.session) = .error chain) :
      Undeleted site s scene
  | failed {e : StoreError} {desk : Store.Desk Session}
      (added : Added site.daemon.stores.session s desk) (io : e.IsIo)
      (run : deleteSession site.session desk = .error e (scene.desk .session)) :
      Undeleted site s scene

/-- No session was added, unless it could not be deleted again. -/
def Cleared (site : Site) (scene : Scene) : Prop :=
  scene.stores.session.records = site.daemon.stores.session.records ∨
    ∃ s : Session, s.id = site.session ∧
      scene.stores.session.records = site.daemon.stores.session.records ++ [s] ∧
      site.Undeleted s scene

/-- What a pass that ends has done. -/
inductive Transacted (site : Site) (scene : Scene) : Except Failure Outcome → Prop where
  | declined {result : Except Failure Outcome} (why : site.Declines result)
      (stores : scene.stores = site.daemon.stores) (silent : scene.messages = []) :
      Transacted site scene result
  | started {w started : Work} {role : Role} {s : Session} (chosen : site.Chosen w role)
      (moved : site.Moved w started scene)
      (fresh : site.daemon.stores.session.get? site.session = none)
      (id : s.id = site.session) (title : s.title = w.title)
      (sessions : scene.stores.session.records = site.daemon.stores.session.records ++ [s])
      (said : scene.messages = [site.kickoff started role scene]) :
      Transacted site scene (.ok (.started w.id site.session))
  | failed {w : Work} {role : Role} {failure : Failure} (chosen : site.Chosen w role)
      (failed : site.Failed w role scene failure) (cleared : site.Cleared scene) :
      Transacted site scene (.error failure)

/-- The stores that a pass only reads, or does not use, are as they were. -/
structure KeepsOthers (site : Site) (scene : Scene) : Prop where
  role : scene.stores.role = site.daemon.stores.role
  command : scene.stores.command = site.daemon.stores.command
  settings : scene.stores.settings = site.daemon.stores.settings

theorem keepsOthers_of_stores_eq {site : Site} {scene : Scene}
    (h : scene.stores = site.daemon.stores) : site.KeepsOthers scene :=
  ⟨h ▸ rfl, h ▸ rfl, h ▸ rfl⟩

/-! ### Where a pass stands -/

/-- The session was added for the item. -/
structure Opened (site : Site) (s : Session) (scene : Scene) : Prop where
  id : s.id = site.session
  added : Added site.daemon.stores.session s (scene.desk .session)

/-- What holds before the call that a stage is about to make. -/
inductive Stands (site : Site) (scene : Scene) : Stage → Prop where
  | settings (start : scene = site.scene) : Stands site scene .settings
  | create {w : Work} {role : Role} (chosen : site.Chosen w role)
      (stores : scene.stores = site.daemon.stores) (silent : scene.messages = []) :
      Stands site scene (.create w role site.session)
  | retitle {w : Work} {role : Role} {s : Session} (chosen : site.Chosen w role)
      (others : site.KeepsOthers scene) (works : scene.stores.work = site.daemon.stores.work)
      (opened : site.Opened s scene) (silent : scene.messages = []) :
      Stands site scene (.retitle w role site.session)
  | kickoff {w started : Work} {role : Role} {s : Session} {message : String}
      {options : MessageOptions} (chosen : site.Chosen w role)
      (others : site.KeepsOthers scene) (moved : site.Moved w started scene)
      (opened : site.Opened s scene) (title : s.title = w.title) (silent : scene.messages = [])
      (first : .kickoff site.session message options = site.kickoff started role scene) :
      Stands site scene (.kickoff started site.session message options)
  | discard {w : Work} {role : Role} {failure : Failure} {s : Session}
      (chosen : site.Chosen w role) (others : site.KeepsOthers scene)
      (failed : site.Failed w role scene failure) (opened : site.Opened s scene) :
      Stands site scene (.discard site.session failure)
  | ended {result : Except Failure Outcome} (free : scene.processing = site.controller.processing)
      (others : site.KeepsOthers scene) (transacted : site.Transacted scene result) :
      Stands site scene (.ended result)

end Site

/-- How many calls may still follow. -/
def Autorun.Stage.ahead : Stage → Nat
  | settings => 5
  | create _ _ _ => 4
  | retitle _ _ _ => 3
  | kickoff _ _ _ _ => 2
  | discard _ _ => 1
  | ended _ => 0

namespace Site

variable {site : Site} {scene : Scene} {fleet : Fleet} {w : Work} {role : Role}

/-- A pass has come to a stage, with fewer than so many calls ahead. -/
def Reaches (site : Site) (n : Nat) (s : Stage) (fleet : Fleet) : Prop :=
  s.ahead < n ∧ ∃ scene, site.Shows scene fleet ∧ site.Stands scene s

/-- A listener has interrupted a pass, which has given the controller up. -/
structure Released (site : Site) (fleet : Fleet) : Prop where
  listener : ∃ e, .failOnce ∈ site.daemon.listeners.get e
  controllers : fleet.controllers = site.fleet.controllers

theorem messages_noted (site : Site) (r : Request) (scene : Scene) :
    (site.noted r scene).messages = scene.messages ++ if r.isMessage then [r] else [] := by
  unfold Scene.messages noted asks
  rw [List.filter_append]
  cases hr : r.isMessage <;> cases site.controller.asksOutside <;> simp [hr]

/-! ### Choosing -/

theorem mem_list {s : Store Work} {v : Work} : v ∈ s.list ↔ v ∈ s.records :=
  (LawfulRecord.order_perm s.records).mem_iff

theorem Next.mem (h : site.Next w) : w ∈ site.daemon.stores.work.records :=
  mem_list.1 (List.mem_of_find?_eq_some h.first)

theorem choose_cases (site : Site) :
    (∃ result, choose site.daemon.stores.work site.daemon.stores.role = .error result ∧
      site.Declines result) ∨
    ∃ w role, choose site.daemon.stores.work site.daemon.stores.role = .ok (w, role) ∧
      site.Next w ∧ ∃ id, w.roleId = some id ∧ site.daemon.stores.role.get? id = some role := by
  unfold choose
  by_cases hactive : site.daemon.stores.work.list.any (·.status = .inProgress) = true
  · obtain ⟨v, hv, hstatus⟩ := List.any_eq_true.1 hactive
    exact Or.inl ⟨_, if_pos hactive, .alreadyActive (mem_list.1 hv) (of_decide_eq_true hstatus)⟩
  · have hidle : ∀ v ∈ site.daemon.stores.work.records, v.status ≠ .inProgress := by
      intro v hv hstatus
      exact hactive (List.any_eq_true.2 ⟨v, mem_list.2 hv, decide_eq_true hstatus⟩)
    simp only [if_neg hactive]
    cases hfirst : site.daemon.stores.work.list.find? (·.status = .open) with
    | none =>
      refine Or.inl ⟨_, rfl, .noOpenWork ?_⟩
      intro v hv hstatus
      exact List.find?_eq_none.1 hfirst v (mem_list.2 hv) (decide_eq_true hstatus)
    | some w =>
      have hnext : site.Next w := ⟨hidle, hfirst⟩
      cases hrefers : w.roleId with
      | none => exact Or.inl ⟨_, by simp only [hrefers], .missingRole hnext hrefers⟩
      | some id =>
        cases hrole : site.daemon.stores.role.get? id with
        | none => exact Or.inl ⟨_, by simp only [hrefers, hrole], .unknownRole hnext hrefers hrole⟩
        | some role =>
          exact Or.inr ⟨w, role, by simp only [hrefers, hrole], hnext, id, hrefers, hrole⟩

/-! ### What each call does -/

theorem leads_isEnabled {failed : Interrupted → Fleet → Prop} (h : site.Shows scene fleet)
    (processing : Bool) (hs : scene.stores.settings = site.daemon.stores.settings) :
    Leads (isEnabled { site.controller with processing }) fleet (fun result fleet' =>
      result = (site.answer .readSettings).map (fun _ => site.autorunOn) ∧
        site.Shows (site.noted .readSettings scene) fleet') failed := by
  unfold isEnabled
  apply (leads_consult h processing .readSettings).bind
  rintro result fleet₁ ⟨rfl, h₁⟩
  cases site.answer .readSettings with
  | error chain => exact (leads_pure _).2 ⟨rfl, h₁⟩
  | ok _ =>
    apply (leads_daemon h₁).bind
    rintro d fleet₂ ⟨rfl, notifiers, rfl⟩
    refine (leads_pure _).2 ⟨?_, h₁⟩
    change Except.ok _ = Except.ok _
    rw [autorunOn, ← hs]
    rfl

theorem leads_finish {failed : Interrupted → Fleet → Prop} {n : Nat} (hn : 0 < n)
    {result : Except Failure Outcome} (h : site.Shows scene fleet)
    (free : site.controller.processing = false) (others : site.KeepsOthers scene)
    (transacted : site.Transacted { scene with processing := false } result) :
    Leads (finish site.number result) fleet (fun s fleet' => site.Reaches n s fleet') failed := by
  unfold finish release
  apply (leads_modifyController h false).bind
  intro _ fleet₁ h₁
  have hothers : site.KeepsOthers { scene with processing := false } :=
    ⟨others.role, others.command, others.settings⟩
  exact (leads_pure _).2 ⟨hn, _, h₁, .ended free.symm hothers transacted⟩

theorem leads_begin {failed : Interrupted → Fleet → Prop} (h : site.Shows scene fleet)
    (settings : site.answer .readSettings = .ok ()) (enabled : site.autorunOn = true)
    (stores : scene.stores = site.daemon.stores) (host : scene.host = site.fleet.host)
    (hp : scene.processing = site.controller.processing) (silent : scene.messages = []) :
    Leads (begin site.number { site.controller with processing := scene.processing }) fleet
      (fun s fleet' => site.Reaches 5 s fleet') failed := by
  have hdeclined {result : Except Failure Outcome} (why : site.Declines result) :
      site.Reaches 5 (.ended result) fleet :=
    ⟨Nat.succ_pos 4, scene, h,
      .ended hp (keepsOthers_of_stores_eq stores) (.declined why stores silent)⟩
  -- nothing has changed the stores since the pass began, so the choice is made on them
  unfold begin
  by_cases hbusy : scene.processing = true
  · rw [if_pos hbusy]
    exact (leads_pure _).2 (hdeclined (.busy (hp ▸ hbusy)))
  have free : site.controller.processing = false := by
    rw [← hp]
    exact Bool.eq_false_of_not_eq_true hbusy
  rw [if_neg hbusy]
  apply (leads_daemon h).bind
  rintro d fleet₁ ⟨rfl, notifiers, rfl⟩
  have hchoose : choose (site.daemonWith scene.stores notifiers).stores.work
      (site.daemonWith scene.stores notifiers).stores.role =
    choose site.daemon.stores.work site.daemon.stores.role := by rw [← stores]; rfl
  rw [hchoose]
  rcases site.choose_cases with ⟨result, hresult, why⟩ | ⟨w, role, hresult, next, hrole⟩
  · rw [hresult]
    exact (leads_pure _).2 (hdeclined why)
  · rw [hresult]
    apply (leads_modifyController h true).bind
    intro _ fleet₂ h₂
    rw [leads_bind, newSession, leads_modifyGet]
    have hid : fleet₂.host.nextId = site.session := by
      rw [h₂.host]
      exact congrArg Host.nextId host
    refine (leads_pure _).2 ⟨Nat.lt_succ_self 4, { scene with
      processing := true, host := scene.host.afterId }, ?_, ?_⟩
    · exact ⟨h₂.daemons, congrArg Host.afterId h₂.host, h₂.requests, h₂.controllers⟩
    · rw [hid]
      exact .create ⟨settings, enabled, free, next, hrole⟩ stores silent

theorem leads_step_settings {failed : Interrupted → Fleet → Prop}
    (h : site.Shows site.scene fleet) : Leads (step site.number .settings) fleet
      (fun s fleet' => site.Reaches 5 s fleet') failed := by
  have hsilent : (site.noted .readSettings site.scene).messages = [] := by
    rw [messages_noted]
    rfl
  have hdeclined {fleet₁ : Fleet} {result : Except Failure Outcome}
      (h₁ : site.Shows (site.noted .readSettings site.scene) fleet₁)
      (why : site.Declines result) : site.Reaches 5 (.ended result) fleet₁ :=
    ⟨Nat.succ_pos 4, _, h₁, .ended rfl (keepsOthers_of_stores_eq rfl) (.declined why rfl hsilent)⟩
  rw [step]
  apply (leads_controller h).bind
  rintro x fleet₁ ⟨rfl, rfl⟩
  apply (leads_isEnabled h _ rfl).bind
  rintro result fleet₂ ⟨rfl, h₂⟩
  cases hsettings : site.answer .readSettings with
  | error chain => exact (leads_pure _).2 (hdeclined h₂ (.settings hsettings))
  | ok _ =>
    cases henabled : site.autorunOn with
    | false => exact (leads_pure _).2 (hdeclined h₂ (.disabled henabled))
    | true =>
      apply (leads_controller h₂).bind
      rintro x fleet₃ ⟨rfl, rfl⟩
      exact leads_begin h₂ hsettings henabled rfl rfl rfl hsilent

section Called

variable {scene' : Scene} {r : Request} {context : String} {done : Store.Desk Session → Prop}
  {failed : StoreError → Store.Desk Session → Prop} {result : Except Chain Unit}

theorem Called.works (h : site.Called scene r context done failed result scene') :
    scene'.stores.work = scene.stores.work := by
  cases h <;> rfl

theorem Called.others (h : site.Called scene r context done failed result scene')
    (others : site.KeepsOthers scene) : site.KeepsOthers scene' := by
  cases h <;> exact ⟨others.role, others.command, others.settings⟩

theorem Called.messages (h : site.Called scene r context done failed result scene')
    (hr : r.isMessage = false) : scene'.messages = scene.messages := by
  have hnoted : (site.noted r scene).messages = scene.messages := by
    rw [messages_noted, hr]
    exact List.append_nil _
  rw [← hnoted]
  cases h <;> rfl

end Called

theorem Opened.moved_session {s : Session} {desk : Store.Desk Session}
    (added : Added site.daemon.stores.session s desk) (id : s.id = site.session) :
    site.Opened s (scene.moved .session desk.store desk.host) :=
  ⟨id, added.fresh, added.records⟩

theorem leads_step_create (h : site.Shows scene fleet) (chosen : site.Chosen w role)
    (stores : scene.stores = site.daemon.stores) (silent : scene.messages = []) :
    Leads (step site.number (.create w role site.session)) fleet
      (fun s fleet' => site.Reaches 4 s fleet') (fun _ fleet' => site.Breaks fleet') := by
  have hcall : Leads (createSession site.session) (scene.desk .session)
      (fun _ desk => ∃ s : Session, s.id = site.session ∧ Added scene.stores.session s desk)
      (fun e desk => createSession site.session (scene.desk .session) = .error e desk ∧
        desk.store = scene.stores.session) := by
    apply ((leads_self _ _).and (Store.leads_create_added (R := Session) site.session _)).mono
    · rintro s desk ⟨-, ⟨t, rfl⟩, hadded⟩
      exact ⟨_, rfl, hadded⟩
    · rintro e desk ⟨hrun, hidle⟩
      exact ⟨hrun, hidle.store⟩
  rw [step]
  apply (leads_controller h).bind
  rintro x fleet₁ ⟨rfl, rfl⟩
  apply (leads_onSessions h _ _ _ hcall).bind
  rintro result fleet₂ ⟨scene', h₂, hcalled⟩
  have hothers := hcalled.others (keepsOthers_of_stores_eq stores)
  have hsilent := (hcalled.messages rfl).trans silent
  have hworks : scene'.stores.work = site.daemon.stores.work :=
    hcalled.works.trans (congrArg PerEntity.work stores)
  have hsessions := congrArg PerEntity.session stores
  cases hcalled with
  | refused outside =>
    exact leads_finish (Nat.succ_pos 3) h₂ chosen.free hothers
      (.failed chosen (.session (.createRefused outside) hworks hsilent)
        (Or.inl (congrArg Store.records hsessions)))
  | made result =>
    obtain ⟨s, id, added⟩ := result
    rw [hsessions] at added
    refine (leads_pure _).2 ⟨Nat.lt_succ_self 3, _, h₂, ?_⟩
    exact .retitle chosen hothers hworks (Opened.moved_session added id) hsilent
  | failed result =>
    obtain ⟨run, same⟩ := result
    exact leads_finish (Nat.succ_pos 3) h₂ chosen.free hothers
      (.failed chosen (.session (.createFailed hsessions run) hworks hsilent)
        (Or.inl (congrArg Store.records (same.trans hsessions))))

theorem Opened.moved_work {s : Session} (h : site.Opened s scene) (desk : Store.Desk Work) :
    site.Opened s (scene.moved .work desk.store desk.host) :=
  ⟨h.id, h.added.fresh, h.added.records⟩

theorem leads_step_kickoff {failed : Interrupted → Fleet → Prop} {started : Work} {s : Session}
    {message : String} {options : MessageOptions} (h : site.Shows scene fleet)
    (chosen : site.Chosen w role) (others : site.KeepsOthers scene)
    (moved : site.Moved w started scene) (opened : site.Opened s scene)
    (title : s.title = w.title) (silent : scene.messages = [])
    (first : .kickoff site.session message options = site.kickoff started role scene) :
    Leads (step site.number (.kickoff started site.session message options)) fleet
      (fun s fleet' => site.Reaches 2 s fleet') failed := by
  have hsaid : (site.noted (site.kickoff started role scene) scene).messages =
      [site.kickoff started role scene] := by
    rw [messages_noted, silent]
    rfl
  have hothers : site.KeepsOthers (site.noted (site.kickoff started role scene) scene) :=
    ⟨others.role, others.command, others.settings⟩
  have hid : started.id = w.id := by
    obtain ⟨t, ht⟩ := moved.value
    rw [ht]
    rfl
  rw [step]
  apply (leads_controller h).bind
  rintro x fleet₁ ⟨rfl, rfl⟩
  apply (leads_consult h _ _).bind
  rintro result fleet₂ ⟨rfl, h₂⟩
  rw [first] at h₂ ⊢
  cases hanswer : site.answer (site.kickoff started role scene) with
  | error chain =>
    refine (leads_pure _).2 ⟨Nat.lt_succ_self 1, _, h₂, ?_⟩
    exact .discard chosen hothers (.kickoff ⟨moved.value, moved.edit⟩ hsaid hanswer)
      ⟨opened.id, opened.added.fresh, opened.added.records⟩
  | ok _ =>
    rw [hid]
    exact leads_finish (Nat.succ_pos 1) h₂ chosen.free hothers
      (.started chosen ⟨moved.value, moved.edit⟩ (opened.id ▸ opened.added.fresh) opened.id title
        opened.added.records hsaid)

theorem Failed.congr {scene' : Scene} {failure : Failure} (h : site.Failed w role scene failure)
    (works : scene'.stores.work = scene.stores.work) (messages : scene'.messages = scene.messages) :
    site.Failed w role scene' failure := by
  cases h with
  | session why same silent => exact .session why (works.trans same) (messages.trans silent)
  | store store run same silent =>
    exact .store store run (works.trans same) (messages.trans silent)
  | @kickoff _ started moved said refused =>
    have hkickoff : site.kickoff started role scene' = site.kickoff started role scene := by
      simp only [Site.kickoff, works]
    rw [← hkickoff] at said refused
    exact .kickoff ⟨moved.value, works ▸ moved.edit⟩ (messages.trans said) refused

theorem leads_step_discard {failure : Failure} {s : Session} (h : site.Shows scene fleet)
    (chosen : site.Chosen w role) (others : site.KeepsOthers scene)
    (failed : site.Failed w role scene failure) (opened : site.Opened s scene) :
    Leads (step site.number (.discard site.session failure)) fleet
      (fun s fleet' => site.Reaches 1 s fleet') (fun _ fleet' => site.Breaks fleet') := by
  have hcall : Leads (deleteSession site.session) (scene.desk .session)
      (fun _ desk => desk.store.records = site.daemon.stores.session.records)
      (fun e desk => deleteSession site.session (scene.desk .session) = .error e desk ∧
        e.IsIo ∧ Store.Idle (scene.desk .session) desk) := by
    have hdelete := Store.leads_delete_added opened.added
    have hid : Record.id s = site.session := opened.id
    rw [hid] at hdelete
    apply ((leads_self _ _).and hdelete).mono
    · rintro _ desk ⟨-, hrecords⟩
      exact hrecords
    · intro e desk hfailed
      exact hfailed
  rw [step]
  apply (leads_controller h).bind
  rintro x fleet₁ ⟨rfl, rfl⟩
  rw [leads_bind, leads_discard]
  apply (leads_onSessions h _ _ _ hcall).imp
  rintro result fleet₂ ⟨scene', h₂, hcalled⟩
  have hfailed : site.Failed w role { scene' with processing := false } failure :=
    failed.congr hcalled.works (hcalled.messages rfl)
  have hcleared : site.Cleared { scene' with processing := false } := by
    cases hcalled with
    | refused outside => exact Or.inr ⟨s, opened.id, opened.added.records, .refused outside⟩
    | made result => exact Or.inl result
    | @failed e desk result =>
      obtain ⟨run, io, hidle⟩ := result
      have hcommits : desk.commits = [] := hidle.commits
      have hdesk : desk = ⟨desk.store, desk.host, []⟩ := by rw [← hcommits]
      rw [hdesk] at run
      have hadded := opened.added.idle hidle
      exact Or.inr ⟨s, opened.id, hadded.records, .failed opened.added io run⟩
  exact leads_finish Nat.one_pos h₂ chosen.free (hcalled.others others)
    (.failed chosen hfailed hcleared)

section Working

variable (distinct : Distinct site.daemon.stores.work.records) (named : site.session ≠ "")

include distinct named

theorem leads_startWork {s : Session} (h : site.Shows scene fleet) (processing : Bool)
    (chosen : site.Chosen w role) (others : site.KeepsOthers scene)
    (works : scene.stores.work = site.daemon.stores.work) (opened : site.Opened s scene)
    (title : s.title = w.title) (silent : scene.messages = []) :
    Leads (startWork { site.controller with processing } w role site.session) fleet
      (fun s fleet' => site.Reaches 3 s fleet') (fun _ fleet' => site.Breaks fleet') := by
  have hcall : Leads (Work.start w.id site.session) (scene.desk .work)
      (fun started desk => site.Moved w started (scene.moved .work desk.store desk.host) ∧
        site.Opened s (scene.moved .work desk.store desk.host))
      (fun e desk => Work.start w.id site.session (scene.desk .work) = .error e desk ∧
        desk.store = site.daemon.stores.work ∧
        site.Opened s (scene.moved .work desk.store desk.host)) := by
    have hworks : (scene.desk .work).store = site.daemon.stores.work := works
    have hmem := chosen.next.mem
    rw [← hworks] at distinct hmem
    apply ((leads_self _ _).and (Work.leads_start distinct hmem named)).mono
    · rintro started desk ⟨-, value, changed⟩
      refine ⟨⟨value, ?_⟩, opened.moved_work desk⟩
      rw [← works]
      exact changed.edit
    · rintro e desk ⟨hrun, hidle⟩
      exact ⟨hrun, hidle.store.trans works, opened.moved_work desk⟩
  unfold startWork
  apply (leads_perform (e := .work) h hcall).bind
  rintro result fleet₁ ⟨desk, h₁, hresult⟩
  have hothers : site.KeepsOthers (scene.moved .work desk.store desk.host) :=
    ⟨others.role, others.command, others.settings⟩
  rcases hresult with ⟨started, rfl, moved, hopened⟩ | ⟨e, rfl, hrun, hsame, hopened⟩
  · apply (leads_daemon h₁).bind
    rintro d fleet₂ ⟨rfl, notifiers, rfl⟩
    refine (leads_pure _).2 ⟨Nat.lt_succ_self 2, _, h₁, ?_⟩
    exact .kickoff chosen hothers moved hopened title silent rfl
  · refine (leads_pure _).2 ⟨Nat.lt_of_succ_lt (Nat.lt_succ_self 2), _, h₁, ?_⟩
    exact .discard chosen hothers (.store works hrun hsame silent) hopened

theorem leads_step_retitle {s : Session} (h : site.Shows scene fleet) (chosen : site.Chosen w role)
    (others : site.KeepsOthers scene) (works : scene.stores.work = site.daemon.stores.work)
    (opened : site.Opened s scene) (silent : scene.messages = []) :
    Leads (step site.number (.retitle w role site.session)) fleet
      (fun s fleet' => site.Reaches 3 s fleet') (fun _ fleet' => site.Breaks fleet') := by
  have hcall : Leads (retitleSession site.session w.title) (scene.desk .session)
      (fun _ desk => ∃ s' : Session, Added site.daemon.stores.session s' desk ∧
        s'.id = site.session ∧ s'.title = w.title)
      (fun e desk => retitleSession site.session w.title (scene.desk .session) = .error e desk ∧
        Added site.daemon.stores.session s desk) := by
    rw [← opened.id]
    have hupdate := Store.leads_updateWith_added ({ title := some w.title } : Session.Patch)
      (fun _ _ => .ok ()) opened.added
    apply ((leads_self _ _).and hupdate).mono
    · rintro s' desk ⟨-, ⟨patched, t, hpatch, rfl⟩, hadded⟩
      obtain rfl := Except.ok.inj hpatch
      exact ⟨_, hadded, rfl, rfl⟩
    · intro e desk hfailed
      exact hfailed
  rw [step]
  apply (leads_controller h).bind
  rintro x fleet₁ ⟨rfl, rfl⟩
  apply (leads_onSessions h _ _ _ hcall).bind
  rintro result fleet₂ ⟨scene', h₂, hcalled⟩
  have hothers := hcalled.others others
  have hsilent := (hcalled.messages rfl).trans silent
  cases hcalled with
  | refused outside =>
    refine (leads_pure _).2 ⟨Nat.lt_of_succ_lt (Nat.lt_succ_self 2), _, h₂, ?_⟩
    exact .discard chosen hothers (.session (.retitleRefused outside) works hsilent)
      ⟨opened.id, opened.added⟩
  | made result =>
    obtain ⟨s', added, id, title⟩ := result
    exact leads_startWork distinct named h₂ _ chosen hothers works
      (Opened.moved_session added id) title hsilent
  | failed result =>
    refine (leads_pure _).2 ⟨Nat.lt_of_succ_lt (Nat.lt_succ_self 2), _, h₂, ?_⟩
    obtain ⟨run, added⟩ := result
    exact .discard chosen hothers
      (.session (.retitleFailed opened.id opened.added run) works hsilent)
      (Opened.moved_session added opened.id)

/-! ### The whole pass -/

/-- A pass comes from where it stands one call further, or a listener interrupts it while it holds
the controller. -/
theorem leads_step {s : Stage} (h : site.Shows scene fleet) (stands : site.Stands scene s)
    (hs : 0 < s.ahead) :
    Leads (step site.number s) fleet (fun s' fleet' => site.Reaches s.ahead s' fleet')
      (fun _ fleet' => site.controller.processing = false ∧ site.Breaks fleet') := by
  have hfree {s : Stage} {n : Nat} (free : site.controller.processing = false)
      (hstep : Leads (step site.number s) fleet (fun s' fleet' => site.Reaches n s' fleet')
        (fun _ fleet' => site.Breaks fleet')) :
      Leads (step site.number s) fleet (fun s' fleet' => site.Reaches n s' fleet')
        (fun _ fleet' => site.controller.processing = false ∧ site.Breaks fleet') := by
    apply hstep.mono
    · intro _ _ h
      exact h
    · intro _ _ hbreaks
      exact ⟨free, hbreaks⟩
  cases stands with
  | settings start => exact leads_step_settings (start ▸ h)
  | create chosen stores silent =>
    exact hfree chosen.free (leads_step_create h chosen stores silent)
  | retitle chosen others works opened silent =>
    exact hfree chosen.free
      (leads_step_retitle distinct named h chosen others works opened silent)
  | kickoff chosen others moved opened title silent first =>
    exact leads_step_kickoff h chosen others moved opened title silent first
  | discard chosen others failed opened =>
    exact hfree chosen.free (leads_step_discard h chosen others failed opened)
  | ended free others transacted => exact absurd hs (Nat.lt_irrefl 0)

theorem leads_guardedStep {s : Stage} (h : site.Shows scene fleet) (stands : site.Stands scene s)
    (hs : 0 < s.ahead) :
    Leads (guardedStep site.number s) fleet (fun s' fleet' => site.Reaches s.ahead s' fleet')
      (fun _ fleet' => site.Released fleet') := by
  rw [guardedStep, leads_tryCatch]
  apply (leads_step distinct named h stands hs).mono
  · intro _ _ h
    exact h
  · rintro _ fleet₁ ⟨free, hlistener, processing, hcontrollers⟩
    rw [release, Fleet.modifyController, leads_bind, leads_modify]
    refine (leads_throw _).2 ⟨hlistener, ?_⟩
    change fleet₁.controllers.modify site.number _ = _
    rw [hcontrollers, modify_controllersWith, ← site.controllersWith_self, free]

/-- From where it stands a pass goes on to its end, or a listener interrupts it. -/
theorem leads_runUntil {n : Nat} {s : Stage} (h : site.Shows scene fleet)
    (stands : site.Stands scene s) (hn : s.ahead ≤ n) :
    Leads (runUntil site.number (fun _ => false) n s) fleet
      (fun s' fleet' => site.Reaches 1 s' fleet') (fun _ fleet' => site.Released fleet') := by
  -- every call leaves fewer ahead, and as many steps as there are calls ahead are enough
  induction n generalizing s scene fleet with
  | zero =>
    cases s with
    | ended result => exact (leads_pure _).2 ⟨Nat.one_pos, scene, h, stands⟩
    | _ => cases hn
  | succ n ih =>
    have hgo (hs : 0 < s.ahead) : Leads (do
          runUntil site.number (fun _ => false) n (← guardedStep site.number s)) fleet
        (fun s' fleet' => site.Reaches 1 s' fleet') (fun _ fleet' => site.Released fleet') := by
      apply (leads_guardedStep distinct named h stands hs).bind
      rintro s' fleet₁ ⟨hahead, scene', h₁, stands'⟩
      exact ih h₁ stands' (by omega)
    cases s with
    | ended result => exact (leads_pure _).2 ⟨Nat.one_pos, scene, h, stands⟩
    | settings => exact hgo (Nat.succ_pos 4)
    | create => exact hgo (Nat.succ_pos 3)
    | retitle => exact hgo (Nat.succ_pos 2)
    | kickoff => exact hgo (Nat.succ_pos 1)
    | discard => exact hgo Nat.one_pos

end Working

/-- A pass with nothing in between is a transaction on the stores, whatever the calls that it makes
answer. It gives the controller up again, also where a listener interrupts it. -/
theorem pass_transacts (site : Site) (distinct : Distinct site.daemon.stores.work.records)
    (named : site.session ≠ "") :
    Leads (startNext site.number) site.fleet
      (fun result fleet' => fleet'.controllers = site.fleet.controllers ∧
        ∃ scene, site.Shows scene fleet' ∧ site.KeepsOthers scene ∧ site.Transacted scene result)
      (fun _ fleet' => site.Released fleet') := by
  have hrun := leads_runUntil (n := maxSteps) distinct named site.shows_scene
    (.settings rfl) (Nat.le_refl 5)
  rw [startNext, resume]
  apply hrun.bind
  rintro s fleet' ⟨hahead, scene, h, stands⟩
  cases stands with
  | ended free others transacted =>
    refine (leads_pure _).2 ⟨?_, scene, h, others, transacted⟩
    rw [h.controllers, free, site.controllersWith_self]
  | _ => cases Nat.lt_one_iff.1 hahead

/-- The message is refused: the item stays in progress, and its session is gone. -/
theorem pass_transacts_unsent : ∃ (site : Site) (fleet : Fleet) (scene : Scene) (w : Work),
    startNext site.number site.fleet = .ok (.error (.kickoff ["down"])) fleet ∧
    site.Shows scene fleet ∧ site.daemon.stores.work.records = [w] ∧ w.status = .open ∧
    (∃ t, scene.stores.work.records = [w.startedAt t "s"]) ∧ scene.stores.session.records = [] ∧
    fleet.controllers = site.fleet.controllers := by
  let data : Location := ⟨["data"], "/data"⟩
  let w : Work := ⟨"w", .task, none, "w", "", .open, some "r", none, .zero, .epoch, .epoch⟩
  let r : Role := ⟨"r", "r", "", .epoch, .epoch⟩
  let stores : PerEntity fun e => Store e.Rec := {
    work := { index := .ofData Work data, records := [w], digest := none }
    role := { index := .ofData Role data, records := [r], digest := none }
    command := { index := .ofData Snippet data, records := [], digest := none }
    session := { index := .ofData Session data, records := [], digest := none }
    settings := { index := .ofData Settings data, records := [], digest := none } }
  let d : Daemon := {
    name := "d"
    data, stores
    outside := { autorun := some true, refusals := [("chat.kickoff", ["down"])] } }
  let c : Controller := { daemon := 0, asksOutside := true, continueMessage := "" }
  let site : Site := {
    fleet := {
      host := { ids := fun _ => "s", times := fun _ => .epoch }
      daemons := [d]
      controllers := [c] }
    number := 0
    controller := c
    daemon := d
    controller_eq := rfl
    daemon_eq := rfl }
  have hrefused : (Store.done? (startNext site.number site.fleet)).map (fun a =>
      ((match a.1 with
        | .error (.kickoff chain) => chain
        | _ => []), (a.2.daemons.map (·.stores.session.records)))) = some (["down"], [[]]) := by
    decide +kernel
  have hruns : ∃ fleet, startNext site.number site.fleet = .ok (.error (.kickoff ["down"])) fleet ∧
      fleet.daemons.map (·.stores.session.records) = [[]] := by
    simp only [Option.map_eq_some_iff, Prod.exists, Prod.mk.injEq, Store.done?_eq_some] at hrefused
    obtain ⟨result, fleet, hrun, hresult, hsessions⟩ := hrefused
    split at hresult
    · exact ⟨fleet, hresult ▸ hrun, hsessions⟩
    · cases hresult
  obtain ⟨fleet, hrun, hsessions⟩ := hruns
  have hdistinct : Distinct site.daemon.stores.work.records := by decide
  obtain ⟨hcontrollers, scene, hshows, -, htransacted⟩ :=
    (pass_transacts site hdistinct (by decide)).of_ok hrun
  cases htransacted with
  | declined why => cases why
  | failed chosen failed _ =>
    cases failed with
    | kickoff moved said refused =>
      obtain ⟨t, rfl⟩ := moved.value
      have hmem := List.mem_singleton.1 chosen.next.mem
      have hworks := moved.edit.eq_map hdistinct
      subst hmem
      refine ⟨site, fleet, scene, w, hrun, hshows, rfl, rfl, ⟨t, hworks⟩, ?_, hcontrollers⟩
      obtain ⟨notifiers, hdaemons⟩ := hshows.daemons
      rw [hdaemons] at hsessions
      exact (List.cons.inj hsessions).1

end Site

end WorkQueue
