import WorkQueue.Proofs.Daemon.Pass
import WorkQueue.Proofs.Store.Unseen
import WorkQueue.Proofs.Work.Agenda

/-!
# Passes that nothing refuses

Where collaborators refuse nothing, indexes can be written and ids are new, a pass with nothing in
progress starts the first item of the agenda. What it needs for that is left as it was, so that a
pass after it finds the same.
-/

namespace WorkQueue

open Autorun
open Record (Distinct)
open Store (Added Held Supplied)
open Work (AtRest AtWork Quiet agenda activeCount)

/-- The id does not come up again. -/
def Host.Spent (host : Host) (id : String) : Prop := ∀ n, host.minted ≤ n → id ≠ host.ids n

/-- The items and the sessions can be written, and no session has an id that is still to come. -/
structure Serviced (data : Location) (stores : PerEntity fun e => Store e.Rec) (host : Host) :
    Prop where
  work : stores.work.index = Index.ofData Work data
  session : stores.session.index = Index.ofData Session data
  workWritable : (Index.ofData Work data).Writable host.disk
  sessionWritable : (Index.ofData Session data).Writable host.disk
  injective : Function.Injective host.ids
  named : ∀ n, host.minted ≤ n → host.ids n ≠ ""
  spent : ∀ s ∈ stores.session.records, host.Spent s.id

/-! ### Calls on sessions -/

section Sessions

variable {s : Store Session} {host : Host} {id : String}

/-- What a call keeps that takes no id. -/
theorem leads_kept {R : Type} [Record R] {α : Type} (s : Store R) (host : Host) {call : StoreM R α}
    (hcall : ∀ {I : Store.Desk R → Prop}, Store.Blind I → Keeps I call) :
    Leads call ⟨s, host, []⟩
      (fun _ desk => Held s.index host.disk desk ∧ Supplied host.supply desk)
      (fun _ desk => Held s.index host.disk desk ∧ Supplied host.supply desk) :=
  (hcall (Store.blind_held _ _) _ (Store.held_start s host)).and
    (hcall (Store.blind_supplied _) _ (Store.supplied_start s host))

theorem leads_createSession_of_served (hserved : (⟨s, host, []⟩ : Store.Desk Session).Served)
    (hfresh : s.get? id = none) : Leads (createSession id) ⟨s, host, []⟩
      (fun made desk => made.id = id ∧ desk.store.records = s.records ++ [made] ∧
        Held s.index host.disk desk ∧ Supplied host.supply desk)
      (fun _ _ => False) := by
  have hmade := Store.leads_createWith_of_served (R := Session) id ({} : Session.Draft)
    (fun _ r => .ok r) hserved hfresh fun t => ⟨_, rfl, rfl⟩
  have hadded : Leads (createSession id) ⟨s, host, []⟩
      (fun made desk => (∃ t : Time.Instant,
        made = Record.ofDraft id t.toStamp ({} : Session.Draft)) ∧ Added s made desk)
      (fun _ _ => True) :=
    (Store.leads_create_added (R := Session) id ({} : Session.Draft)).secures
  have hkept := leads_kept s host fun hI =>
    Store.keeps_create (R := Session) hI id ({} : Session.Draft)
  apply ((hmade.and hadded).and hkept).mono
  · rintro made desk ⟨⟨-, ⟨t, rfl⟩, added⟩, held, supplied⟩
    exact ⟨rfl, added.records, held, supplied⟩
  · rintro _ _ ⟨⟨hfalse, -⟩, -⟩
    exact hfalse

theorem leads_retitleSession_of_served (hserved : (⟨s, host, []⟩ : Store.Desk Session).Served)
    (hfound : s.get? id ≠ none) (title : String) : Leads (retitleSession id title) ⟨s, host, []⟩
      (fun _ desk => (∀ x ∈ desk.store.records, x ∈ s.records ∨ x.id = id) ∧
        desk.store.records.length = s.records.length ∧
        Held s.index host.disk desk ∧ Supplied host.supply desk)
      (fun _ _ => False) := by
  have hserves := Store.leads_updateWith_of_served (R := Session) id
    ({ title := some title } : Session.Patch) (fun _ _ => .ok ()) hserved
  have hkept := leads_kept s host fun hI =>
    Store.keeps_update (R := Session) hI id ({ title := some title } : Session.Patch)
  have hupdated := (Store.leads_updateWith (R := Session) id
    ({ title := some title } : Session.Patch) fun _ _ => .ok ()).and hserves
  apply (hupdated.and hkept).mono
  · rintro next desk ⟨⟨⟨i, previous, -, rfl, -, ⟨patched, t, hpatch, -, -, rfl⟩, committed⟩, -⟩,
      held, supplied⟩
    refine ⟨?_, by rw [committed.records_eq, List.length_set], held, supplied⟩
    intro x hx
    rw [committed.records_eq] at hx
    rcases List.mem_or_eq_of_mem_set hx with hx | rfl
    · exact Or.inl hx
    · exact Or.inr (LawfulRecord.id_touch_patch hpatch t.toStamp)
  · rintro _ _ ⟨⟨-, hrefused⟩, -⟩
    obtain ⟨previous, hprevious⟩ := Option.ne_none_iff_exists'.1 hfound
    rcases hrefused.veto_or_invalid hprevious rfl with hveto | ⟨_, -, hinvalid⟩
    · cases hveto
    · cases hinvalid

end Sessions

theorem Host.Spent.supplied {R : Type} {host : Host} {id : String} (h : host.Spent id)
    {desk : Store.Desk R} (supplied : Supplied host.supply desk) : desk.host.Spent id := by
  obtain ⟨hids, hminted⟩ := Prod.mk.inj supplied.host
  intro n hn
  rw [hids]
  exact h n (hminted ▸ hn)

namespace Serviced

variable {data : Location} {stores : PerEntity fun e => Store e.Rec} {host : Host} {id : String}
  (h : Serviced data stores host)

/-- Indexes of one data directory lie equally deep. -/
theorem length_dir_ofData (R R' : Type) [Record R] [Record R'] (data : Location) :
    (Index.ofData R data).dir.path.length = (Index.ofData R' data).dir.path.length := by
  simp [Index.ofData, Location.child]

include h

theorem served_work : (⟨stores.work, host, []⟩ : Store.Desk Work).Served := by
  unfold Store.Desk.Served
  rw [h.work]
  exact h.workWritable

theorem served_session : (⟨stores.session, host, []⟩ : Store.Desk Session).Served := by
  unfold Store.Desk.Served
  rw [h.session]
  exact h.sessionWritable

/-- An id that is taken leaves the others to come. -/
theorem afterId : Serviced data stores host.afterId where
  work := h.work
  session := h.session
  workWritable := h.workWritable
  sessionWritable := h.sessionWritable
  injective := h.injective
  named n hn := h.named n (Nat.le_of_succ_le hn)
  spent s hs n hn := h.spent s hs n (Nat.le_of_succ_le hn)

theorem spent_nextId : host.afterId.Spent host.nextId := by
  intro n hn heq
  exact Nat.not_succ_le_self n ((h.injective heq) ▸ hn)

theorem get?_nextId : stores.session.get? host.nextId = none := by
  apply Record.find?_eq_none.2
  intro s hs
  exact h.spent s hs _ (Nat.le_refl _)

/-- A call on the items leaves both indexes writable. -/
theorem set_work {desk : Store.Desk Work} (held : Held stores.work.index host.disk desk)
    (supplied : Supplied host.supply desk) :
    Serviced data (stores.set .work desk.store) desk.host := by
  obtain ⟨hindex, hdisk, hlenient⟩ := held
  obtain ⟨hids, hminted⟩ := Prod.mk.inj supplied.host
  rw [h.work] at hindex hdisk
  constructor
  · exact hindex
  · exact h.session
  · exact h.workWritable.rewritten hdisk rfl hlenient
  · exact h.sessionWritable.rewritten hdisk (length_dir_ofData Work Session data) hlenient
  · exact hids ▸ h.injective
  · exact hids ▸ hminted ▸ h.named
  · exact fun s hs => (h.spent s hs).supplied supplied

theorem set_session {desk : Store.Desk Session} (held : Held stores.session.index host.disk desk)
    (supplied : Supplied host.supply desk) (spent : ∀ s ∈ desk.store.records, host.Spent s.id) :
    Serviced data (stores.set .session desk.store) desk.host := by
  obtain ⟨hindex, hdisk, hlenient⟩ := held
  obtain ⟨hids, hminted⟩ := Prod.mk.inj supplied.host
  rw [h.session] at hindex hdisk
  constructor
  · exact h.work
  · exact hindex
  · exact h.workWritable.rewritten hdisk (length_dir_ofData Session Work data) hlenient
  · exact h.sessionWritable.rewritten hdisk rfl hlenient
  · exact hids ▸ h.injective
  · exact hids ▸ hminted ▸ h.named
  · exact fun s hs => (spent s hs).supplied supplied

theorem leads_createSession (fresh : stores.session.get? id = none) (spent : host.Spent id) :
    Leads (createSession id) ⟨stores.session, host, []⟩
      (fun _ desk => Serviced data (stores.set .session desk.store) desk.host ∧
        desk.store.records.length = stores.session.records.length + 1 ∧
        desk.store.get? id ≠ none ∧ desk.host.Spent id)
      (fun _ _ => False) := by
  apply (leads_createSession_of_served h.served_session fresh).imp
  rintro made desk ⟨rfl, records, held, supplied⟩
  have hmade : made ∈ desk.store.records := records ▸ List.mem_append_right _ List.mem_cons_self
  refine ⟨h.set_session held supplied ?_, ?_, ?_, spent.supplied supplied⟩
  · intro s hs
    rw [records] at hs
    rcases List.mem_append.1 hs with hs | hs
    · exact h.spent s hs
    · exact List.mem_singleton.1 hs ▸ spent
  · rw [records, List.length_append, List.length_singleton]
  · intro hnone
    exact Record.find?_eq_none.1 hnone made hmade rfl

theorem leads_retitleSession (found : stores.session.get? id ≠ none) (spent : host.Spent id)
    (title : String) : Leads (retitleSession id title) ⟨stores.session, host, []⟩
      (fun _ desk => Serviced data (stores.set .session desk.store) desk.host ∧
        desk.store.records.length = stores.session.records.length)
      (fun _ _ => False) := by
  apply (leads_retitleSession_of_served h.served_session found title).imp
  rintro _ desk ⟨known, hlength, held, supplied⟩
  refine ⟨h.set_session held supplied ?_, hlength⟩
  intro s hs
  rcases known s hs with hs | hid
  · exact h.spent s hs
  · exact hid ▸ spent

/-- A call that changes an item comes to its end without touching anything else. -/
theorem leads_update {p : Work.Patch} {done : Work → Store.Desk Work → Prop}
    (hcall : Leads (Work.update id p) ⟨stores.work, host, []⟩ done fun _ _ => False) :
    Leads (Work.update id p) ⟨stores.work, host, []⟩
      (fun w desk => done w desk ∧ Serviced data (stores.set .work desk.store) desk.host ∧
        desk.host.supply = host.supply)
      (fun _ _ => False) := by
  have hkept := leads_kept stores.work host fun hI => Work.keeps_update hI id p
  apply (hcall.and hkept).mono
  · rintro w desk ⟨hdone, held, supplied⟩
    exact ⟨hdone, h.set_work held supplied, supplied.host⟩
  · rintro _ _ ⟨hfalse, -⟩
    exact hfalse

end Serviced

namespace Site

/-- Collaborators refuse nothing, autorun is on, and no listener fails. -/
structure Willing (site : Site) : Prop where
  answers : ∀ r, site.answer r = .ok ()
  enabled : site.autorunOn = true
  steady : ∀ e, .failOnce ∉ site.daemon.listeners.get e

variable {site : Site} {scene : Scene} {fleet : Fleet} {w : Work} {role : Role} {items : List Work}

/-! ### Calls -/

section Calls

variable (willing : site.Willing) (h : site.Shows scene fleet)

include willing

theorem Willing.not_breaks : ¬ site.Breaks fleet := by
  rintro ⟨⟨e, hlistener⟩, -⟩
  exact willing.steady e hlistener

include h

theorem leads_perform_of_willing {e : Entity} {α : Type} {call : StoreM e.Rec α}
    {done : α → Store.Desk e.Rec → Prop}
    (hcall : Leads call (scene.desk e) done fun _ _ => False) :
    Leads (Fleet.perform site.controller.daemon e call) fleet
      (fun result fleet' => ∃ x desk, result = .ok x ∧ done x desk ∧
        site.Shows (scene.moved e desk.store desk.host) fleet')
      (fun _ _ => False) := by
  apply (leads_perform h hcall).mono
  · rintro result fleet' ⟨desk, h', ⟨x, rfl, hdone⟩ | ⟨e, -, hfalse⟩⟩
    · exact ⟨x, desk, rfl, hdone, h'⟩
    · exact hfalse.elim
  · intro _ _ hbreaks
    exact willing.not_breaks hbreaks

theorem leads_onSessions_of_willing {call : StoreM Session Session}
    {done : Store.Desk Session → Prop} (r : Request) (context : String) (processing : Bool)
    (hcall : Leads call (scene.desk .session) (fun _ desk => done desk) fun _ _ => False) :
    Leads (onSessions { site.controller with processing } r context call) fleet
      (fun result fleet' => ∃ desk, result = .ok () ∧ done desk ∧
        site.Shows ((site.noted r scene).moved .session desk.store desk.host) fleet')
      (fun _ _ => False) := by
  apply (leads_onSessions h processing r context hcall).mono
  · rintro result fleet' ⟨scene', h', hcalled⟩
    cases hcalled with
    | refused hrefused =>
      rw [willing.answers r] at hrefused
      cases hrefused
    | made hdone => exact ⟨_, rfl, hdone, h'⟩
    | failed hfalse => exact hfalse.elim
  · intro _ _ hbreaks
    exact willing.not_breaks hbreaks

end Calls

/-! ### The stages of a pass -/

/-- A pass that holds the controller has made so many sessions, and changed no item. -/
structure Prepares (site : Site) (made : Nat) (scene : Scene) : Prop where
  others : site.KeepsOthers scene
  works : scene.stores.work = site.daemon.stores.work
  sessions : scene.stores.session.records.length =
    site.daemon.stores.session.records.length + made
  serviced : Serviced site.daemon.data scene.stores scene.host

/-- It has made one session and started an item, and these are to be started next. -/
structure Starts (site : Site) (next : Work) (items : List Work) (scene : Scene) : Prop where
  others : site.KeepsOthers scene
  atWork : AtWork scene.stores.work.records next items
  sessions : scene.stores.session.records.length = site.daemon.stores.session.records.length + 1
  serviced : Serviced site.daemon.data scene.stores scene.host

section Stages

variable (willing : site.Willing) (h : site.Shows scene fleet)

include willing h

theorem leads_step_create_of_willing {session : String} (prepares : site.Prepares 0 scene)
    (fresh : scene.stores.session.get? session = none) (spent : scene.host.Spent session) :
    Leads (step site.number (.create w role session)) fleet
      (fun s fleet' => s = .retitle w role session ∧ ∃ scene', site.Shows scene' fleet' ∧
        site.Prepares 1 scene' ∧ scene'.stores.session.get? session ≠ none ∧
        scene'.host.Spent session)
      (fun _ _ => False) := by
  obtain ⟨others, works, sessions, serviced⟩ := prepares
  rw [step]
  apply (leads_controller h).bind
  rintro x fleet₁ ⟨rfl, rfl⟩
  apply (leads_onSessions_of_willing willing h _ _ _
    (serviced.leads_createSession fresh spent)).bind
  rintro result fleet₂ ⟨desk, rfl, ⟨hserviced, hlength, hfound, hspent⟩, h₂⟩
  refine (leads_pure _).2 ⟨rfl, _, h₂, ⟨?_, works, ?_, hserviced⟩, hfound, hspent⟩
  · exact ⟨others.role, others.command, others.settings⟩
  · exact hlength.trans (congrArg (· + 1) sessions)

theorem leads_startWork_of_willing {session : String} (processing : Bool)
    (prepares : site.Prepares 1 scene) (named : session ≠ "")
    (first : AtRest scene.stores.work.records (w :: items)) :
    Leads (startWork { site.controller with processing } w role session) fleet
      (fun s fleet' => ∃ next message options scene', s = .kickoff next session message options ∧
        next.id = w.id ∧ site.Shows scene' fleet' ∧ site.Starts next items scene')
      (fun _ _ => False) := by
  obtain ⟨others, works, sessions, serviced⟩ := prepares
  have hstart : Leads (Work.start w.id session) (scene.desk .work)
      (fun next desk => next.id = w.id ∧ AtWork desk.store.records next items) fun _ _ => False :=
    Work.leads_start_of_atRest first serviced.served_work named
  rw [startWork]
  apply (leads_perform_of_willing (e := .work) willing h (serviced.leads_update hstart)).bind
  rintro result fleet₁ ⟨next, desk, rfl, ⟨⟨hid, atWork⟩, hserviced, -⟩, h₁⟩
  apply (leads_daemon h₁).bind
  rintro d fleet₂ ⟨rfl, notifiers, rfl⟩
  refine (leads_pure _).2 ⟨next, _, _, _, rfl, hid, h₁, ?_, atWork, sessions, hserviced⟩
  exact ⟨others.role, others.command, others.settings⟩

theorem leads_step_retitle_of_willing {session : String} (prepares : site.Prepares 1 scene)
    (found : scene.stores.session.get? session ≠ none) (spent : scene.host.Spent session)
    (named : session ≠ "") (first : AtRest scene.stores.work.records (w :: items)) :
    Leads (step site.number (.retitle w role session)) fleet
      (fun s fleet' => ∃ next message options scene', s = .kickoff next session message options ∧
        next.id = w.id ∧ site.Shows scene' fleet' ∧ site.Starts next items scene')
      (fun _ _ => False) := by
  obtain ⟨others, works, sessions, serviced⟩ := prepares
  rw [step]
  apply (leads_controller h).bind
  rintro x fleet₁ ⟨rfl, rfl⟩
  apply (leads_onSessions_of_willing willing h _ _ _
    (serviced.leads_retitleSession found spent w.title)).bind
  rintro result fleet₂ ⟨desk, rfl, ⟨hserviced, hlength⟩, h₂⟩
  apply leads_startWork_of_willing willing h₂ _ _ named first
  exact ⟨⟨others.role, others.command, others.settings⟩, works, hlength.trans sessions, hserviced⟩

theorem leads_step_kickoff_of_willing {next : Work} {session message : String}
    {options : MessageOptions} (starts : site.Starts next items scene) :
    Leads (step site.number (.kickoff next session message options)) fleet
      (fun s fleet' => s = .ended (.ok (.started next.id session)) ∧ ∃ scene',
        site.Shows scene' fleet' ∧ scene'.processing = false ∧ site.Starts next items scene')
      (fun _ _ => False) := by
  obtain ⟨others, atWork, sessions, serviced⟩ := starts
  rw [step]
  apply (leads_controller h).bind
  rintro x fleet₁ ⟨rfl, rfl⟩
  apply (leads_consult h _ _).bind
  rintro result fleet₂ ⟨rfl, h₂⟩
  rw [willing.answers]
  change Leads (finish _ _) _ _ _
  rw [finish, release]
  apply (leads_modifyController h₂ false).bind
  intro _ fleet₃ h₃
  refine (leads_pure _).2 ⟨rfl, _, h₃, rfl, ?_, atWork, sessions, serviced⟩
  exact ⟨others.role, others.command, others.settings⟩

end Stages

/-! ### The whole pass -/

theorem find?_list_eq_head? (s : Store Work) :
    s.list.find? (·.status = .open) = (agenda s.records).head? :=
  (List.head?_filter (p := fun w : Work => decide (w.status = .open)) (l := s.list)).symm

theorem any_list_eq {s : Store Work} : s.list.any (·.status = .inProgress) = false ↔
    activeCount s.records = 0 := by
  rw [List.any_eq_false, Work.activeCount_eq_zero_iff]
  simp [mem_list]

/-- The role of an item is there. -/
def Resolvable (roles : Store Role) (w : Work) : Prop :=
  ∃ id role, w.roleId = some id ∧ roles.get? id = some role

theorem choose_of_atRest {works : Store Work} {roles : Store Role}
    (h : AtRest works.records (w :: items)) (resolvable : Resolvable roles w) :
    ∃ role, choose works roles = .ok (w, role) := by
  obtain ⟨id, role, hid, hrole⟩ := resolvable
  refine ⟨role, ?_⟩
  unfold choose
  simp only [find?_list_eq_head?, any_list_eq.2 h.idle, h.agenda_eq, List.head?_cons, hid, hrole]
  rfl

theorem choose_of_quiet {works : Store Work} {roles : Store Role} (h : Quiet works.records) :
    ∃ outcome, choose works roles = .error (.ok outcome) := by
  rcases h with h | ⟨next, items, h⟩
  · refine ⟨.noOpenWork, ?_⟩
    unfold choose
    simp only [find?_list_eq_head?, any_list_eq.2 h.idle, h.agenda_eq]
    rfl
  · refine ⟨.alreadyActive, ?_⟩
    have hactive : works.list.any (·.status = .inProgress) = true := by
      obtain ⟨hnext, hstatus⟩ := List.mem_filter.1 (h.active ▸ List.mem_cons_self :
        next ∈ works.records.filter (·.status = .inProgress))
      exact List.any_eq_true.2 ⟨next, mem_list.2 hnext, hstatus⟩
    exact if_pos hactive

/-- A pass asks for the settings and chooses an item, and takes the controller for it. -/
theorem leads_step_settings_of_willing (willing : site.Willing)
    (free : site.controller.processing = false) :
    Leads (step site.number .settings) site.fleet
      (fun s fleet' =>
        (∀ result, choose site.daemon.stores.work site.daemon.stores.role = .error result →
          s = .ended result ∧ site.Shows (site.noted .readSettings site.scene) fleet') ∧
        ∀ w role, choose site.daemon.stores.work site.daemon.stores.role = .ok (w, role) →
          s = .create w role site.session ∧ site.Shows { site.noted .readSettings site.scene with
            processing := true, host := site.fleet.host.afterId } fleet')
      (fun _ _ => False) := by
  rw [step]
  apply (leads_controller site.shows_scene).bind
  rintro x fleet₁ ⟨rfl, rfl⟩
  apply (leads_isEnabled site.shows_scene _ rfl).bind
  rintro result fleet₂ ⟨rfl, h₂⟩
  rw [willing.answers, Except.map, willing.enabled]
  change Leads (do begin site.number (← Fleet.controller site.number)) fleet₂ _ _
  apply (leads_controller h₂).bind
  rintro x fleet₃ ⟨rfl, rfl⟩
  unfold begin
  rw [if_neg (by rw [Bool.not_eq_true]; exact free)]
  apply (leads_daemon h₂).bind
  rintro d fleet₃ ⟨rfl, notifiers, rfl⟩
  have hsame : choose
      (site.daemonWith (site.noted .readSettings site.scene).stores notifiers).stores.work
      (site.daemonWith (site.noted .readSettings site.scene).stores notifiers).stores.role =
    choose site.daemon.stores.work site.daemon.stores.role := rfl
  rw [hsame]
  cases hchoose : choose site.daemon.stores.work site.daemon.stores.role with
  | error result =>
    refine (leads_pure _).2 ⟨?_, ?_⟩
    · rintro _ ⟨⟩
      exact ⟨rfl, h₂⟩
    · rintro _ _ ⟨⟩
  | ok chosen =>
    obtain ⟨w, role⟩ := chosen
    apply (leads_modifyController h₂ true).bind
    intro _ fleet₄ h₄
    rw [leads_bind, newSession, leads_modifyGet]
    refine (leads_pure _).2 ⟨?_, ?_⟩
    · rintro _ ⟨⟩
    · rintro _ _ ⟨⟩
      have hid : fleet₄.host.nextId = site.session := congrArg Host.nextId h₄.host
      rw [hid]
      exact ⟨rfl, h₄.daemons, congrArg Host.afterId h₄.host, h₄.requests, h₄.controllers⟩

section Run

variable {c n : Nat} {s : Stage} {done : Stage → Fleet → Prop}

theorem leads_runUntil_of_step (hs : 0 < s.ahead)
    (hstep : Leads (step c s) fleet
      (fun s' fleet' => Leads (runUntil c (fun _ => false) n s') fleet' done fun _ _ => False)
      fun _ _ => False) :
    Leads (runUntil c (fun _ => false) (n + 1) s) fleet done fun _ _ => False := by
  have hgo : Leads (do runUntil c (fun _ => false) n (← guardedStep c s)) fleet done
      fun _ _ => False := by
    rw [leads_bind, guardedStep, leads_tryCatch]
    apply hstep.mono
    · intro _ _ h
      exact h
    · intro _ _ hfalse
      exact hfalse.elim
  cases s with
  | ended => exact absurd hs (Nat.lt_irrefl 0)
  | _ => exact hgo

theorem leads_runUntil_ended {result : Except Failure Outcome}
    (h : done (.ended result) fleet) :
    Leads (runUntil c (fun _ => false) n (.ended result)) fleet done fun _ _ => False := by
  cases n <;> exact (leads_pure _).2 h

end Run

/-- A pass that finds an item to start starts it, and it comes to its end. -/
theorem leads_startNext_of_atRest (willing : site.Willing)
    (free : site.controller.processing = false)
    (serviced : Serviced site.daemon.data site.daemon.stores site.fleet.host)
    (first : AtRest site.daemon.stores.work.records (w :: items))
    (resolvable : Resolvable site.daemon.stores.role w) :
    Leads (startNext site.number) site.fleet
      (fun _ fleet' => ∃ scene next, next.id = w.id ∧ site.Shows scene fleet' ∧
        scene.processing = false ∧ site.Starts next items scene)
      (fun _ _ => False) := by
  obtain ⟨role, hchoose⟩ := choose_of_atRest first resolvable
  have named : site.session ≠ "" := serviced.named _ (Nat.le_refl _)
  have hrun : Leads (runUntil site.number (fun _ => false) maxSteps .settings) site.fleet
      (fun _ fleet' => ∃ scene next, next.id = w.id ∧ site.Shows scene fleet' ∧
        scene.processing = false ∧ site.Starts next items scene)
      (fun _ _ => False) := by
    apply leads_runUntil_of_step (s := .settings) (Nat.succ_pos 4)
    apply (leads_step_settings_of_willing willing free).imp
    rintro s fleet₁ ⟨-, hchosen⟩
    obtain ⟨rfl, h₁⟩ := hchosen w role hchoose
    apply leads_runUntil_of_step (s := .create w role site.session) (Nat.succ_pos 3)
    have hprepares : site.Prepares 0 { site.noted .readSettings site.scene with
        processing := true, host := site.fleet.host.afterId } :=
      ⟨keepsOthers_of_stores_eq rfl, rfl, rfl, serviced.afterId⟩
    apply (leads_step_create_of_willing willing h₁ hprepares serviced.get?_nextId
      serviced.spent_nextId).imp
    rintro s fleet₂ ⟨rfl, scene₂, h₂, hprepares₂, hfound, hspent⟩
    apply leads_runUntil_of_step (s := .retitle w role site.session) (Nat.succ_pos 2)
    rw [← hprepares₂.works] at first
    apply (leads_step_retitle_of_willing willing h₂ hprepares₂ hfound hspent named first).imp
    rintro s fleet₃ ⟨next, message, options, scene₃, rfl, hid, h₃, hstarts⟩
    apply leads_runUntil_of_step (s := .kickoff next site.session message options) (Nat.succ_pos 1)
    apply (leads_step_kickoff_of_willing willing h₃ hstarts).imp
    rintro s fleet₄ ⟨rfl, scene₄, h₄, hfree, hstarts⟩
    exact leads_runUntil_ended ⟨scene₄, next, hid, h₄, hfree, hstarts⟩
  rw [startNext, resume]
  apply hrun.bind
  intro _ _ h
  exact (leads_pure _).2 h

/-- A pass that finds nothing to start, or an item in progress, changes nothing. -/
theorem leads_startNext_of_quiet (willing : site.Willing)
    (free : site.controller.processing = false) (quiet : Quiet site.daemon.stores.work.records) :
    Leads (startNext site.number) site.fleet
      (fun _ fleet' => site.Shows (site.noted .readSettings site.scene) fleet')
      (fun _ _ => False) := by
  obtain ⟨outcome, hchoose⟩ : ∃ outcome,
      choose site.daemon.stores.work site.daemon.stores.role = .error (.ok outcome) :=
    choose_of_quiet quiet
  have hrun : Leads (runUntil site.number (fun _ => false) maxSteps .settings) site.fleet
      (fun _ fleet' => site.Shows (site.noted .readSettings site.scene) fleet')
      (fun _ _ => False) := by
    apply leads_runUntil_of_step (s := .settings) (Nat.succ_pos 4)
    apply (leads_step_settings_of_willing willing free).imp
    rintro s fleet₁ ⟨hdeclined, -⟩
    obtain ⟨rfl, h₁⟩ := hdeclined _ hchoose
    exact leads_runUntil_ended h₁
  rw [startNext, resume]
  apply hrun.bind
  intro _ _ h
  exact (leads_pure _).2 h

end Site

end WorkQueue
