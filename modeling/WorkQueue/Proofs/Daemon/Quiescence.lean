import Mathlib.Algebra.Order.BigOperators.Group.List
import WorkQueue.Proofs.Daemon.Charge
import WorkQueue.Proofs.Work.Activity

/-!
# Tasks come to an end

A task stands for itself and for those that it may set going. What a pass changes finishes no item
and switches nothing on, so it sets no other pass going, but for each of its calls every notifier
may schedule a delivery. So each task that is run leaves less to be run, and settling empties the
queue.
-/

namespace WorkQueue

open Autorun
open Store (Committed Idle)

namespace Fleet

variable {fleet₀ fleet fleet' : Fleet} {c i m n : Nat} {e : Entity} {t : Task} {ts : List Task}

/-- At most so many tasks have joined the queue, each of which stands for itself, and no task stands
for more than before. -/
structure Stirred (n : Nat) (fleet fleet' : Fleet) : Prop where
  posts : ∀ c : Nat, fleet'.controllers[c]?.map (·.daemon) = fleet.controllers[c]?.map (·.daemon)
  audience_le : ∀ i, fleet'.audience i ≤ fleet.audience i
  waiting_le : ∀ c, fleet'.waiting c ≤ fleet.waiting c
  joined : ∃ ts, fleet'.tasks = fleet.tasks ++ ts ∧ ts.length ≤ n ∧
    ∀ t ∈ ts, ∀ fleet : Fleet, fleet.weight t = 1

theorem stirred_self (n : Nat) (fleet : Fleet) : Stirred n fleet fleet where
  posts _ := rfl
  audience_le _ := Nat.le_refl _
  waiting_le _ := Nat.le_refl _
  joined := ⟨[], (List.append_nil _).symm, Nat.zero_le n, fun _ ht => absurd ht List.not_mem_nil⟩

namespace Stirred

theorem mono (h : Stirred m fleet fleet') (hle : m ≤ n) : Stirred n fleet fleet' where
  posts := h.posts
  audience_le := h.audience_le
  waiting_le := h.waiting_le
  joined := by
    obtain ⟨ts, htasks, hlength, hone⟩ := h.joined
    exact ⟨ts, htasks, hlength.trans hle, hone⟩

/-- No task has joined the queue since. -/
theorem congr (h : Stirred n fleet₀ fleet)
    (posts : ∀ c : Nat,
      fleet'.controllers[c]?.map (·.daemon) = fleet.controllers[c]?.map (·.daemon))
    (audience_le : ∀ i, fleet'.audience i ≤ fleet.audience i)
    (waiting_le : ∀ c, fleet'.waiting c ≤ fleet.waiting c) (tasks : fleet'.tasks = fleet.tasks) :
    Stirred n fleet₀ fleet' where
  posts c := (posts c).trans (h.posts c)
  audience_le i := (audience_le i).trans (h.audience_le i)
  waiting_le c := (waiting_le c).trans (h.waiting_le c)
  joined := tasks ▸ h.joined

theorem joined_one (h : Stirred n fleet₀ fleet) (ht : ∀ fleet : Fleet, fleet.weight t = 1) :
    Stirred (n + 1) fleet₀ { fleet with tasks := fleet.tasks ++ [t] } where
  posts := h.posts
  audience_le := h.audience_le
  waiting_le := h.waiting_le
  joined := by
    obtain ⟨ts, htasks, hlength, hone⟩ := h.joined
    refine ⟨ts ++ [t], by rw [htasks, List.append_assoc], ?_, ?_⟩
    · rw [List.length_append, List.length_singleton]
      exact Nat.add_le_add_right hlength 1
    · intro t' ht'
      rcases List.mem_append.1 ht' with ht' | ht'
      · exact hone t' ht'
      · obtain rfl := List.mem_singleton.1 ht'
        exact ht

theorem reach_eq (h : Stirred n fleet₀ fleet) {x : Controller}
    (hx : fleet.controllers[c]? = some x) : fleet₀.reach c = fleet₀.audience x.daemon := by
  have hposts := h.posts c
  rw [hx] at hposts
  obtain ⟨x₀, hx₀, hdaemon⟩ := Option.map_eq_some_iff.1 hposts.symm
  rw [reach, hx₀]
  exact congrArg fleet₀.audience hdaemon

theorem reach_le (h : Stirred n fleet₀ fleet) (c : Nat) : fleet.reach c ≤ fleet₀.reach c := by
  cases hx : fleet.controllers[c]? with
  | none =>
    rw [reach, hx]
    exact Nat.zero_le _
  | some x =>
    rw [h.reach_eq hx, reach, hx]
    exact h.audience_le x.daemon

theorem weight_le (h : Stirred n fleet₀ fleet) (t : Task) : fleet.weight t ≤ fleet₀.weight t := by
  cases t with
  | pass c => exact Nat.add_le_add_left (Nat.mul_le_mul_left _ (h.reach_le c)) 1
  | readEvents c => exact Nat.add_le_add_left (h.waiting_le c) 1
  | _ => exact Nat.le_refl 1

end Stirred

/-! ### What the queue stands for -/

theorem one_le_weight (fleet : Fleet) (t : Task) : 1 ≤ fleet.weight t := by
  cases t <;> first | exact Nat.le_refl 1 | exact Nat.le_add_right 1 _

theorem length_le_totalWeight (fleet : Fleet) : fleet.tasks.length ≤ fleet.totalWeight := by
  rw [totalWeight, ← List.sum_eq_foldl]
  have hle := List.card_nsmul_le_sum (fleet.tasks.map fleet.weight) 1 fun _ hw => by
    obtain ⟨t, -, rfl⟩ := List.mem_map.1 hw
    exact fleet.one_le_weight t
  simpa using hle

/-- A task that has set going no more than it stands for leaves less to be run. -/
theorem Stirred.tail_lt (h : Stirred n fleet fleet') (htasks : fleet.tasks = t :: ts)
    (hn : n < fleet.weight t) :
    { fleet' with tasks := fleet'.tasks.tail }.totalWeight < fleet.totalWeight := by
  obtain ⟨js, htasks', hlength, hone⟩ := h.joined
  have hrest : (ts.map fleet'.weight).sum ≤ (ts.map fleet.weight).sum :=
    List.sum_le_sum fun t _ => h.weight_le t
  have hjoined : (js.map fleet'.weight).sum = js.length := by
    rw [List.map_congr_left fun t ht => hone t ht fleet', List.map_const',
      List.sum_replicate_nat, Nat.mul_one]
  have htail : fleet'.tasks.tail = ts ++ js := by
    rw [htasks', htasks, List.cons_append, List.tail_cons]
  rw [totalWeight, totalWeight, ← List.sum_eq_foldl, ← List.sum_eq_foldl, htasks, List.map_cons,
    List.sum_cons]
  change ((fleet'.tasks.tail).map fleet'.weight).sum < _
  rw [htail, List.map_append, List.sum_append, hjoined]
  omega

/-! ### Commits -/

variable {commits : List (Store.Commit e.Rec)}

/-- At most one event was told of, which sets no pass going. -/
inductive Hushed : List (Store.Commit e.Rec) → Prop where
  | none : Hushed []
  | one {cm : Store.Commit e.Rec} {event : Event e.Rec} (events : cm.events = [event])
      (quiet : triggers e event = false) : Hushed [cm]

theorem hushed_of_idle {s : Store e.Rec} {host : Host} {desk : Store.Desk e.Rec}
    (h : Idle ⟨s, host, []⟩ desk) : Hushed desk.commits :=
  h.commits ▸ .none

theorem hushed_of_committed {s : Store e.Rec} {host : Host} {records : List e.Rec}
    {change : Change e.Rec} {desk : Store.Desk e.Rec}
    (h : Committed ⟨s, host, []⟩ records change desk)
    (quiet : triggers e ⟨change, s.revision + 1⟩ = false) : Hushed desk.commits :=
  h.commits ▸ .one rfl quiet

/-! ### Calls on stores -/

theorem audience_modify_le {j : Nat} {f : Daemon → Daemon}
    (hf : ∀ d e, ((f d).listeners.get e).length ≤ (d.listeners.get e).length) (i : Nat) :
    { fleet with daemons := fleet.daemons.modify j f }.audience i ≤ fleet.audience i := by
  rw [audience, audience, List.getElem?_modify]
  cases fleet.daemons[i]? with
  | none => exact Nat.le_refl 0
  | some d =>
    by_cases hj : j = i
    · simp only [hj, if_pos, Option.map_eq_map, Option.map_some, Option.getD_some,
        List.length_flatMap]
      exact List.sum_le_sum fun e _ => hf d e
    · simp [hj]

theorem length_le_audience {d : Daemon} (hd : fleet.daemons[i]? = some d) (e : Entity) :
    (d.listeners.get e).length ≤ fleet.audience i := by
  rw [audience, hd]
  change _ ≤ (Entity.all.flatMap d.listeners.get).length
  rw [List.length_flatMap]
  apply List.single_le_sum
  · exact fun _ _ => Nat.zero_le _
  · exact List.mem_map_of_mem (by cases e <;> decide)

namespace Stirred

theorem keeps_modifyDaemon {j : Nat} {f : Daemon → Daemon}
    (hf : ∀ d e, ((f d).listeners.get e).length ≤ (d.listeners.get e).length) :
    Keeps (Stirred n fleet₀) (modifyDaemon j f) := by
  apply keeps_modify
  intro fleet h
  exact h.congr (fun _ => rfl) (audience_modify_le hf) (fun _ => Nat.le_refl _) rfl

theorem keeps_elsewhere {f : Fleet → Fleet}
    (controllers : ∀ fleet, (f fleet).controllers = fleet.controllers)
    (daemons : ∀ fleet, (f fleet).daemons = fleet.daemons)
    (channels : ∀ fleet, (f fleet).channels = fleet.channels)
    (tasks : ∀ fleet, (f fleet).tasks = fleet.tasks) :
    Keeps (Stirred n fleet₀) (modify f : FleetM Unit) := by
  apply keeps_modify
  intro fleet h
  apply h.congr
  · intro c
    rw [controllers]
  · intro i
    rw [audience, audience, daemons]
  · intro c
    rw [waiting, waiting, channels]
  · exact tasks fleet

theorem keeps_modifyController {f : Controller → Controller} (hf : ∀ x, (f x).daemon = x.daemon) :
    Keeps (Stirred n fleet₀) (modifyController c f) := by
  apply keeps_modify
  intro fleet h
  refine h.congr ?_ (fun _ => Nat.le_refl _) (fun _ => Nat.le_refl _) rfl
  intro k
  by_cases hk : c = k
  · cases hx : fleet.controllers[k]? <;> simp [hk, hx, hf]
  · simp [hk]

/-- A listener that an event does not set going lets one task join at most. -/
theorem leads_callListener (h : Stirred n fleet₀ fleet) {event : Event e.Rec}
    (quiet : triggers e event = false) (l : Listener) :
    Leads (callListener i e event l) fleet (fun _ fleet' => Stirred (n + 1) fleet₀ fleet')
      (fun _ fleet' => Stirred (n + 1) fleet₀ fleet') := by
  have hmore : Stirred (n + 1) fleet₀ fleet := h.mono (Nat.le_add_right n 1)
  cases l with
  | journal =>
    have hkeeps : Keeps (Stirred (n + 1) fleet₀) (callListener i e event .journal) := by
      apply (keeps_daemon i).bind
      intro d
      exact keeps_elsewhere (fun _ => rfl) (fun _ => rfl) (fun _ => rfl) fun _ => rfl
    exact hkeeps fleet hmore
  | notifier slot =>
    have hpublish : Keeps (Stirred n fleet₀) (modifyNotifier i e slot (·.publish event)) :=
      keeps_modifyDaemon fun _ _ => Nat.le_refl _
    rw [callListener, leads_bind]
    apply (hpublish fleet h).mono
    · intro _ fleet₁ h₁
      apply (leads_modify _).2
      by_cases hmem : Task.dispatch i e slot ∈ fleet₁.tasks
      · rw [if_pos hmem]
        exact h₁.mono (Nat.le_add_right n 1)
      · rw [if_neg hmem]
        exact h₁.joined_one fun _ => rfl
    · intro _ fleet₁ h₁
      exact h₁.mono (Nat.le_add_right n 1)
  | autorun c =>
    rw [callListener, leads_bind, leads_get, quiet]
    exact (leads_pure _).2 hmore
  | failOnce =>
    have hkeeps : Keeps (Stirred (n + 1) fleet₀) (callListener i e event .failOnce) := by
      apply Keeps.bind
      · apply keeps_modifyDaemon
        intro d e'
        change ((d.listeners.set e _).get e').length ≤ _
        by_cases he : e' = e
        · subst he
          rw [PerEntity.get_set]
          exact List.length_erase_le
        · rw [PerEntity.get_set_of_ne _ _ he]
      · intro _
        exact keeps_throw _
    exact hkeeps fleet hmore

/-- What lets one task join at most, done for each element of a list. -/
theorem leads_forM {α : Type} {f : α → FleetM PUnit} {xs : List α}
    {failed : Interrupted → Fleet → Prop} (h : Stirred n fleet₀ fleet)
    (hf : ∀ x m fleet, m < n + xs.length → Stirred m fleet₀ fleet →
      Leads (f x) fleet (fun _ fleet' => Stirred (m + 1) fleet₀ fleet') failed) :
    Leads (xs.forM f) fleet (fun _ fleet' => Stirred (n + xs.length) fleet₀ fleet') failed := by
  induction xs generalizing n fleet with
  | nil => exact (leads_pure _).2 h
  | cons x xs ih =>
    have hlength : n + (x :: xs).length = n + 1 + xs.length := by
      rw [List.length_cons, Nat.add_assoc, Nat.add_comm 1]
    rw [hlength] at hf ⊢
    rw [List.forM_eq_forM, List.forM_cons]
    apply (hf x n fleet (by omega) h).bind
    intro _ fleet₁ h₁
    exact ih h₁ hf

theorem keeps_setStore (e : Entity) (s : Store e.Rec) : Keeps (Stirred n fleet₀)
    (modifyDaemon i fun d => { d with stores := d.stores.set e s }) :=
  keeps_modifyDaemon fun _ _ => Nat.le_refl _

theorem keeps_setHost (host : Host) : Keeps (Stirred n fleet₀)
    (modify fun fleet : Fleet => { fleet with host } : FleetM Unit) :=
  keeps_elsewhere (fun _ => rfl) (fun _ => rfl) (fun _ => rfl) fun _ => rfl

theorem leads_announceAll (h : Stirred n fleet₀ fleet) (hushed : Hushed commits) :
    Leads (commits.forM (announce i e)) fleet
      (fun _ fleet' => Stirred (n + fleet₀.audience i) fleet₀ fleet')
      (fun _ fleet' => Stirred (n + fleet₀.audience i) fleet₀ fleet') := by
  have hle := Nat.le_add_right n (fleet₀.audience i)
  cases hushed with
  | none => exact (leads_pure _).2 (h.mono hle)
  | @one cm event hevents quiet =>
    have hfailed (_ : Interrupted) (fleet' : Fleet) (h' : Stirred n fleet₀ fleet') :
        Stirred (n + fleet₀.audience i) fleet₀ fleet' := h'.mono hle
    have hannounce : Leads (announce i e cm) fleet
        (fun _ fleet' => Stirred (n + fleet₀.audience i) fleet₀ fleet')
        (fun _ fleet' => Stirred (n + fleet₀.audience i) fleet₀ fleet') := by
      apply (keeps_setStore e cm.store).leads_bind h hfailed
      intro _ fleet₁ h₁
      apply (keeps_setHost cm.host).leads_bind h₁ hfailed
      intro _ fleet₂ h₂
      apply leads_daemon_bind_of fun _ => hfailed ⟨⟩ fleet₂ h₂
      intro d hd
      rw [hevents, List.forM_eq_forM, List.forM_cons, List.forM_nil]
      have hle : n + (d.listeners.get e).length ≤ n + fleet₀.audience i :=
        Nat.add_le_add_left ((length_le_audience hd e).trans (h₂.audience_le i)) n
      have hlisteners : Leads ((d.listeners.get e).forM (callListener i e event)) fleet₂
          (fun _ fleet' => Stirred (n + (d.listeners.get e).length) fleet₀ fleet')
          (fun _ fleet' => Stirred (n + fleet₀.audience i) fleet₀ fleet') := by
        apply h₂.leads_forM
        intro l m fleet₃ hm h₃
        apply (h₃.leads_callListener quiet l).mono
        · exact fun _ _ h => h
        · exact fun _ _ h => h.mono (Nat.le_trans hm hle)
      apply hlisteners.bind
      intro _ fleet₃ h₃
      exact (leads_pure _).2 (h₃.mono hle)
    rw [List.forM_eq_forM, List.forM_cons, List.forM_nil]
    apply hannounce.bind
    intro _ fleet₁ h₁
    exact (leads_pure _).2 h₁

/-- A call that tells of one event at most, which sets no pass going, lets one task join at most for
each listener. -/
theorem leads_perform {α : Type} {call : StoreM e.Rec α} (h : Stirred n fleet₀ fleet)
    (hcall : ∀ s host, Leads call ⟨s, host, []⟩ (fun _ desk => Hushed desk.commits)
      fun _ desk => Hushed desk.commits) :
    Leads (perform i e call) fleet (fun _ fleet' => Stirred (n + fleet₀.audience i) fleet₀ fleet')
      (fun _ fleet' => Stirred (n + fleet₀.audience i) fleet₀ fleet') := by
  have hend (result : Except StoreError α) (desk : Store.Desk e.Rec)
      (hushed : Hushed desk.commits) : Leads (conclude i e desk result) fleet
        (fun _ fleet' => Stirred (n + fleet₀.audience i) fleet₀ fleet')
        (fun _ fleet' => Stirred (n + fleet₀.audience i) fleet₀ fleet') := by
    apply (h.leads_announceAll hushed).bind
    intro _ fleet₁ h₁
    exact keeps_replace (keeps_setStore e desk.store) (keeps_setHost desk.host) result fleet₁ h₁
  apply leads_perform_of fun _ => h.mono (Nat.le_add_right n _)
  intro d _
  apply (hcall (d.stores.get e) fleet.host).mono
  · intro x desk hushed
    exact hend (.ok x) desk hushed
  · intro err desk hushed
    exact hend (.error err) desk hushed

theorem asked (fleet : Fleet) (requests : List Request) (h : Stirred n fleet₀ fleet) :
    Stirred n fleet₀ { fleet with requests } :=
  h.congr (fun _ => rfl) (fun _ => Nat.le_refl _) (fun _ => Nat.le_refl _) rfl

end Stirred

/-! ### Calls of a pass -/

/-- A call on sessions that commits once or not at all. -/
def CommitsOnce (call : StoreM Session Session) : Prop := ∀ desk,
  Leads call desk (fun _ desk' => ∃ records change, Committed desk records change desk')
    fun _ desk' => Idle desk desk'

theorem commitsOnce_createSession (id : String) : CommitsOnce (createSession id) := by
  intro desk
  apply (Store.leads_createWith (R := Session) id ({} : Session.Draft) fun _ r => .ok r).imp
  rintro r desk' ⟨-, -, -, hcommitted⟩
  exact ⟨_, _, hcommitted⟩

theorem commitsOnce_retitleSession (id title : String) : CommitsOnce (retitleSession id title) := by
  intro desk
  apply (Store.leads_updateWith (R := Session) id ({ title := some title } : Session.Patch)
    fun _ _ => .ok ()).mono
  · rintro r desk' ⟨i, previous, -, -, -, -, hcommitted⟩
    exact ⟨_, _, hcommitted⟩
  · rintro _ desk' ⟨hidle, -⟩
    exact hidle

theorem commitsOnce_deleteSession (id : String) : CommitsOnce (deleteSession id) := by
  intro desk
  apply (Store.leads_delete (R := Session) id).imp
  rintro r desk' ⟨i, -, -, -, hcommitted⟩
  exact ⟨_, _, hcommitted⟩

theorem CommitsOnce.hushed {call : StoreM Session Session} (h : CommitsOnce call)
    (s : Store Session) (host : Host) :
    Leads call ⟨s, host, []⟩ (fun _ desk => Hushed (e := .session) desk.commits)
      fun _ desk => Hushed (e := .session) desk.commits := by
  apply (h _).mono
  · rintro _ desk ⟨records, change, hcommitted⟩
    exact hushed_of_committed (e := .session) hcommitted rfl
  · intro _ desk hidle
    exact hushed_of_idle (e := .session) hidle

theorem hushed_start (id session : String) (s : Store Work) (host : Host) :
    Leads (Work.start id session) ⟨s, host, []⟩ (fun _ desk => Hushed (e := .work) desk.commits)
      fun _ desk => Hushed (e := .work) desk.commits := by
  apply (Work.leads_start_changed id session).mono
  · rintro next desk ⟨previous, changed, -, hnext⟩
    apply hushed_of_committed (e := .work) changed.committed
    simp [triggers, Event.finishesWork, Status.isFinished, hnext]
  · intro _ desk hidle
    exact hushed_of_idle (e := .work) hidle

/-! ### Passes -/

end Fleet

/-- How many calls on stores may still follow. -/
def Autorun.Stage.calls : Stage → Nat
  | settings | create _ _ _ => 4
  | retitle _ _ _ => 3
  | kickoff _ _ _ _ | discard _ _ => 1
  | ended _ => 0

namespace Fleet

/-- A pass has come to a stage, and has let no more tasks join the queue than its calls may. -/
def Paces (c : Nat) (fleet₀ : Fleet) (s : Stage) (fleet : Fleet) : Prop :=
  ∃ k, Stirred (k * fleet₀.reach c) fleet₀ fleet ∧ k + s.calls ≤ maxSteps

/-- What a whole pass may do. -/
def Paced (c : Nat) (fleet₀ fleet : Fleet) : Prop :=
  Stirred (maxSteps * fleet₀.reach c) fleet₀ fleet

theorem Stirred.paced {k : Nat} (h : Stirred (k * fleet₀.reach c) fleet₀ fleet)
    (hk : k ≤ maxSteps) : Paced c fleet₀ fleet :=
  h.mono (Nat.mul_le_mul_right _ hk)

theorem Paces.paced {s : Stage} (h : Paces c fleet₀ s fleet) : Paced c fleet₀ fleet := by
  obtain ⟨k, hstirred, hk⟩ := h
  exact hstirred.paced (Nat.le_of_add_right_le hk)

theorem leads_onSessions_stirred {k : Nat} {x : Controller} {call : StoreM Session Session}
    (h : Stirred (k * fleet₀.reach c) fleet₀ fleet) (hx : fleet₀.reach c = fleet₀.audience x.daemon)
    (hcall : CommitsOnce call) (r : Request) (context : String) :
    Leads (onSessions x r context call) fleet
      (fun _ fleet' => Stirred ((k + 1) * fleet₀.reach c) fleet₀ fleet')
      (fun _ fleet' => Stirred ((k + 1) * fleet₀.reach c) fleet₀ fleet') := by
  have hmore {fleet' : Fleet} (h' : Stirred (k * fleet₀.reach c) fleet₀ fleet') :
      Stirred ((k + 1) * fleet₀.reach c) fleet₀ fleet' :=
    h'.mono (Nat.mul_le_mul_right _ (Nat.le_add_right k 1))
  apply (keeps_consult Stirred.asked x r).leads_bind h fun _ _ => hmore
  intro answer fleet₁ h₁
  cases answer with
  | error chain => exact (leads_pure _).2 (hmore h₁)
  | ok _ =>
    have hperform := h₁.leads_perform (i := x.daemon) (e := .session) hcall.hushed
    rw [← hx, ← Nat.succ_mul] at hperform
    apply hperform.bind
    intro result fleet₂ h₂
    cases result with
    | ok _ => exact (leads_pure _).2 h₂
    | error e => exact (leads_pure _).2 h₂

theorem leads_finish_paces {failed : Interrupted → Fleet → Prop} {k : Nat}
    (h : Stirred (k * fleet₀.reach c) fleet₀ fleet) (hk : k ≤ maxSteps)
    (result : Except Failure Outcome) :
    Leads (finish c result) fleet (fun s' fleet' => Paces c fleet₀ s' fleet') failed := by
  rw [finish, release, modifyController, leads_bind, leads_modify]
  have hreleased : Keeps (Stirred (k * fleet₀.reach c) fleet₀) (release c) :=
    Stirred.keeps_modifyController fun _ => rfl
  exact (leads_pure _).2 ⟨k, hreleased fleet h, hk⟩

theorem leads_begin_paces {k : Nat} {x : Controller}
    (h : Stirred (k * fleet₀.reach c) fleet₀ fleet) (hk : k + 4 ≤ maxSteps) :
    Leads (begin c x) fleet (fun s' fleet' => Paces c fleet₀ s' fleet')
      (fun _ fleet' => Paced c fleet₀ fleet') := by
  have hhere : k ≤ maxSteps := Nat.le_of_add_right_le hk
  have hpaces {s : Stage} {fleet' : Fleet} (h' : Stirred (k * fleet₀.reach c) fleet₀ fleet')
      (hs : s.calls ≤ 4) : Paces c fleet₀ s fleet' :=
    ⟨k, h', (Nat.add_le_add_left hs k).trans hk⟩
  unfold begin
  split
  · exact (leads_pure _).2 (hpaces h (Nat.zero_le 4))
  apply leads_daemon_bind_of fun _ => h.paced hhere
  intro d _
  split
  · exact (leads_pure _).2 (hpaces h (Nat.zero_le 4))
  have htaken : Keeps (Stirred (k * fleet₀.reach c) fleet₀)
      (modifyController c fun x => { x with processing := true }) :=
    Stirred.keeps_modifyController fun _ => rfl
  apply htaken.leads_bind h fun _ _ h' => h'.paced hhere
  intro _ fleet₁ h₁
  rw [newSession, leads_bind, leads_modifyGet]
  exact (leads_pure _).2 (hpaces (Stirred.keeps_setHost _ fleet₁ h₁) (Nat.le_refl 4))

theorem leads_startWork_paces {k : Nat} {x : Controller} {w : Work} {role : Role} {session : String}
    (h : Stirred (k * fleet₀.reach c) fleet₀ fleet) (hx : fleet₀.reach c = fleet₀.audience x.daemon)
    (hk : k + 2 ≤ maxSteps) :
    Leads (startWork x w role session) fleet (fun s' fleet' => Paces c fleet₀ s' fleet')
      (fun _ fleet' => Paced c fleet₀ fleet') := by
  have hperform := h.leads_perform (i := x.daemon) (e := .work) (hushed_start w.id session)
  rw [← hx, ← Nat.succ_mul] at hperform
  rw [startWork, leads_bind]
  apply hperform.mono
  · intro result fleet₁ h₁
    cases result with
    | error e => exact (leads_pure _).2 ⟨k + 1, h₁, hk⟩
    | ok started =>
      apply leads_daemon_bind_of fun _ => h₁.paced (Nat.le_of_succ_le hk)
      intro d _
      exact (leads_pure _).2 ⟨k + 1, h₁, hk⟩
  · intro _ fleet₁ h₁
    exact h₁.paced (Nat.le_of_succ_le hk)

theorem leads_step_paces {s : Stage} (h : Paces c fleet₀ s fleet) :
    Leads (step c s) fleet (fun s' fleet' => Paces c fleet₀ s' fleet')
      (fun _ fleet' => Paced c fleet₀ fleet') := by
  obtain ⟨k, hstirred, hk⟩ := h
  have hhere : k ≤ maxSteps := Nat.le_of_add_right_le hk
  rw [step, leads_bind, controller, leads_bind, leads_get]
  cases hx : fleet.controllers[c]? with
  | none => exact (leads_throw _).2 (hstirred.paced hhere)
  | some x =>
    have hreach := hstirred.reach_eq hx
    apply (leads_pure _).2
    cases s with
    | settings =>
      apply (keeps_isEnabled Stirred.asked x).leads_bind hstirred fun _ _ h => h.paced hhere
      intro answer fleet₁ h₁
      cases answer with
      | error chain => exact (leads_pure _).2 ⟨k, h₁, hhere⟩
      | ok enabled =>
        cases enabled with
        | false => exact (leads_pure _).2 ⟨k, h₁, hhere⟩
        | true =>
          apply (keeps_controller c).leads_bind h₁ fun _ _ h => h.paced hhere
          intro x fleet₂ h₂
          exact leads_begin_paces h₂ hk
    | create w role session =>
      have hk : k + 4 ≤ maxSteps := hk
      rw [leads_bind]
      apply (leads_onSessions_stirred hstirred hreach (commitsOnce_createSession _) _ _).mono
      · intro answer fleet₁ h₁
        cases answer with
        | error chain => exact leads_finish_paces h₁ (by omega) _
        | ok _ => exact (leads_pure _).2 ⟨k + 1, h₁, (by omega : k + 1 + 3 ≤ maxSteps)⟩
      · intro _ _ h₁
        exact h₁.paced (by omega)
    | retitle w role session =>
      have hk : k + 3 ≤ maxSteps := hk
      rw [leads_bind]
      apply (leads_onSessions_stirred hstirred hreach (commitsOnce_retitleSession _ _) _ _).mono
      · intro answer fleet₁ h₁
        cases answer with
        | error chain => exact (leads_pure _).2 ⟨k + 1, h₁, (by omega : k + 1 + 1 ≤ maxSteps)⟩
        | ok _ => exact leads_startWork_paces h₁ hreach hk
      · intro _ _ h₁
        exact h₁.paced (by omega)
    | kickoff w session message options =>
      apply (keeps_consult Stirred.asked x _).leads_bind hstirred fun _ _ h => h.paced hhere
      intro answer fleet₁ h₁
      cases answer with
      | error chain => exact (leads_pure _).2 ⟨k, h₁, hk⟩
      | ok _ => exact leads_finish_paces h₁ hhere _
    | discard session failure =>
      rw [leads_bind, leads_discard]
      apply (leads_onSessions_stirred hstirred hreach (commitsOnce_deleteSession _) _ _).mono
      · intro _ fleet₁ h₁
        exact leads_finish_paces h₁ hk _
      · intro _ _ h₁
        exact h₁.paced hk
    | ended result => exact (leads_pure _).2 ⟨k, hstirred, hk⟩

theorem leads_guardedStep_paces {s : Stage} (h : Paces c fleet₀ s fleet) :
    Leads (guardedStep c s) fleet (fun s' fleet' => Paces c fleet₀ s' fleet')
      (fun _ fleet' => Paced c fleet₀ fleet') := by
  rw [guardedStep, leads_tryCatch]
  apply (leads_step_paces h).mono
  · intro _ _ h₁
    exact h₁
  · intro e fleet₁ h₁
    have hreleased : Keeps (Paced c fleet₀) (release c) :=
      Stirred.keeps_modifyController fun _ => rfl
    apply hreleased.leads_bind h₁ fun _ _ h => h
    intro _ fleet₂ h₂
    exact (leads_throw e).2 h₂

theorem leads_runUntil_paces {s : Stage} (pause : Stage → Bool) (n : Nat)
    (h : Paces c fleet₀ s fleet) :
    Leads (runUntil c pause n s) fleet (fun _ fleet' => Paced c fleet₀ fleet')
      (fun _ fleet' => Paced c fleet₀ fleet') := by
  induction n generalizing s fleet with
  | zero => exact (leads_pure _).2 h.paced
  | succ n ih =>
    have hgo : Leads (if pause s then return s else do runUntil c pause n (← guardedStep c s)) fleet
        (fun _ fleet' => Paced c fleet₀ fleet') (fun _ fleet' => Paced c fleet₀ fleet') := by
      split
      · exact (leads_pure _).2 h.paced
      · apply (leads_guardedStep_paces h).bind
        intro s' fleet' h'
        exact ih h'
    cases s with
    | ended result => exact (leads_pure _).2 h.paced
    | _ => exact hgo

/-! ### Settling -/

theorem Stirred.keeps_modifyChannel {f : Channel → Channel}
    (hf : ∀ ch, (f ch).waiting.length ≤ ch.waiting.length) (k : Nat) :
    Keeps (Stirred n fleet₀) (modifyChannel k f) := by
  apply keeps_modify
  intro fleet h
  refine h.congr (fun _ => rfl) (fun _ => Nat.le_refl _) ?_ rfl
  intro k'
  rw [waiting, waiting, List.getElem?_modify]
  cases fleet.channels[k']? with
  | none => exact Nat.le_refl 0
  | some ch =>
    by_cases hk : k = k'
    · simpa [hk] using hf ch
    · simp [hk]

/-- The events that wait in a channel are handed over, or given up. -/
theorem leads_readEvents_stirred {failed : Interrupted → Fleet → Prop} (k : Nat) (fleet : Fleet) :
    Leads (readEvents k) fleet (fun _ fleet' => Stirred (fleet.waiting k) fleet fleet') failed := by
  have hself : Stirred (fleet.waiting k) fleet fleet := stirred_self _ fleet
  have hend {fleet' : Fleet} (h : Stirred (fleet.waiting k) fleet fleet') :
      Leads (endReading k) fleet' (fun _ fleet' => Stirred (fleet.waiting k) fleet fleet') failed :=
    (leads_modify _).2 (Stirred.keeps_modifyChannel (fun _ => Nat.zero_le _) k fleet' h)
  rw [readEvents, leads_bind, leads_get]
  cases hch : fleet.channels[k]? with
  | none => exact (leads_pure _).2 hself
  | some ch =>
    have hwaiting : fleet.waiting k = ch.waiting.length := by rw [waiting, hch]; rfl
    dsimp only
    split
    · exact hend hself
    split
    · split
      · exact (leads_pure _).2 hself
      · exact hend hself
    split
    · rw [hwaiting, ← Nat.zero_add ch.waiting.length] at hend ⊢
      apply Leads.bind
      · apply (stirred_self 0 fleet).leads_forM
        intro event m fleet₁ _ h₁
        exact (leads_modify _).2 (h₁.joined_one fun _ => rfl)
      · intro _ fleet₁ h₁
        split
        · apply (leads_modify _).2
          exact Stirred.keeps_modifyChannel (fun _ => Nat.zero_le _) k fleet₁ h₁
        · exact hend h₁
    · exact hend hself

/-- A task sets going no more than it stands for. -/
theorem leads_runTask_stirred (t : Task) (fleet : Fleet) : Leads (runTask t) fleet
    (fun _ fleet' => ∃ n < fleet.weight t, Stirred n fleet fleet') (fun _ _ => False) := by
  cases t with
  | pass c =>
    have hstart : Paces c fleet .settings fleet := ⟨0, stirred_self _ fleet, by decide⟩
    have hpass : Leads (startNext c) fleet (fun _ fleet' => Paced c fleet fleet')
        (fun _ fleet' => Paced c fleet fleet') := by
      apply (leads_runUntil_paces _ maxSteps hstart).bind
      intro s fleet' h
      exact (leads_pure _).2 h
    rw [runTask, leads_tryCatch, leads_discard]
    apply hpass.mono
    · intro _ fleet' h
      exact ⟨_, Nat.lt_add_of_pos_left Nat.one_pos, h⟩
    · intro _ fleet' h
      exact ⟨_, Nat.lt_add_of_pos_left Nat.one_pos, h⟩
  | readEvents k =>
    apply (leads_readEvents_stirred k fleet).imp
    intro _ fleet' h
    exact ⟨_, Nat.lt_add_of_pos_left Nat.one_pos, h⟩
  | dispatch j e slot =>
    have hkeeps : Keeps (Stirred 0 fleet) (modifyNotifier j e slot (·.dispatchAll)) :=
      Stirred.keeps_modifyDaemon fun _ _ => Nat.le_refl _
    exact (leads_modify _).2 ⟨0, Nat.one_pos, hkeeps fleet (stirred_self 0 fleet)⟩
  | handle k event =>
    have hkeeps : Keeps (Stirred 0 fleet) (handleAgentEvent k event) :=
      keeps_handleAgentEvent Stirred.asked k event
    rw [runTask, leads_tryCatch, leads_discard]
    apply (hkeeps fleet (stirred_self 0 fleet)).mono
    · intro _ fleet' h
      exact ⟨0, Nat.one_pos, h⟩
    · intro _ fleet' h
      exact ⟨0, Nat.one_pos, h⟩

theorem leads_settleSteps_of_totalWeight_le (hn : fleet.totalWeight ≤ n) :
    Leads (settleSteps n) fleet (fun _ fleet' => fleet'.tasks = []) (fun _ _ => False) := by
  induction n generalizing fleet with
  | zero =>
    have hlength := (length_le_totalWeight fleet).trans hn
    exact (leads_pure _).2 (List.length_eq_zero_iff.1 (Nat.le_zero.1 hlength))
  | succ n ih =>
    rw [settleSteps, leads_bind, leads_get]
    cases htasks : fleet.tasks with
    | nil => exact (leads_pure _).2 htasks
    | cons t ts =>
      apply (leads_runTask_stirred t fleet).bind
      rintro _ fleet' ⟨m, hm, hstirred⟩
      rw [leads_bind, leads_modify]
      apply ih
      exact Nat.le_of_lt_succ ((hstirred.tail_lt htasks hm).trans_le hn)

/-- Settling comes to an end with no task left to be run, and no interruption gets out of it. -/
theorem leads_settle_empties (fleet : Fleet) :
    Leads settle fleet (fun _ fleet' => fleet'.tasks = []) (fun _ _ => False) := by
  rw [settle, leads_bind, leads_get]
  exact leads_settleSteps_of_totalWeight_le (Nat.le_refl _)

end Fleet

end WorkQueue
