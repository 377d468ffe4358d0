import WorkQueue.Proofs.Daemon.Charge
import WorkQueue.Proofs.Store.Rooted

/-!
# What a pass does not end

A pass calls listeners, takes its controller and gives it up, takes an identity, makes a few calls
on stores, and sends one message. What endures each of these endures the pass, however it ends. Here
this is shown of the events of agents that wait to be handled, of the messages up to the pass's own,
and of where stores are kept.
-/

namespace WorkQueue

open Autorun

namespace Fleet

/-- The event of an agent that a task hands to a controller. -/
def Task.event? : Task → Option AgentEvent
  | .handle _ event => some event
  | _ => none

/-- The messages among the calls outside. -/
def messages (fleet : Fleet) : List Request := fleet.requests.filter (·.isMessage)

variable {I : Fleet → Prop} {fleet fleet' : Fleet} {i c : Nat} {e : Entity} {α : Type}

/-! ### What listeners do -/

/-- What does not depend on notifiers, controllers and the journal, nor on tasks that carry no
event. -/
structure Unmoved (I : Fleet → Prop) : Prop where
  same {fleet fleet' : Fleet} (h : I fleet)
    (stores : ∀ j : Nat, fleet'.daemons[j]?.map (·.stores) = fleet.daemons[j]?.map (·.stores))
    (host : fleet'.host = fleet.host) (channels : fleet'.channels = fleet.channels)
    (tasks : fleet'.tasks = fleet.tasks) (messages : fleet'.messages = fleet.messages) : I fleet'
  joined {fleet : Fleet} {t : Task} (silent : Task.event? t = none) (h : I fleet) :
    I { fleet with tasks := fleet.tasks ++ [t] }

/-- A store and a host may take the place of those that are there. -/
structure Fits (I : Fleet → Prop) (i : Nat) (e : Entity) (s : Store e.Rec) (host : Host) :
    Prop where
  store : Keeps I (modifyDaemon i fun d => { d with stores := d.stores.set e s })
  host : Keeps I (modify fun fleet : Fleet => { fleet with host } : FleetM Unit)

/-- So may what a call and each of its commits leave. -/
structure Leaves (I : Fleet → Prop) (i : Nat) (e : Entity) (desk : Store.Desk e.Rec) : Prop where
  last : Fits I i e desk.store desk.host
  commits : ∀ c ∈ desk.commits, Fits I i e c.store c.host

namespace Unmoved

variable (hI : Unmoved I)

include hI

theorem keeps_modifyDaemon {f : Daemon → Daemon} (hf : ∀ d, (f d).stores = d.stores) :
    Keeps I (modifyDaemon i f) := by
  apply keeps_modify
  intro fleet h
  refine hI.same h ?_ rfl rfl rfl rfl
  intro j
  by_cases hj : i = j
  · cases hd : fleet.daemons[j]? <;> simp [hj, hd, hf]
  · simp [hj]

theorem keeps_modifyController (f : Controller → Controller) : Keeps I (modifyController c f) :=
  keeps_modify fun _ h => hI.same h (fun _ => rfl) rfl rfl rfl rfl

theorem keeps_callListener (event : Event e.Rec) (l : Listener) :
    Keeps I (callListener i e event l) := by
  cases l with
  | journal =>
    apply (keeps_daemon i).bind
    intro d
    exact keeps_modify fun _ h => hI.same h (fun _ => rfl) rfl rfl rfl rfl
  | notifier slot =>
    apply Keeps.bind
    · exact hI.keeps_modifyDaemon fun _ => rfl
    intro _
    apply keeps_modify
    intro fleet h
    by_cases hmem : Task.dispatch i e slot ∈ fleet.tasks
    · rw [if_pos hmem]
      exact h
    · rw [if_neg hmem]
      exact hI.joined rfl h
  | autorun c =>
    apply keeps_get_bind
    intro fleet
    split
    · exact keeps_modify fun _ => hI.joined rfl
    · exact keeps_pure _
  | failOnce =>
    apply Keeps.bind
    · exact hI.keeps_modifyDaemon fun _ => rfl
    intro _
    exact keeps_throw _

theorem keeps_announce {cm : Store.Commit e.Rec} (hfits : Fits I i e cm.store cm.host) :
    Keeps I (announce i e cm) :=
  keeps_announce_of hfits.store hfits.host hI.keeps_callListener

theorem keeps_perform {call : StoreM e.Rec α}
    (hcall : ∀ fleet d, I fleet → fleet.daemons[i]? = some d →
      Leads call ⟨d.stores.get e, fleet.host, []⟩ (fun _ => Leaves I i e) fun _ => Leaves I i e) :
    Keeps I (perform i e call) := by
  have hend (result : Except StoreError α) {desk : Store.Desk e.Rec} (h : Leaves I i e desk) :
      Keeps I (conclude i e desk result) := by
    apply keeps_conclude
    · intro cm hcm
      exact hI.keeps_announce (h.commits cm hcm)
    · exact keeps_replace h.last.store h.last.host result
  intro fleet h
  apply leads_perform_of fun _ => h
  intro d hd
  apply (hcall fleet d h hd).mono
  · intro x desk hleaves
    exact hend (.ok x) hleaves fleet h
  · intro err desk hleaves
    exact hend (.error err) hleaves fleet h

/-! ### Calls outside -/

theorem keeps_consult {r : Request} (hr : r.isMessage = false) (x : Controller) :
    Keeps I (consult x r) := by
  unfold consult
  split
  · apply Keeps.bind
    · apply keeps_modify
      intro fleet h
      refine hI.same h (fun _ => rfl) rfl rfl rfl ?_
      simp [messages, hr]
    intro _
    apply (keeps_daemon x.daemon).bind
    intro d
    split
    · exact keeps_pure _
    · exact keeps_pure _
  · exact keeps_pure _

theorem keeps_isEnabled (x : Controller) : Keeps I (isEnabled x) := by
  apply (hI.keeps_consult rfl x).bind
  intro answer
  cases answer with
  | error chain => exact keeps_pure _
  | ok _ =>
    apply (keeps_daemon x.daemon).bind
    intro d
    exact keeps_pure _

theorem keeps_finish (result : Except Failure Outcome) : Keeps I (finish c result) := by
  apply (hI.keeps_modifyController _).bind
  intro _
  exact keeps_pure _

end Unmoved

/-! ### Passes -/

/-- The calls that passes make on sessions. -/
inductive SessionCall : StoreM Session Session → Prop where
  | create (id : String) : SessionCall (createSession id)
  | retitle (id title : String) : SessionCall (retitleSession id title)
  | delete (id : String) : SessionCall (deleteSession id)

theorem SessionCall.keeps {P : Store.Desk Session → Prop} {call : StoreM Session Session}
    (h : SessionCall call) (hP : Store.Blind P) : Keeps P call := by
  cases h with
  | create id => exact Store.keeps_create hP id _
  | retitle id title => exact Store.keeps_update hP id _
  | delete id => exact Store.keeps_delete hP id

/-- What endures also a new identity, and the calls that passes make on stores. -/
structure Enduring (I : Fleet → Prop) : Prop extends Unmoved I where
  named {fleet : Fleet} (h : I fleet) : I { fleet with host := fleet.host.afterId }
  sessions (i : Nat) {call : StoreM Session Session} (hcall : SessionCall call) :
    Keeps I (perform i .session call)
  starts (i : Nat) (id session : String) : Keeps I (perform i .work (Work.start id session))

namespace Enduring

section Calls

variable (hI : Enduring I)

include hI

theorem keeps_onSessions {r : Request} (hr : r.isMessage = false) (x : Controller)
    (context : String) {call : StoreM Session Session} (hcall : SessionCall call) :
    Keeps I (onSessions x r context call) := by
  apply (hI.keeps_consult hr x).bind
  intro answer
  cases answer with
  | error chain => exact keeps_pure _
  | ok _ =>
    apply (hI.sessions x.daemon hcall).bind
    intro result
    cases result with
    | ok _ => exact keeps_pure _
    | error err => exact keeps_pure _

theorem keeps_begin (x : Controller) : Keeps I (begin c x) := by
  unfold begin
  split
  · exact keeps_pure _
  apply (keeps_daemon x.daemon).bind
  intro d
  split
  · exact keeps_pure _
  apply (hI.keeps_modifyController _).bind
  intro _
  apply Keeps.bind
  · exact keeps_modifyGet fun _ => hI.named
  intro _
  exact keeps_pure _

theorem keeps_startWork (x : Controller) (w : Work) (role : Role) (session : String) :
    Keeps I (startWork x w role session) := by
  apply (hI.starts x.daemon w.id session).bind
  intro result
  cases result with
  | error e => exact keeps_pure _
  | ok started =>
    apply (keeps_daemon x.daemon).bind
    intro d
    exact keeps_pure _

end Calls

end Enduring

end Fleet

/-- The pass is about to send its message. -/
def Autorun.Stage.isKickoff : Stage → Bool
  | .kickoff _ _ _ _ => true
  | _ => false

namespace Fleet

variable {I : Fleet → Prop} {fleet fleet' : Fleet} {i c : Nat} {e : Entity} {α : Type}

namespace Enduring

theorem keeps_step (hI : Enduring I) {s : Stage} (hs : s.isKickoff = false) :
    Keeps I (step c s) := by
  apply (keeps_controller c).bind
  intro x
  cases s with
  | settings =>
    apply (hI.keeps_isEnabled x).bind
    intro answer
    cases answer with
    | error chain => exact keeps_pure _
    | ok enabled =>
      cases enabled with
      | false => exact keeps_pure _
      | true =>
        apply (keeps_controller c).bind
        intro x
        exact hI.keeps_begin x
  | create w role session =>
    apply (hI.keeps_onSessions rfl x _ (.create session)).bind
    intro answer
    cases answer with
    | error chain => exact hI.keeps_finish _
    | ok _ => exact keeps_pure _
  | retitle w role session =>
    apply (hI.keeps_onSessions rfl x _ (.retitle session w.title)).bind
    intro answer
    cases answer with
    | error chain => exact keeps_pure _
    | ok _ => exact hI.keeps_startWork x w role session
  | kickoff w session message options => cases hs
  | discard session failure =>
    have hdelete : Keeps I (onSessions x (.deleteSession session)
        (sessionContext "delete" session) (deleteSession session)) :=
      hI.keeps_onSessions rfl x _ (.delete session)
    intro fleet h
    rw [leads_bind, leads_discard]
    apply (hdelete fleet h).imp
    intro _ fleet₁ h₁
    exact hI.keeps_finish _ fleet₁ h₁
  | ended result => exact keeps_pure _

theorem keeps_step_kickoff (hI : Enduring I)
    (asked : ∀ fleet requests, I fleet → I { fleet with requests }) (w : Work)
    (session message : String) (options : MessageOptions) :
    Keeps I (step c (.kickoff w session message options)) := by
  apply (keeps_controller c).bind
  intro x
  apply (Fleet.keeps_consult asked x _).bind
  intro answer
  cases answer with
  | error chain => exact keeps_pure _
  | ok _ => exact hI.keeps_finish _

theorem keeps_guardedStep (hI : Enduring I) {s : Stage} (hstep : Keeps I (step c s)) :
    Keeps I (guardedStep c s) := by
  apply hstep.tryCatch
  intro e
  apply (hI.keeps_modifyController _).bind
  intro _
  exact keeps_throw e

end Enduring

theorem keeps_runUntil (hstep : ∀ s, Keeps I (guardedStep c s)) (pause : Stage → Bool) (n : Nat)
    (s : Stage) : Keeps I (runUntil c pause n s) := by
  induction n generalizing s with
  | zero => exact keeps_pure s
  | succ n ih =>
    have hgo : Keeps I
        (if pause s then return s else do runUntil c pause n (← guardedStep c s)) := by
      split
      · exact keeps_pure s
      · exact (hstep s).bind ih
    cases s with
    | ended result => exact keeps_pure _
    | _ => exact hgo

/-- What endures the calls of a pass and does not depend on what it says endures the pass. -/
theorem Enduring.keeps_startNext (hI : Enduring I)
    (asked : ∀ fleet requests, I fleet → I { fleet with requests }) (c : Nat) :
    Keeps I (startNext c) := by
  have hstep (s : Stage) : Keeps I (step c s) := by
    cases s with
    | kickoff w session message options =>
      exact hI.keeps_step_kickoff asked w session message options
    | _ => exact hI.keeps_step rfl
  apply (keeps_runUntil (fun s => hI.keeps_guardedStep (hstep s)) _ maxSteps .settings).bind
  intro s
  exact keeps_pure s.result

/-! ### Events and messages -/

/-- What depends on channels, messages and the events that tasks carry. -/
structure Blind (I : Fleet → Prop) : Prop where
  same {fleet fleet' : Fleet} (h : I fleet) (channels : fleet'.channels = fleet.channels)
    (tasks : fleet'.tasks = fleet.tasks) (messages : fleet'.messages = fleet.messages) : I fleet'
  joined {fleet : Fleet} {t : Task} (silent : Task.event? t = none) (h : I fleet) :
    I { fleet with tasks := fleet.tasks ++ [t] }

namespace Blind

variable (hI : Blind I)

include hI

theorem unmoved : Unmoved I where
  same h _ _ channels tasks messages := hI.same h channels tasks messages
  joined silent h := hI.joined silent h

theorem leaves (desk : Store.Desk e.Rec) : Leaves I i e desk := by
  have hfits (s : Store e.Rec) (host : Host) : Fits I i e s host :=
    ⟨keeps_modify fun _ h => hI.same h rfl rfl rfl, keeps_modify fun _ h => hI.same h rfl rfl rfl⟩
  exact ⟨hfits _ _, fun _ _ => hfits _ _⟩

theorem keeps_perform (call : StoreM e.Rec α) : Keeps I (perform i e call) := by
  apply hI.unmoved.keeps_perform
  intro fleet d _ _
  exact leads_iff.2 ⟨fun _ desk _ => hI.leaves desk, fun _ desk _ => hI.leaves desk⟩

theorem enduring : Enduring I where
  toUnmoved := hI.unmoved
  named h := hI.same h rfl rfl rfl
  sessions _ _ _ := hI.keeps_perform _
  starts _ _ _ := hI.keeps_perform _

end Blind

theorem blind_messages (ms : List Request) : Blind fun fleet => fleet.messages = ms where
  same h _ _ messages := messages.trans h
  joined _ h := h

/-- Tasks have joined the queue that carry no event, and the channels are as they were. -/
structure Unheard (fleet fleet' : Fleet) : Prop where
  channels : fleet'.channels = fleet.channels
  joined : ∃ ts, fleet'.tasks = fleet.tasks ++ ts ∧ ∀ t ∈ ts, Task.event? t = none

theorem unheard_self (fleet : Fleet) : Unheard fleet fleet :=
  ⟨rfl, [], (List.append_nil _).symm, fun _ ht => absurd ht List.not_mem_nil⟩

theorem blind_unheard (fleet : Fleet) : Blind (Unheard fleet) where
  same h channels tasks _ := ⟨channels.trans h.channels, tasks ▸ h.joined⟩
  joined {fleet' t} silent h := by
    obtain ⟨ts, htasks, hts⟩ := h.joined
    refine ⟨h.channels, ts ++ [t], by rw [htasks, List.append_assoc], ?_⟩
    intro t' ht'
    rcases List.mem_append.1 ht' with ht' | ht'
    · exact hts t' ht'
    · obtain rfl := List.mem_singleton.1 ht'
      exact silent

theorem keeps_startNext_unheard (fleet : Fleet) (c : Nat) :
    Keeps (Unheard fleet) (startNext c) :=
  (blind_unheard fleet).enduring.keeps_startNext (fun _ _ h => ⟨h.channels, h.joined⟩) c

/-! ### Where stores are kept -/

/-- The stores are kept in these indices, and at least so many identities of this supply were
taken. -/
structure Grounded (indices : Nat → Entity → Option Index) (supply : (Nat → String) × Nat)
    (fleet : Fleet) : Prop where
  stores : ∀ j e, fleet.daemons[j]?.map (fun d => (d.stores.get e).index) = indices j e
  ids : fleet.host.ids = supply.1
  taken : supply.2 ≤ fleet.host.minted

variable {indices : Nat → Entity → Option Index} {supply : (Nat → String) × Nat}

theorem unmoved_grounded : Unmoved (Grounded indices supply) where
  same h stores host _ _ _ := by
    refine ⟨?_, host ▸ h.ids, host ▸ h.taken⟩
    intro j e
    have hsame := congrArg (Option.map fun stores => (stores.get e).index) (stores j)
    rw [Option.map_map, Option.map_map] at hsame
    exact hsame.trans (h.stores j e)
  joined _ h := ⟨h.stores, h.ids, h.taken⟩

theorem fits_grounded {i : Index} {s : Store e.Rec} {host : Host} {j : Nat}
    (hindex : indices j e = some i) (based : Store.Based i supply s host) :
    Fits (Grounded indices supply) j e s host where
  store := by
    apply keeps_modify
    intro fleet h
    refine ⟨?_, h.ids, h.taken⟩
    intro k e'
    rw [← h.stores k e', List.getElem?_modify]
    by_cases hk : j = k
    · subst hk
      cases hd : fleet.daemons[j]? with
      | none => rfl
      | some d =>
        by_cases he : e' = e
        · subst he
          have hsame := (h.stores j e').trans hindex
          rw [hd] at hsame
          simp [based.index, Option.some.inj hsame]
        · simp [PerEntity.get_set_of_ne d.stores s he]
    · simp [hk]
  host := keeps_modify fun _ h => ⟨h.stores, based.ids, based.taken⟩

/-- A call that keeps a store where it is keeps them all. -/
theorem keeps_perform_grounded {j : Nat} {call : StoreM e.Rec α}
    (hcall : ∀ i, Keeps (Store.Rooted i supply) call) :
    Keeps (Grounded indices supply) (perform j e call) := by
  apply unmoved_grounded.keeps_perform
  intro fleet d h hd
  have hindex : indices j e = some (d.stores.get e).index := by
    rw [← h.stores j e, hd]
    rfl
  have hleaves {desk : Store.Desk e.Rec}
      (hrooted : Store.Rooted (d.stores.get e).index supply desk) :
      Leaves (Grounded indices supply) j e desk :=
    ⟨fits_grounded hindex hrooted.last, fun c hc => fits_grounded hindex (hrooted.commits c hc)⟩
  apply (hcall (d.stores.get e).index _ (Store.rooted_start ⟨rfl, h.ids, h.taken⟩)).mono
  · exact fun _ _ => hleaves
  · exact fun _ _ => hleaves

theorem enduring_grounded : Enduring (Grounded indices supply) where
  toUnmoved := unmoved_grounded
  named h := ⟨h.stores, h.ids, Nat.le_succ_of_le h.taken⟩
  sessions _ _ hcall :=
    keeps_perform_grounded (e := .session) fun _ =>
      hcall.keeps ((Store.detached_rooted _ _).toBlind)
  starts _ id session :=
    keeps_perform_grounded (e := .work) fun _ =>
      Work.Request.keeps_run_rooted (.start id session)

theorem keeps_startNext_grounded (c : Nat) : Keeps (Grounded indices supply) (startNext c) :=
  enduring_grounded.keeps_startNext (fun _ _ h => ⟨h.stores, h.ids, h.taken⟩) c

end Fleet

end WorkQueue
