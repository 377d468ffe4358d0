import WorkQueue.Proofs.Daemon.Pass
import WorkQueue.Proofs.Daemon.Shared

/-!
# One call of a pass

A pass takes the controller when it has found no item in progress, and gives it up when it ends,
whichever way it ends. In between it may start one item. What one call does to what the passes of a
controller share is one of these turns, also where a listener interrupts the call.
-/

namespace WorkQueue

open Autorun
open Record (Distinct)
open Work (activeCount Calm Begun Starts)
open Fleet (Shares)

namespace Autorun

/-- The pass holds the controller. -/
def Stage.holds : Stage → Bool
  | .settings | .ended _ => false
  | _ => true

/-- The pass has chosen an item and has not started it. -/
def Stage.prepares : Stage → Bool
  | .create _ _ _ | .retitle _ _ _ => true
  | _ => false

theorem Stage.holds_of_prepares {s : Stage} (h : s.prepares = true) : s.holds = true := by
  cases s <;> first | rfl | cases h

/-- What the next call of a pass does to what the passes of a controller share. There is no next
stage when a listener has interrupted the call. -/
inductive Turn (v : Shared) : Stage → Shared → Option Stage → Prop where
  | outside {s s' : Stage} (before : s.holds = false) (after : s'.holds = false) :
      Turn v s v (some s')
  | takes {s s' : Stage} (free : v.processing = false) (after : s'.holds = true)
      (idle : activeCount v.works = 0) :
      Turn v s { v with processing := true, supply := (v.supply.1, v.supply.2 + 1) } (some s')
  | advances {s s' : Stage} (before : s.holds = true) (after : s'.holds = true)
      (prepares : s'.prepares = true → s.prepares = true) : Turn v s v (some s')
  | starts {s s' : Stage} {previous next : Work} {works : List Work} (before : s.prepares = true)
      (after : s'.holds = true) (working : s'.prepares = false)
      (begun : Begun v.works previous next works) :
      Turn v s (v.moved works v.supply) (some s')
  | leaves {s : Stage} {s' : Option Stage} {works : List Work} (before : s.holds = true)
      (after : ∀ t ∈ s', t.holds = false)
      (items : works = v.works ∨
        s.prepares = true ∧ ∃ previous next, Begun v.works previous next works) :
      Turn v s { v with works, processing := false } s'

end Autorun

namespace Fleet

variable {c : Nat} {v : Shared} {fleet : Fleet}

/-! ### One call -/

theorem activeCount_of_choose {works : Store Work} {roles : Store Role} {chosen : Work × Role}
    (h : choose works roles = .ok chosen) : activeCount works.records = 0 := by
  rw [Work.activeCount_eq_zero_iff]
  intro w hw hstatus
  have hany : works.list.any (·.status = .inProgress) = true :=
    List.any_eq_true.2 ⟨w, Site.mem_list.2 hw, decide_eq_true hstatus⟩
  simp only [choose, if_pos hany] at h
  cases h

theorem leads_finish_turn {failed : Interrupted → Fleet → Prop} {s : Stage}
    (h : Shares c v fleet) (holds : s.holds = true) (result : Except Failure Outcome) :
    Leads (finish c result) fleet
      (fun s' fleet' => ∃ v', Shares c v' fleet' ∧ Turn v s v' (some s')) failed := by
  rw [finish, release]
  apply (leads_setProcessing h false).bind
  intro _ fleet₁ h₁
  refine (leads_pure _).2 ⟨_, h₁, .leaves holds ?_ (Or.inl rfl)⟩
  rintro _ ⟨⟩
  rfl

theorem leads_begin_turn {failed : Interrupted → Fleet → Prop} {x : Controller}
    (h : Shares c v fleet) (hx : x.daemon = v.daemon) (hprocessing : x.processing = v.processing) :
    Leads (begin c x) fleet
      (fun s' fleet' => ∃ v', Shares c v' fleet' ∧ Turn v .settings v' (some s')) failed := by
  unfold begin
  by_cases hbusy : x.processing = true
  · rw [if_pos hbusy]
    exact (leads_pure _).2 ⟨v, h, .outside rfl rfl⟩
  rw [if_neg hbusy, hx]
  have hfree : v.processing = false := hprocessing ▸ Bool.eq_false_of_not_eq_true hbusy
  apply (leads_daemon_shared h).bind
  rintro d fleet₁ ⟨rfl, hworks⟩
  cases hchoose : choose d.stores.work d.stores.role with
  | error result => exact (leads_pure _).2 ⟨v, h, .outside rfl rfl⟩
  | ok chosen =>
    have hidle : activeCount v.works = 0 := hworks ▸ activeCount_of_choose hchoose
    apply (leads_setProcessing h true).bind
    intro _ fleet₂ h₂
    apply (leads_newSession_shared h₂).bind
    intro session fleet₃ h₃
    exact (leads_pure _).2 ⟨_, h₃, .takes hfree rfl hidle⟩

/-- An item has begun, if anything has changed, and no id was taken. -/
def Interrupts (c : Nat) (v : Shared) (s : Stage) (fleet : Fleet) : Prop :=
  ∃ works, Shares c (v.moved works v.supply) fleet ∧ s.holds = true ∧
    (works = v.works ∨ s.prepares = true ∧ ∃ previous next, Begun v.works previous next works)

theorem leads_startWork_turn {x : Controller} {w : Work} {role : Role} {session : String}
    {s : Stage} (h : Shares c v fleet) (hx : x.daemon = v.daemon) (hs : s.prepares = true) :
    Leads (startWork x w role session) fleet
      (fun s' fleet' => ∃ v', Shares c v' fleet' ∧ Turn v s v' (some s'))
      (fun _ fleet' => Interrupts c v s fleet') := by
  have hcall (st : Store Work) (host : Host) (hworks : st.records = v.works)
      (hsupply : host.supply = v.supply) :
      Leads (Work.start w.id session) ⟨st, host, []⟩
        (fun next desk => (∃ previous, Begun v.works previous next desk.store.records) ∧
          Store.Stays (Starts v.works v.supply) desk)
        (fun _ desk => desk.store.records = v.works ∧
          Store.Stays (Starts v.works v.supply) desk) := by
    rw [← hworks, ← hsupply]
    exact Work.leads_start_begun w.id session
  have hholds := Stage.holds_of_prepares hs
  rw [startWork, leads_bind, hx]
  apply (leads_perform_work h hcall).mono
  · rintro result fleet₁ ⟨desk, h₁, hstays, ⟨next, rfl, previous, hbegun⟩ | ⟨e, rfl, hsame⟩⟩
    · rw [hstays.last.supply] at h₁
      apply (leads_daemon_shared h₁).bind
      rintro d fleet₂ ⟨rfl, -⟩
      exact (leads_pure _).2 ⟨_, h₁, .starts hs rfl rfl hbegun⟩
    · rw [hstays.last.supply, hsame] at h₁
      exact (leads_pure _).2 ⟨_, h₁, .advances hholds rfl fun _ => hs⟩
  · rintro _ fleet₁ ⟨works, supply, h₁, hstarts⟩
    rw [hstarts.supply] at h₁
    refine ⟨works, h₁, hholds, hstarts.items.imp_right fun hbegun => ⟨hs, hbegun⟩⟩

theorem leads_step_turn {s : Stage} (h : Shares c v fleet) :
    Leads (step c s) fleet
      (fun s' fleet' => ∃ v', Shares c v' fleet' ∧ Turn v s v' (some s'))
      (fun _ fleet' => Interrupts c v s fleet') := by
  have hinterrupted {fleet' : Fleet} (holds : s.holds = true) (h' : Shares c v fleet') :
      Interrupts c v s fleet' := ⟨v.works, h', holds, Or.inl rfl⟩
  rw [step]
  apply (leads_controller_shared h).bind
  rintro x fleet₁ ⟨rfl, hx, -⟩
  cases s with
  | settings =>
    apply (leads_isEnabled_shared h hx).bind
    intro answer fleet₁ h₁
    cases answer with
    | error chain => exact (leads_pure _).2 ⟨v, h₁, .outside rfl rfl⟩
    | ok enabled =>
      cases enabled with
      | false => exact (leads_pure _).2 ⟨v, h₁, .outside rfl rfl⟩
      | true =>
        apply (leads_controller_shared h₁).bind
        rintro x fleet₂ ⟨rfl, hx, hprocessing⟩
        exact leads_begin_turn h₁ hx hprocessing
  | create w role session =>
    have hcall : Keeps (Store.Supplied v.supply) (createSession session) :=
      Store.keeps_create (R := Session) (Store.blind_supplied v.supply) session _
    rw [leads_bind]
    apply (leads_onSessions_shared h hx hcall).mono
    · intro answer fleet₁ h₁
      cases answer with
      | error chain => exact leads_finish_turn h₁ rfl _
      | ok _ => exact (leads_pure _).2 ⟨v, h₁, .advances rfl rfl fun _ => rfl⟩
    · intro _ fleet₁ h₁
      exact hinterrupted rfl h₁
  | retitle w role session =>
    have hcall : Keeps (Store.Supplied v.supply) (retitleSession session w.title) :=
      Store.keeps_update (R := Session) (Store.blind_supplied v.supply) session _
    rw [leads_bind]
    apply (leads_onSessions_shared h hx hcall).mono
    · intro answer fleet₁ h₁
      cases answer with
      | error chain => exact (leads_pure _).2 ⟨v, h₁, .advances rfl rfl fun _ => rfl⟩
      | ok _ => exact leads_startWork_turn h₁ hx rfl
    · intro _ fleet₁ h₁
      exact hinterrupted rfl h₁
  | kickoff w session message options =>
    apply (leads_consult_shared h hx).bind
    intro answer fleet₁ h₁
    cases answer with
    | error chain => exact (leads_pure _).2 ⟨v, h₁, .advances rfl rfl (absurd · Bool.false_ne_true)⟩
    | ok _ => exact leads_finish_turn h₁ rfl _
  | discard session failure =>
    have hcall : Keeps (Store.Supplied v.supply) (deleteSession session) :=
      Store.keeps_delete (Store.blind_supplied v.supply) _
    rw [leads_bind, leads_discard]
    apply (leads_onSessions_shared h hx hcall).mono
    · intro _ fleet₁ h₁
      exact leads_finish_turn h₁ rfl _
    · intro _ fleet₁ h₁
      exact hinterrupted rfl h₁
  | ended result => exact (leads_pure _).2 ⟨v, h, .outside rfl rfl⟩

/-- A call of a pass takes its turn, also where a listener interrupts it. -/
theorem leads_guardedStep_turn {s : Stage} (h : Shares c v fleet) :
    Leads (guardedStep c s) fleet
      (fun s' fleet' => ∃ v', Shares c v' fleet' ∧ Turn v s v' (some s'))
      (fun _ fleet' => ∃ v', Shares c v' fleet' ∧ Turn v s v' none) := by
  rw [guardedStep, leads_tryCatch]
  apply (leads_step_turn h).mono
  · intro _ _ hturn
    exact hturn
  · rintro e fleet₁ ⟨works, h₁, holds, hitems⟩
    rw [release]
    apply (leads_setProcessing h₁ false).bind
    intro _ fleet₂ h₂
    refine (leads_throw _).2 ⟨_, h₂, .leaves holds ?_ hitems⟩
    rintro _ ⟨⟩

/-- A call on the items that starts none leaves them calm, also where a listener interrupts it. -/
theorem leads_perform_calm {q : Work.Request} (hq : q.Calms) (h : Shares c v fleet) :
    Leads (perform v.daemon .work q.run) fleet
      (fun _ fleet' => ∃ works supply, Shares c (v.moved works supply) fleet' ∧
        Calm v.works v.supply works supply)
      (fun _ fleet' => ∃ works supply, Shares c (v.moved works supply) fleet' ∧
        Calm v.works v.supply works supply) := by
  have hcall (s : Store Work) (host : Host) (hworks : s.records = v.works)
      (hsupply : host.supply = v.supply) :
      Leads q.run ⟨s, host, []⟩ (fun _ desk => True ∧ Store.Stays (Calm v.works v.supply) desk)
        (fun _ desk => True ∧ Store.Stays (Calm v.works v.supply) desk) := by
    rw [← hworks, ← hsupply]
    apply (Work.Request.leads_run_calm hq).mono
    · intro _ _ hstays
      exact ⟨trivial, hstays⟩
    · intro _ _ hstays
      exact ⟨trivial, hstays⟩
  apply (leads_perform_work h hcall).mono
  · rintro _ fleet₁ ⟨desk, h₁, hstays, -⟩
    exact ⟨_, _, h₁, hstays.last⟩
  · intro _ fleet₁ hinterrupted
    exact hinterrupted

end Fleet

end WorkQueue
