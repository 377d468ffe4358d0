import Mathlib.Algebra.Order.Group.Multiset
import WorkQueue.Daemon.Lifecycle
import WorkQueue.Proofs.Daemon.Enduring

/-!
# Events of agents that wait

An event of an agent waits in a channel until the channel is read, and then in a task until the task
is run. On the way it may be lost, but no event is there twice that was reported once.
-/

namespace WorkQueue.Fleet

open Autorun

/-- The events of agents that have not been handled yet. -/
def pending (fleet : Fleet) : Multiset AgentEvent :=
  (fleet.channels.flatMap (·.waiting) : List AgentEvent) +
    (fleet.tasks.filterMap Task.event? : List AgentEvent)

variable {fleet fleet' : Fleet} {c k : Nat} {t : Task}

theorem Unheard.prefix (h : Unheard fleet fleet') : fleet.tasks <+: fleet'.tasks := by
  obtain ⟨ts, htasks, -⟩ := h.joined
  rw [htasks]
  exact List.prefix_append fleet.tasks ts

theorem Unheard.pending_eq (h : Unheard fleet fleet') : fleet'.pending = fleet.pending := by
  obtain ⟨ts, htasks, hts⟩ := h.joined
  have hnone : ts.filterMap Task.event? = [] := List.filterMap_eq_nil_iff.2 hts
  rw [pending, pending, h.channels, htasks, List.filterMap_append, hnone, List.append_nil]

/-- A task leaves the queue with its event. -/
theorem pending_eraseIdx (h : fleet.tasks[k]? = some t) :
    ({ fleet with tasks := fleet.tasks.eraseIdx k } : Fleet).pending +
      ((Task.event? t).toList : Multiset AgentEvent) = fleet.pending := by
  obtain ⟨hk, rfl⟩ := List.getElem?_eq_some_iff.1 h
  have hperm : (fleet.tasks[k] :: fleet.tasks.eraseIdx k).Perm fleet.tasks :=
    List.getElem_cons_eraseIdx_perm hk
  have hevents := Multiset.coe_eq_coe.2 (hperm.filterMap Task.event?)
  rw [List.filterMap_cons] at hevents
  rw [pending, pending, add_assoc, ← hevents]
  congr 1
  cases Task.event? fleet.tasks[k] with
  | none => exact add_zero _
  | some event => exact Multiset.add_comm _ _

/-- What one channel gives out and takes in is what all of them do. -/
theorem flatMap_modify_le {channels : List Channel} {f : Channel → Channel}
    {out into : Multiset AgentEvent}
    (hf : ∀ ch, channels[c]? = some ch →
      ((f ch).waiting : Multiset AgentEvent) + out ≤ (ch.waiting : Multiset AgentEvent) + into)
    (hmissing : channels[c]? = none → out ≤ into) :
    ((channels.modify c f).flatMap (·.waiting) : Multiset AgentEvent) + out ≤
      (channels.flatMap (·.waiting) : Multiset AgentEvent) + into := by
  induction channels generalizing c with
  | nil => simpa using hmissing rfl
  | cons ch channels ih =>
    cases c with
    | zero =>
      have hch := hf ch rfl
      rw [List.modify_zero_cons, List.flatMap_cons, List.flatMap_cons, ← Multiset.coe_add,
        ← Multiset.coe_add, add_right_comm _ _ out, add_right_comm _ _ into]
      exact add_le_add_left hch _
    | succ c =>
      rw [List.modify_succ_cons, List.flatMap_cons, List.flatMap_cons, ← Multiset.coe_add,
        ← Multiset.coe_add, add_assoc, add_assoc]
      exact add_le_add_right (ih hf hmissing) _

/-! ### Channels -/

/-- Events came in, were handed on or lost, and the rest is as it was. -/
structure Passes (into : Multiset AgentEvent) (fleet fleet' : Fleet) : Prop where
  controllers : fleet'.controllers = fleet.controllers
  daemons : fleet'.daemons = fleet.daemons
  host : fleet'.host = fleet.host
  requests : fleet'.requests = fleet.requests
  ahead : fleet.tasks <+: fleet'.tasks
  pending_le : fleet'.pending ≤ fleet.pending + into

theorem passes_self (into : Multiset AgentEvent) (fleet : Fleet) : Passes into fleet fleet :=
  ⟨rfl, rfl, rfl, rfl, List.prefix_rfl, Multiset.le_add_right _ _⟩

theorem Passes.trans {into into' : Multiset AgentEvent} {fleet'' : Fleet}
    (h : Passes into fleet fleet') (h' : Passes into' fleet' fleet'') :
    Passes (into + into') fleet fleet'' where
  controllers := h'.controllers.trans h.controllers
  daemons := h'.daemons.trans h.daemons
  host := h'.host.trans h.host
  requests := h'.requests.trans h.requests
  ahead := h.ahead.trans h'.ahead
  pending_le := by
    rw [← add_assoc]
    exact h'.pending_le.trans (add_le_add_left h.pending_le into')

/-- A task comes in with its event. -/
theorem passes_of_spawn (fleet : Fleet) (t : Task) :
    Passes ((Task.event? t).toList : List AgentEvent) fleet
      { fleet with tasks := fleet.tasks ++ [t] } where
  controllers := rfl
  daemons := rfl
  host := rfl
  requests := rfl
  ahead := List.prefix_append _ _
  pending_le := by
    have hevents : [t].filterMap Task.event? = (Task.event? t).toList := by
      cases h : Task.event? t <;> simp [h]
    rw [pending, pending, List.filterMap_append, hevents, ← Multiset.coe_add, add_assoc]

theorem leads_spawn_passes {failed : Interrupted → Fleet → Prop} (t : Task) :
    Leads (spawn t) fleet
      (fun _ fleet' => Passes ((Task.event? t).toList : List AgentEvent) fleet fleet') failed :=
  (leads_modify _).2 (passes_of_spawn fleet t)

/-- A channel takes in so much, and gives out what it does not keep, or less. -/
theorem passes_of_modify {f : Channel → Channel} {events : List AgentEvent}
    {into : Multiset AgentEvent}
    (hf : ∀ ch, fleet.channels[k]? = some ch →
      ((f ch).waiting : Multiset AgentEvent) + events ≤ (ch.waiting : Multiset AgentEvent) + into)
    (hmissing : fleet.channels[k]? = none → events = []) :
    Passes into fleet { fleet with
      channels := fleet.channels.modify k f
      tasks := fleet.tasks ++ events.map (.handle c) } where
  controllers := rfl
  daemons := rfl
  host := rfl
  requests := rfl
  ahead := List.prefix_append _ _
  pending_le := by
    have hevents : (events.map (Task.handle c)).filterMap Task.event? = events := by
      rw [List.filterMap_map]
      exact List.filterMap_some
    have hle : ((fleet.channels.modify k f).flatMap (·.waiting) : Multiset AgentEvent) + events ≤
        (fleet.channels.flatMap (·.waiting) : Multiset AgentEvent) + into := by
      apply flatMap_modify_le hf
      intro hnone
      rw [hmissing hnone]
      exact Multiset.zero_le into
    rw [pending, pending]
    dsimp only
    rw [List.filterMap_append, hevents, ← Multiset.coe_add, ← add_assoc, add_right_comm,
      add_right_comm _ _ into]
    exact add_le_add_left hle _

theorem leads_modifyChannel_passes {failed : Interrupted → Fleet → Prop} {f : Channel → Channel}
    {into : Multiset AgentEvent}
    (hf : ∀ ch, ((f ch).waiting : Multiset AgentEvent) ≤
      (ch.waiting : Multiset AgentEvent) + into) :
    Leads (modifyChannel k f) fleet (fun _ fleet' => Passes into fleet fleet') failed := by
  have hpasses : Passes into fleet { fleet with
      channels := fleet.channels.modify k f
      tasks := fleet.tasks ++ ([] : List AgentEvent).map (.handle 0) } := by
    apply passes_of_modify
    · intro ch _
      rw [Multiset.coe_nil, add_zero]
      exact hf ch
    · intro _
      rfl
  rw [List.map_nil, List.append_nil] at hpasses
  exact (leads_modify _).2 hpasses

theorem leads_spawnEvents {failed : Interrupted → Fleet → Prop} (events : List AgentEvent) :
    Leads (events.forM fun event => spawn (.handle c event)) fleet
      (fun _ fleet' =>
        fleet' = { fleet with tasks := fleet.tasks ++ events.map (.handle c) }) failed := by
  induction events generalizing fleet with
  | nil => exact (leads_pure _).2 (by simp)
  | cons event events ih =>
    rw [List.forM_eq_forM, List.forM_cons, leads_bind, spawn, leads_modify]
    apply ih.imp
    rintro _ fleet₁ rfl
    simp

/-- Who reads a channel hands on what waits in it, or loses it. -/
theorem leads_readEvents_passes {failed : Interrupted → Fleet → Prop} (k : Nat) :
    Leads (readEvents k) fleet (fun _ fleet' => Passes 0 fleet fleet') failed := by
  have hend : Leads (endReading k) fleet (fun _ fleet' => Passes 0 fleet fleet') failed :=
    leads_modifyChannel_passes fun _ => Multiset.zero_le _
  rw [readEvents, leads_bind, leads_get]
  cases hch : fleet.channels[k]? with
  | none => exact (leads_pure _).2 (passes_self 0 fleet)
  | some ch =>
    dsimp only
    split
    · exact hend
    split
    · split
      · exact (leads_pure _).2 (passes_self 0 fleet)
      · exact hend
    split
    · have hgives {f : Channel → Channel} (hf : (f ch).waiting = []) :
          Passes 0 fleet { fleet with
            channels := fleet.channels.modify k f
            tasks := fleet.tasks ++ ch.waiting.map (.handle ch.controller) } := by
        apply passes_of_modify
        · intro ch' hch'
          obtain rfl := Option.some.inj (hch.symm.trans hch')
          rw [hf, Multiset.coe_nil, zero_add, add_zero]
        · intro hnone
          cases hch.symm.trans hnone
      apply (leads_spawnEvents ch.waiting).bind
      rintro _ fleet₁ rfl
      split
      · exact (leads_modify _).2 (hgives rfl)
      · exact (leads_modify _).2 (hgives rfl)
    · exact hend

/-- An event that is reported comes into one channel, or into none. -/
theorem leads_emit_passes {i : Nat} {d : Daemon} {failed : Interrupted → Fleet → Prop}
    (hd : fleet.daemons[i]? = some d) (event : AgentEvent) :
    Leads (emit i event) fleet (fun _ fleet' => Passes {event} fleet fleet') failed := by
  have htakes {k : Nat} {f : Channel → Channel}
      (hf : ∀ ch, (f ch).waiting.Subperm (ch.waiting ++ [event])) :
      Leads (modifyChannel k f) fleet (fun _ fleet' => Passes {event} fleet fleet') failed :=
    leads_modifyChannel_passes fun ch => Multiset.coe_le.2 (hf ch)
  rw [emit, leads_daemon_bind hd]
  cases d.channel with
  | none => exact (leads_pure _).2 (passes_self _ fleet)
  | some k =>
    rw [leads_bind, leads_get]
    split
    · apply (htakes fun ch => (List.drop_sublist _ (ch.waiting ++ [event])).subperm).bind
      intro _ fleet₁ h₁
      rw [leads_bind, wake, leads_modify]
      refine (leads_pure _).2 ?_
      split
      · exact h₁
      · exact h₁.trans (passes_of_spawn fleet₁ (.readEvents k))
    · exact (leads_pure _).2 (passes_self _ fleet)

end WorkQueue.Fleet
