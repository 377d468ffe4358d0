import Mathlib.Algebra.Ring.Nat
import WorkQueue.Proofs.Daemon.Calls

/-!
# Passes that a commit brings

A controller that listens to a store puts a pass into the queue for each event that sets autorun
going, and for no other. Whoever else listens, a commit therefore brings as many passes as it has
such events, as long as no listener fails.
-/

namespace WorkQueue.Fleet

open Autorun

/-- How many passes of a controller wait to be run. -/
def passes (c : Nat) (fleet : Fleet) : Nat := fleet.tasks.count (.pass c)

/-- How many events set autorun going. -/
def triggering (e : Entity) (events : List (Event e.Rec)) : Nat := events.countP (triggers e)

/-- The controller is held, these listen to this store of the daemon, and so many passes wait. -/
structure Attends (c i : Nat) (e : Entity) (ls : List Listener) (s : Store e.Rec) (n : Nat)
    (fleet : Fleet) : Prop where
  held : (fleet.controllers[c]?).any (·.held) = true
  daemon : ∃ d, fleet.daemons[i]? = some d ∧ d.listeners.get e = ls ∧ d.stores.get e = s
  passes : fleet.passes c = n

variable {c i n : Nat} {e : Entity} {ls : List Listener} {s : Store e.Rec} {fleet : Fleet}

theorem triggering_append (events events' : List (Event e.Rec)) :
    triggering e (events ++ events') = triggering e events + triggering e events' :=
  List.countP_append

theorem triggering_cons (event : Event e.Rec) (events : List (Event e.Rec)) :
    triggering e (event :: events) = triggering e [event] + triggering e events :=
  triggering_append [event] events

namespace Attends

theorem isAlive (h : fleet.Attends c i e ls s n) : fleet.isAlive c = true := by
  rw [Fleet.isAlive, h.held, Bool.true_or]

theorem modifyDaemon (h : fleet.Attends c i e ls s n) {s' : Store e.Rec} {f : Daemon → Daemon}
    (hls : ∀ d, (f d).listeners = d.listeners)
    (hs : ∀ d, d.stores.get e = s → (f d).stores.get e = s') :
    Attends c i e ls s' n { fleet with daemons := fleet.daemons.modify i f } := by
  obtain ⟨hheld, ⟨d, hd, hd', hs₀⟩, hpasses⟩ := h
  refine ⟨hheld, ⟨f d, ?_, by rw [hls, hd'], hs d hs₀⟩, hpasses⟩
  rw [List.getElem?_modify, hd]
  simp

theorem joined (h : fleet.Attends c i e ls s n) (t : Task) :
    Attends c i e ls s (n + [t].count (.pass c)) { fleet with tasks := fleet.tasks ++ [t] } := by
  refine ⟨h.held, h.daemon, ?_⟩
  rw [← h.passes]
  exact List.count_append

/-! ### One event -/

/-- A listener brings a pass if it is that of the controller and the event sets autorun going. -/
theorem leads_callListener (h : fleet.Attends c i e ls s n) (event : Event e.Rec) {l : Listener}
    (hl : l ≠ .failOnce) :
    Leads (callListener i e event l) fleet
      (fun _ fleet' =>
        fleet'.Attends c i e ls s (n + [l].count (.autorun c) * triggering e [event]))
      fun _ _ => False := by
  have hother (hne : l ≠ .autorun c) : n + [l].count (.autorun c) * triggering e [event] = n := by
    simp [hne]
  cases l with
  | failOnce => exact absurd rfl hl
  | journal =>
    obtain ⟨d, hd, -⟩ := h.daemon
    rw [callListener, leads_daemon_bind hd, leads_modify, hother (by simp)]
    exact ⟨h.held, h.daemon, h.passes⟩
  | notifier slot =>
    rw [callListener, modifyNotifier, modifyNotifiers, Fleet.modifyDaemon, leads_bind, leads_modify,
      wake, leads_modify, hother (by simp)]
    have hqueued : Attends c i e ls s n { fleet with daemons := fleet.daemons.modify i fun d =>
        { d with
          notifiers := d.notifiers.set e ((d.notifiers.get e).modify slot (·.publish event)) } } :=
      h.modifyDaemon (fun _ => rfl) fun _ hs => hs
    split
    · exact hqueued
    · exact hqueued.joined (.dispatch i e slot)
  | autorun c' =>
    rw [callListener, leads_bind, leads_get]
    by_cases hc : c' = c
    · subst hc
      rw [List.count_singleton_self, Nat.one_mul, h.isAlive, Bool.and_true]
      by_cases ht : triggers e event = true
      · rw [if_pos ht, triggering, List.countP_singleton, if_pos ht, spawn, leads_modify]
        simpa using h.joined (.pass c')
      · rw [if_neg ht, triggering, List.countP_singleton, if_neg ht]
        exact h
    · rw [hother fun he => hc (Listener.autorun.inj he)]
      split
      · rw [spawn, leads_modify]
        simpa [hc] using h.joined (.pass c')
      · exact h

/-- What each element of a list adds to the number of passes. -/
theorem leads_forM {α : Type} {f : α → FleetM PUnit} {amount : α → Nat} {xs : List α}
    (hf : ∀ x ∈ xs, ∀ (m : Nat) (fleet : Fleet), fleet.Attends c i e ls s m →
      Leads (f x) fleet (fun _ fleet' => fleet'.Attends c i e ls s (m + amount x)) fun _ _ => False)
    (h : fleet.Attends c i e ls s n) :
    Leads (forM xs f) fleet (fun _ fleet' => fleet'.Attends c i e ls s (n + (xs.map amount).sum))
      fun _ _ => False := by
  induction xs generalizing fleet n with
  | nil => exact (leads_pure _).2 h
  | cons x xs ih =>
    rw [List.forM_cons]
    apply (hf x List.mem_cons_self n fleet h).bind
    intro _ fleet₁ h₁
    rw [List.map_cons, List.sum_cons, ← Nat.add_assoc]
    exact ih (fun y hy => hf y (List.mem_cons_of_mem x hy)) h₁

theorem leads_callListeners (h : fleet.Attends c i e ls s n) (event : Event e.Rec)
    (hls : .failOnce ∉ ls) :
    Leads (ls.forM (callListener i e event)) fleet
      (fun _ fleet' => fleet'.Attends c i e ls s (n + ls.count (.autorun c) * triggering e [event]))
      fun _ _ => False := by
  have hsum (ls : List Listener) :
      (ls.map fun l => [l].count (.autorun c) * triggering e [event]).sum =
        ls.count (.autorun c) * triggering e [event] := by
    induction ls with
    | nil => simp
    | cons l ls ih =>
      rw [List.map_cons, List.sum_cons, ih, ← Nat.add_mul, ← List.count_append,
        List.singleton_append]
  rw [← hsum]
  apply leads_forM _ h
  intro l hl m fleet₁ h₁
  exact h₁.leads_callListener event fun he => hls (he ▸ hl)

/-! ### One commit -/

theorem leads_setStore {failed : Interrupted → Fleet → Prop} (h : fleet.Attends c i e ls s n)
    (s' : Store e.Rec) :
    Leads (Fleet.modifyDaemon i fun d => { d with stores := d.stores.set e s' }) fleet
      (fun _ fleet' => fleet'.Attends c i e ls s' n) failed := by
  apply (leads_modify _).2
  exact h.modifyDaemon (fun _ => rfl) fun d _ => PerEntity.get_set d.stores e s'

/-- A commit brings as many passes as it has events that set autorun going. -/
theorem leads_announce (h : fleet.Attends c i e ls s n) (hls : .failOnce ∉ ls)
    (k : Store.Commit e.Rec) :
    Leads (announce i e k) fleet
      (fun _ fleet' => fleet'.Attends c i e ls k.store
        (n + ls.count (.autorun c) * triggering e k.events))
      fun _ _ => False := by
  have hsum (events : List (Event e.Rec)) :
      (events.map fun event => ls.count (.autorun c) * triggering e [event]).sum =
        ls.count (.autorun c) * triggering e events := by
    induction events with
    | nil => rfl
    | cons event events ih =>
      rw [List.map_cons, List.sum_cons, ih, triggering_cons event events, Nat.mul_add]
  rw [announce]
  apply (h.leads_setStore k.store).bind
  intro _ fleet₁ h₁
  rw [leads_bind, leads_modify]
  have h₂ : Attends c i e ls k.store n { fleet₁ with host := k.host } :=
    ⟨h₁.held, h₁.daemon, h₁.passes⟩
  obtain ⟨d, hd, hd', -⟩ := h₂.daemon
  rw [leads_daemon_bind hd, hd', ← hsum]
  apply leads_forM _ h₂
  intro event _ m fleet₃ h₃
  exact h₃.leads_callListeners event hls

/-! ### One call -/

theorem leads_announceAll (h : fleet.Attends c i e ls s n) (hls : .failOnce ∉ ls)
    (ks : List (Store.Commit e.Rec)) :
    Leads (forM ks (announce i e)) fleet
      (fun _ fleet' => fleet'.Attends c i e ls ((ks.getLast?.map (·.store)).getD s)
        (n + ls.count (.autorun c) * triggering e (ks.flatMap Store.Commit.events)))
      fun _ _ => False := by
  induction ks generalizing fleet s n with
  | nil => exact (leads_pure _).2 h
  | cons k ks ih =>
    rw [List.forM_cons]
    apply (h.leads_announce hls k).bind
    intro _ fleet₁ h₁
    rw [List.flatMap_cons, triggering_append, Nat.mul_add, ← Nat.add_assoc]
    have hlast : (((k :: ks).getLast?).map (·.store)).getD s =
        ((ks.getLast?).map (·.store)).getD k.store := by
      cases ks <;> simp [List.getLast?_cons]
    rw [hlast]
    exact ih h₁

theorem leads_perform {α : Type} {call : StoreM e.Rec α} {done : α → Store.Desk e.Rec → Prop}
    {refused : StoreError → Store.Desk e.Rec → Prop} (h : fleet.Attends c i e ls s n)
    (hls : .failOnce ∉ ls) (hcall : Leads call ⟨s, fleet.host, []⟩ done refused) :
    Leads (perform i e call) fleet
      (fun result fleet' => ∃ desk,
        fleet'.Attends c i e ls desk.store
          (n + ls.count (.autorun c) * triggering e (desk.commits.flatMap Store.Commit.events)) ∧
        ((∃ x, result = .ok x ∧ done x desk) ∨ ∃ err, result = .error err ∧ refused err desk))
      fun _ _ => False := by
  have hend (result : Except StoreError α) (desk : Store.Desk e.Rec) :
      Leads (conclude i e desk result) fleet
        (fun result' fleet' => result' = result ∧ fleet'.Attends c i e ls desk.store
          (n + ls.count (.autorun c) * triggering e (desk.commits.flatMap Store.Commit.events)))
        fun _ _ => False := by
    apply (h.leads_announceAll hls desk.commits).bind
    intro _ fleet₁ h₁
    apply (h₁.leads_setStore desk.store).bind
    intro _ fleet₂ h₂
    rw [leads_bind, leads_modify]
    exact (leads_pure _).2 ⟨rfl, h₂.held, h₂.daemon, h₂.passes⟩
  obtain ⟨d₀, hd₀, -, hs⟩ := h.daemon
  apply leads_perform_of
  · intro hmissing
    cases hd₀.symm.trans hmissing
  intro d hd
  obtain rfl := Option.some.inj (hd.symm.trans hd₀)
  rw [hs]
  apply hcall.mono
  · intro x desk hdone
    apply (hend (.ok x) desk).imp
    rintro _ fleet₁ ⟨rfl, h₁⟩
    exact ⟨desk, h₁, Or.inl ⟨x, rfl, hdone⟩⟩
  · intro err desk hrefused
    apply (hend (.error err) desk).imp
    rintro _ fleet₁ ⟨rfl, h₁⟩
    exact ⟨desk, h₁, Or.inr ⟨err, rfl, hrefused⟩⟩

end Attends

end WorkQueue.Fleet
