import Mathlib.Logic.Relation
import WorkQueue.Proofs.Daemon.Turn

/-!
# Passes of one controller at once

Any number of passes of a controller are under way, and one after another makes its next call. In
between, items are changed by calls that start nothing, and the rest of the fleet may change in any
way. From the moment at which a pass has found no item in progress it holds the controller, so that
no other pass starts an item before it ends.
-/

namespace WorkQueue

open Autorun
open Record (Distinct)
open Work (activeCount Aging Begun Calm)
open Fleet (Shares)

namespace Autorun

variable {v v' : Shared} {before after passes : List Stage} {s : Stage} {s' : Option Stage}

/-! ### The controller -/

/-- One pass holds the controller if any does, and no item has been started since it took it. -/
structure Guarded (v : Shared) (passes : List Stage) : Prop where
  one : activeCount v.works ≤ 1
  holders : passes.countP Stage.holds = v.processing.toNat
  idle : ∀ s ∈ passes, s.prepares = true → activeCount v.works = 0

theorem countP_holds_insert (new : List Stage) :
    (before ++ new ++ after).countP Stage.holds =
      (before ++ after).countP Stage.holds + new.countP Stage.holds := by
  simp only [List.countP_append]
  omega

theorem Guarded.processing (h : Guarded v passes) (hs : s ∈ passes) (holds : s.holds = true) :
    v.processing = true := by
  by_contra hfree
  have hnone := h.holders
  rw [Bool.eq_false_of_not_eq_true hfree] at hnone
  exact List.countP_eq_zero.1 hnone s hs holds

/-- No pass but the one that holds the controller does, and none does where it is free. -/
theorem Guarded.others (h : Guarded v (before ++ s :: after))
    (hs : s.holds = true ∨ v.processing = false) : ∀ t ∈ before ++ after, t.holds = false := by
  have hcount := h.holders
  rw [List.append_cons, countP_holds_insert] at hcount
  have hnone : (before ++ after).countP Stage.holds = 0 := by
    rcases hs with holds | hfree
    · have hle := Bool.toNat_le v.processing
      rw [List.countP_cons_of_pos holds] at hcount
      omega
    · rw [hfree] at hcount
      exact Nat.eq_zero_of_add_eq_zero_right hcount
  intro t ht
  exact Bool.eq_false_of_not_eq_true (List.countP_eq_zero.1 hnone t ht)

/-- Where no other pass holds the controller, the one that was called decides. -/
theorem guarded_of_others {new : List Stage} (one : activeCount v.works ≤ 1)
    (others : ∀ t ∈ before ++ after, t.holds = false)
    (holders : new.countP Stage.holds = v.processing.toNat)
    (idle : ∀ t ∈ new, t.prepares = true → activeCount v.works = 0) :
    Guarded v (before ++ new ++ after) where
  one := one
  holders := by
    have hnone : (before ++ after).countP Stage.holds = 0 :=
      List.countP_eq_zero.2 fun t ht holds => Bool.false_ne_true ((others t ht).symm.trans holds)
    rw [countP_holds_insert, hnone, holders, Nat.zero_add]
  idle := by
    intro t ht hprepares
    by_cases hnew : t ∈ new
    · exact idle t hnew hprepares
    · have hother : t ∈ before ++ after := by simpa [hnew] using ht
      exact absurd ((others t hother).symm.trans (Stage.holds_of_prepares hprepares)) nofun

theorem Guarded.turn (h : Guarded v (before ++ s :: after)) (turn : Turn v s v' s') :
    Guarded v' (before ++ s'.toList ++ after) := by
  have hmem : s ∈ before ++ s :: after := List.mem_append_right _ List.mem_cons_self
  cases turn with
  | @outside t hs ht =>
    refine ⟨h.one, ?_, ?_⟩
    · rw [← h.holders, List.append_cons, countP_holds_insert, countP_holds_insert]
      simp [hs, ht]
    · intro u hu hprepares
      have hne : u ≠ t := by
        rintro rfl
        exact absurd (ht.symm.trans (Stage.holds_of_prepares hprepares)) nofun
      have hbefore : u ∈ before ++ s :: after := by
        have hu : u ∈ before ∨ u ∈ after := by simpa [hne] using hu
        exact List.mem_append.2 (hu.imp_right (List.mem_cons_of_mem s))
      exact h.idle u hbefore hprepares
  | takes free ht idle =>
    apply guarded_of_others _ (h.others (Or.inr free))
    · simp [ht]
    · intro _ _ _
      exact idle
    · exact h.one
  | advances hs ht prepares =>
    apply guarded_of_others h.one (h.others (Or.inl hs))
    · simp [ht, h.processing hmem hs]
    · rintro _ ht hprepares
      obtain rfl := List.mem_singleton.1 ht
      exact h.idle s hmem (prepares hprepares)
  | starts hs ht working begun =>
    have holds := Stage.holds_of_prepares hs
    apply guarded_of_others _ (h.others (Or.inl holds))
    · simp [ht, Shared.moved, h.processing hmem holds]
    · rintro _ ht hprepares
      obtain rfl := List.mem_singleton.1 ht
      exact absurd (working.symm.trans hprepares) nofun
    · exact (begun.activeCount_eq.trans (congrArg (· + 1) (h.idle s hmem hs))).le
  | leaves holds hs' items =>
    apply guarded_of_others _ (h.others (Or.inl holds))
    · apply List.countP_eq_zero.2
      intro t ht
      rw [hs' t (Option.mem_toList.1 ht)]
      exact Bool.false_ne_true
    · intro t ht hprepares
      exact absurd ((hs' t (Option.mem_toList.1 ht)).symm.trans (Stage.holds_of_prepares hprepares))
        nofun
    · rcases items with rfl | ⟨hs, previous, next, begun⟩
      · exact h.one
      · exact (begun.activeCount_eq.trans (congrArg (· + 1) (h.idle s hmem hs))).le

theorem Guarded.calm {works : List Work} {supply : (Nat → String) × Nat} (h : Guarded v passes)
    (calm : Calm v.works v.supply works supply) : Guarded (v.moved works supply) passes where
  one := calm.active.trans h.one
  holders := h.holders
  idle s hs hprepares := Nat.le_zero.1 (calm.active.trans (h.idle s hs hprepares).le)

theorem Guarded.begins (h : Guarded v passes) : Guarded v (passes ++ [.settings]) where
  one := h.one
  holders := by
    rw [List.countP_append, h.holders]
    rfl
  idle := by
    intro s hs hprepares
    rcases List.mem_append.1 hs with hs | hs
    · exact h.idle s hs hprepares
    · obtain rfl := List.mem_singleton.1 hs
      cases hprepares

/-! ### What has been started -/

/-- The item is in progress, and none with its id was. -/
def isNewlyActive (works : List Work) (w : Work) : Bool :=
  w.status = .inProgress ∧ ∀ v ∈ works, v.id = w.id → v.status ≠ .inProgress

/-- The ids of the items that have moved to in progress. -/
def begunIds (works works' : List Work) : List String :=
  (works'.filter (isNewlyActive works)).map (·.id)

theorem isNewlyActive_iff {works : List Work} {w : Work} : isNewlyActive works w = true ↔
    w.status = .inProgress ∧ ∀ v ∈ works, v.id = w.id → v.status ≠ .inProgress :=
  decide_eq_true_iff

theorem filter_isNewlyActive_eq_nil {works ws : List Work} (h : ∀ w ∈ ws, w ∈ works) :
    ws.filter (isNewlyActive works) = [] := by
  rw [List.filter_eq_nil_iff]
  intro w hw hnew
  obtain ⟨hactive, hnone⟩ := isNewlyActive_iff.1 hnew
  exact hnone w (h w hw) rfl hactive

theorem begunIds_self (works : List Work) : begunIds works works = [] := by
  rw [begunIds, filter_isNewlyActive_eq_nil fun _ hw => hw]
  rfl

/-- The item that has begun is the only one. -/
theorem filter_isNewlyActive_of_begun {works works' : List Work} {previous next : Work}
    (h : Begun works previous next works') (hd : Distinct works) :
    works'.filter (isNewlyActive works) = [next] := by
  have hnext : isNewlyActive works next = true := by
    obtain ⟨hfound, -, hsame⟩ := Work.get?_of_edit h.edit
    refine isNewlyActive_iff.2 ⟨h.after, ?_⟩
    intro v hv hid
    have hv' : Record.find? works v.id = some v := hd.find?_of_mem hv
    rw [hid.trans hsame, hfound] at hv'
    rw [← Option.some.inj hv', h.before]
    nofun
  -- the items around it are as they were
  cases h.edit with
  | @updated before after _ _ first same =>
    have hleft : before.filter (isNewlyActive (before ++ previous :: after)) = [] :=
      filter_isNewlyActive_eq_nil fun w hw => List.mem_append_left _ hw
    have hright : after.filter (isNewlyActive (before ++ previous :: after)) = [] :=
      filter_isNewlyActive_eq_nil fun w hw =>
        List.mem_append_right before (List.mem_cons_of_mem _ hw)
    rw [List.filter_append, hleft, List.filter_cons_of_pos hnext, hright]
    rfl

theorem begunIds_of_begun {works works' : List Work} {previous next : Work}
    (h : Begun works previous next works') (hd : Distinct works) :
    begunIds works works' = [previous.id] := by
  obtain ⟨-, -, hsame⟩ := Work.get?_of_edit h.edit
  rw [begunIds, filter_isNewlyActive_of_begun h hd]
  exact congrArg (fun id => [id]) hsame

/-- What was started is not open, and neither these ids nor those in use come up again. -/
structure Logged (works : List Work) (supply : (Nat → String) × Nat) (started : List String) :
    Prop where
  ids : Function.Injective supply.1
  distinct : Distinct works
  unused : ∀ w ∈ works, ∀ n, supply.2 ≤ n → w.id ≠ supply.1 n
  past : ∀ id ∈ started, ∀ n, supply.2 ≤ n → id ≠ supply.1 n
  notOpen : ∀ w ∈ works, w.status = .open → w.id ∉ started
  nodup : started.Nodup

section Logged

variable {works works' : List Work} {supply supply' : (Nat → String) × Nat}
  {started : List String}

theorem Logged.aging (h : Logged works supply started)
    (aging : Aging works supply works' supply') : Logged works' supply' started where
  ids := aging.ids ▸ h.ids
  distinct := aging.distinct h.distinct
  unused := by
    intro w hw n hn
    have htaken := aging.taken
    rw [aging.ids]
    rcases aging.known w hw with ⟨u, hu, hid, -⟩ | ⟨m, -, hm, hid⟩
    · exact hid ▸ h.unused u hu n (htaken.trans hn)
    · rw [hid]
      intro heq
      obtain rfl := h.ids heq
      exact absurd hn (Nat.not_le_of_lt hm)
  past := by
    intro id hid n hn
    rw [aging.ids]
    exact h.past id hid n (aging.taken.trans hn)
  notOpen := by
    intro w hw hopen
    rcases aging.known w hw with ⟨u, hu, hid, hbefore⟩ | ⟨m, hm, -, hid⟩
    · exact hid ▸ h.notOpen u hu (hbefore hopen)
    · intro hstarted
      exact h.past w.id hstarted m hm hid
  nodup := h.nodup

theorem Logged.calm (h : Logged works supply started)
    (calm : Calm works supply works' supply') : Logged works' supply' started :=
  h.aging calm.aging

theorem Logged.begun {previous next : Work} (h : Logged works supply started)
    (begun : Begun works previous next works') :
    Logged works' supply (started ++ begunIds works works') := by
  obtain ⟨hfound, -, hsame⟩ := Work.get?_of_edit begun.edit
  have hprevious : previous ∈ works := Record.mem_of_find? hfound
  have hmem {w : Work} : w ∈ works' ↔ w = next ∨ w ∈ works ∧ w.id ≠ next.id :=
    (begun.edit.mem_iff h.distinct).trans (or_congr_left (Option.some_inj.trans eq_comm))
  rw [begunIds_of_begun begun h.distinct]
  constructor
  · exact h.ids
  · exact begun.edit.distinct h.distinct
  · intro w hw
    rcases hmem.1 hw with rfl | ⟨hw, -⟩
    · exact hsame ▸ h.unused previous hprevious
    · exact h.unused w hw
  · intro id hid
    rcases List.mem_append.1 hid with hid | hid
    · exact h.past id hid
    · exact List.mem_singleton.1 hid ▸ h.unused previous hprevious
  · intro w hw hopen hstarted
    rcases hmem.1 hw with rfl | ⟨hw, hne⟩
    · exact absurd (begun.after.symm.trans hopen) nofun
    · rcases List.mem_append.1 hstarted with hstarted | hid
      · exact h.notOpen w hw hopen hstarted
      · exact hne ((List.mem_singleton.1 hid).trans hsame.symm)
  · apply h.nodup.append (List.nodup_singleton _)
    rw [List.disjoint_singleton]
    exact h.notOpen previous hprevious begun.before

theorem Logged.turn (h : Logged v.works v.supply started) (turn : Turn v s v' s') :
    Logged v'.works v'.supply (started ++ begunIds v.works v'.works) := by
  have hsame : Logged v.works v.supply (started ++ begunIds v.works v.works) := by
    rw [begunIds_self, List.append_nil]
    exact h
  cases turn with
  | outside => exact hsame
  | advances => exact hsame
  | takes => exact hsame.calm (.of_eq rfl (Nat.le_succ _))
  | starts _ _ _ begun => exact h.begun begun
  | leaves _ _ items =>
    rcases items with rfl | ⟨-, previous, next, begun⟩
    · exact hsame
    · exact h.begun begun

end Logged

end Autorun

/-! ### Many passes -/

/-- The items of the daemon that a controller works for. -/
def Fleet.worksOf (c : Nat) (fleet : Fleet) : List Work :=
  ((fleet.controllers[c]?).bind fun x => fleet.daemons[x.daemon]?).elim [] (·.stores.work.records)

/-- Whether a controller is held by one of its passes. -/
def Fleet.isProcessing (c : Nat) (fleet : Fleet) : Bool :=
  (fleet.controllers[c]?).any (·.processing)

/-- A fleet with passes of one controller under way. -/
structure Flight where
  fleet : Fleet
  /-- where the passes stand that have begun, and were not interrupted -/
  passes : List Stage := []
  /-- the ids of the items that passes have moved to in progress, in this order -/
  started : List String := []

/-- Something has changed that is neither an item of the controller's daemon nor the controller:
other records, clocks, disks, what collaborators answer. -/
structure Fleet.Elsewhere (c : Nat) (fleet fleet' : Fleet) : Prop where
  controller : fleet'.controllers[c]? = fleet.controllers[c]?
  works : ∀ x, fleet.controllers[c]? = some x →
    (fleet'.daemons[x.daemon]?).map (·.stores.work) = (fleet.daemons[x.daemon]?).map (·.stores.work)
  ids : fleet'.host.ids = fleet.host.ids
  taken : fleet.host.minted ≤ fleet'.host.minted

namespace Flight

/-- One pass goes on with its next call, or the fleet changes between two calls. -/
inductive Move (c : Nat) : Flight → Flight → Prop where
  | begins (f : Flight) : Move c f { f with passes := f.passes ++ [.settings] }
  | calls {fleet fleet' : Fleet} {before after : List Stage} {s s' : Stage} {started : List String}
      (run : guardedStep c s fleet = .ok s' fleet') :
      Move c ⟨fleet, before ++ s :: after, started⟩
        ⟨fleet', before ++ s' :: after, started ++ begunIds (fleet.worksOf c) (fleet'.worksOf c)⟩
  | interrupted {fleet fleet' : Fleet} {before after : List Stage} {s : Stage}
      {started : List String} {e : Interrupted} (run : guardedStep c s fleet = .error e fleet') :
      Move c ⟨fleet, before ++ s :: after, started⟩
        ⟨fleet', before ++ after, started ++ begunIds (fleet.worksOf c) (fleet'.worksOf c)⟩
  | edits {f : Flight} {x : Controller} {q : Work.Request} {fleet' : Fleet}
      (controller : f.fleet.controllers[c]? = some x) (calm : q.Calms)
      (run : Ends (Fleet.perform x.daemon .work q.run) f.fleet fleet') :
      Move c f { f with fleet := fleet' }
  | elsewhere {f : Flight} {fleet' : Fleet} (elsewhere : f.fleet.Elsewhere c fleet') :
      Move c f { f with fleet := fleet' }

variable {c : Nat} {v : Shared} {fleet fleet' : Fleet} {f f' : Flight}

theorem worksOf_eq (h : Shares c v fleet) : fleet.worksOf c = v.works := by
  obtain ⟨x, hx, hdaemon, -⟩ := h.controller
  obtain ⟨d, hd, hworks⟩ := h.daemon
  simp [Fleet.worksOf, hx, hdaemon, hd, hworks]

theorem isProcessing_eq (h : Shares c v fleet) : fleet.isProcessing c = v.processing := by
  obtain ⟨x, hx, -, hprocessing⟩ := h.controller
  simp [Fleet.isProcessing, hx, hprocessing]

theorem shares_of_elsewhere (h : Shares c v fleet) (he : fleet.Elsewhere c fleet') :
    Shares c (v.moved v.works fleet'.host.supply) fleet' := by
  obtain ⟨x, hx, hdaemon, hprocessing⟩ := h.controller
  obtain ⟨d, hd, hworks⟩ := h.daemon
  have hsame := he.works x hx
  rw [hdaemon, hd] at hsame
  obtain ⟨d', hd', hstore⟩ := Option.map_eq_some_iff.1 hsame
  exact ⟨⟨x, he.controller.trans hx, hdaemon, hprocessing⟩,
    ⟨d', hd', (congrArg Store.records hstore).trans hworks⟩, rfl⟩

/-- What holds in every state. -/
structure Sound (c : Nat) (v : Shared) (f : Flight) : Prop where
  shares : Shares c v f.fleet
  guarded : Guarded v f.passes

/-- One move keeps what holds, and what has been started stays started once. -/
theorem Move.sound (h : Sound c v f) (m : Move c f f') :
    ∃ v', Sound c v' f' ∧
      (Logged v.works v.supply f.started → Logged v'.works v'.supply f'.started) := by
  obtain ⟨hshares, hguarded⟩ := h
  cases m with
  | begins => exact ⟨v, ⟨hshares, hguarded.begins⟩, fun hlogged => hlogged⟩
  | calls run =>
    obtain ⟨v', hshares', hturn⟩ := (Fleet.leads_guardedStep_turn hshares).of_ok run
    have hguarded' := hguarded.turn hturn
    refine ⟨v', ⟨hshares', by simpa using hguarded'⟩, ?_⟩
    rw [worksOf_eq hshares, worksOf_eq hshares']
    exact fun hlogged => hlogged.turn hturn
  | interrupted run =>
    obtain ⟨v', hshares', hturn⟩ := (Fleet.leads_guardedStep_turn hshares).of_error run
    have hguarded' := hguarded.turn hturn
    refine ⟨v', ⟨hshares', by simpa using hguarded'⟩, ?_⟩
    rw [worksOf_eq hshares, worksOf_eq hshares']
    exact fun hlogged => hlogged.turn hturn
  | edits controller calm run =>
    obtain ⟨x, hx, hdaemon, -⟩ := hshares.controller
    obtain rfl := Option.some.inj (controller.symm.trans hx)
    rw [hdaemon] at run
    obtain ⟨works, supply, hshares', hcalm⟩ := (Fleet.leads_perform_calm calm hshares).of_ends run
    exact ⟨_, ⟨hshares', hguarded.calm hcalm⟩, fun hlogged => hlogged.calm hcalm⟩
  | @elsewhere _ fleet' he =>
    have hcalm : Calm v.works v.supply v.works fleet'.host.supply := by
      rw [← hshares.supply]
      exact .of_eq he.ids he.taken
    exact ⟨_, ⟨shares_of_elsewhere hshares he, hguarded.calm hcalm⟩,
      fun hlogged => hlogged.calm hcalm⟩

theorem sound_of_run (h : Sound c v f) (hrun : Relation.ReflTransGen (Move c) f f') :
    ∃ v', Sound c v' f' ∧
      (Logged v.works v.supply f.started → Logged v'.works v'.supply f'.started) := by
  induction hrun with
  | refl => exact ⟨v, h, fun hlogged => hlogged⟩
  | tail _ m ih =>
    obtain ⟨v₁, h₁, hlogged₁⟩ := ih
    obtain ⟨v₂, h₂, hlogged₂⟩ := m.sound h₁
    exact ⟨v₂, h₂, fun hlogged => hlogged₂ (hlogged₁ hlogged)⟩

/-! ### Schedules -/

/-- Lets the pass at a place make its next call, unless a listener interrupts it. -/
def call (c k : Nat) (f : Flight) : Option Flight := do
  let s ← f.passes[k]?
  let (s', fleet) ← Store.done? (guardedStep c s f.fleet)
  return {
    fleet, passes := f.passes.set k s'
    started := f.started ++ begunIds (f.fleet.worksOf c) (fleet.worksOf c) }

/-- Lets the passes at these places make their calls in turn. -/
def follow (c : Nat) : List Nat → Flight → Option Flight
  | [], f => some f
  | k :: ks, f => (call c k f).bind (follow c ks)

theorem move_of_call {k : Nat} (h : call c k f = some f') : Move c f f' := by
  simp only [call, Option.bind_eq_bind, Option.bind_eq_some_iff, Prod.exists, Option.pure_def,
    Option.some.injEq, Store.done?_eq_some] at h
  obtain ⟨s, hs, s', fleet, run, rfl⟩ := h
  have hlt := (List.getElem?_eq_some_iff.1 hs).1
  obtain ⟨fleet₀, passes, started⟩ := f
  rw [List.set_eq_take_append_cons_drop, if_pos hlt]
  have hmove : Move c ⟨fleet₀, passes.take k ++ s :: passes.drop (k + 1), started⟩ _ := .calls run
  rwa [← Store.split_at hs] at hmove

theorem moves_of_follow {ks : List Nat} (h : follow c ks f = some f') :
    Relation.ReflTransGen (Move c) f f' := by
  induction ks generalizing f with
  | nil => exact Option.some.inj h ▸ .refl
  | cons k ks ih =>
    obtain ⟨f₁, hcall, hrest⟩ := Option.bind_eq_some_iff.1 h
    exact .head (move_of_call hcall) (ih hrest)

/-! ### Single flight -/

/-- Passes of one controller start one item at a time, each of them at most once, and the controller
is held by at most one of them, by none when all have ended. -/
theorem single_flight (site : Site) (free : site.controller.processing = false)
    (one : activeCount site.daemon.stores.work.records ≤ 1)
    (hrun : Relation.ReflTransGen (Move site.number) { fleet := site.fleet } f) :
    activeCount (f.fleet.worksOf site.number) ≤ 1 ∧
    f.passes.countP Stage.holds ≤ 1 ∧
    (f.fleet.isProcessing site.number = true ↔ ∃ s ∈ f.passes, s.holds = true) ∧
    ((∀ s ∈ f.passes, ∃ result, s = .ended result) →
      f.fleet.isProcessing site.number = false) ∧
    (Distinct site.daemon.stores.work.records → Function.Injective site.fleet.host.ids →
      (∀ w ∈ site.daemon.stores.work.records, ∀ n, site.fleet.host.minted ≤ n →
        w.id ≠ site.fleet.host.ids n) →
      f.started.Nodup) := by
  let v : Shared := {
    daemon := site.controller.daemon
    processing := false
    works := site.daemon.stores.work.records
    supply := site.fleet.host.supply }
  have hstart : Sound site.number v { fleet := site.fleet } :=
    ⟨⟨⟨site.controller, site.controller_eq, rfl, free⟩, ⟨site.daemon, site.daemon_eq, rfl⟩, rfl⟩,
      ⟨one, rfl, fun _ hs => nomatch hs⟩⟩
  obtain ⟨v', ⟨hshares, hguarded⟩, hlogged⟩ := sound_of_run hstart hrun
  have hholders : v'.processing = true ↔ ∃ s ∈ f.passes, s.holds = true := by
    rw [← List.countP_pos_iff, hguarded.holders]
    cases v'.processing <;> simp
  rw [worksOf_eq hshares, isProcessing_eq hshares]
  refine ⟨hguarded.one, hguarded.holders ▸ Bool.toNat_le _, hholders, ?_, ?_⟩
  · intro hended
    apply Bool.eq_false_of_not_eq_true
    rw [hholders]
    rintro ⟨s, hs, holds⟩
    obtain ⟨result, rfl⟩ := hended s hs
    cases holds
  · intro hdistinct hids hunused
    have hnothing : Logged v.works v.supply [] :=
      ⟨hids, hdistinct, hunused, fun _ h => (nomatch h), fun _ _ _ h => (nomatch h), List.nodup_nil⟩
    exact (hlogged hnothing).nodup

/-- Two passes at once: the second finds the controller held, and the first starts an item. -/
theorem single_flight_pair : ∃ (site : Site) (f : Flight),
    site.controller.processing = false ∧ f.passes.length = 2 ∧
    Relation.ReflTransGen (Move site.number) { fleet := site.fleet } f ∧
    f.started = ["w"] ∧
    activeCount (f.fleet.worksOf site.number) = 1 ∧ f.fleet.isProcessing site.number = false ∧
    f.started.Nodup := by
  let data : Location := ⟨["data"], "/data"⟩
  let w : Work := ⟨"w", .task, none, "w", "", .open, some "r", none, .zero, .epoch, .epoch⟩
  let r : Role := ⟨"r", "r", "", .epoch, .epoch⟩
  let stores : PerEntity fun e => Store e.Rec := {
    work := { index := .ofData Work data, records := [w], digest := none }
    role := { index := .ofData Role data, records := [r], digest := none }
    command := { index := .ofData Snippet data, records := [], digest := none }
    session := { index := .ofData Session data, records := [], digest := none }
    settings := { index := .ofData Settings data, records := [], digest := none } }
  let d : Daemon := { name := "d", data, stores, outside := { autorun := some true } }
  let c : Controller := { daemon := 0, asksOutside := true, continueMessage := "" }
  let site : Site := {
    fleet := {
      host := {
        ids := fun n => String.ofList (List.replicate (n + 1) 's')
        times := fun _ => .epoch }
      daemons := [d]
      controllers := [c] }
    number := 0
    controller := c
    daemon := d
    controller_eq := rfl
    daemon_eq := rfl }
  have hchecked : (follow 0 [0, 1, 0, 0, 0] ⟨site.fleet, [.settings, .settings], []⟩).map (fun f =>
      (f.passes.length, f.started, activeCount (f.fleet.worksOf 0), f.fleet.isProcessing 0)) =
      some (2, ["w"], 1, false) := by
    decide +kernel
  obtain ⟨f, hfollow, hf⟩ := Option.map_eq_some_iff.1 hchecked
  obtain ⟨hpasses, hstarted, hactive, hfree⟩ := by
    simpa only [Prod.mk.injEq] using hf
  have hbegin : Relation.ReflTransGen (Move 0) { fleet := site.fleet }
      ⟨site.fleet, [.settings, .settings], []⟩ :=
    .tail (.single (.begins { fleet := site.fleet })) (.begins ⟨site.fleet, [.settings], []⟩)
  have hrun := hbegin.trans (moves_of_follow hfollow)
  have hids : Function.Injective site.fleet.host.ids := by
    intro m n h
    have hlength := congrArg List.length (String.ofList_injective h)
    simpa using hlength
  have hunused : ∀ u ∈ site.daemon.stores.work.records, ∀ n, site.fleet.host.minted ≤ n →
      u.id ≠ site.fleet.host.ids n := by
    intro u hu n _ hid
    obtain rfl := List.mem_singleton.1 hu
    have hfirst := congrArg (fun s => s.toList.head?) hid
    revert hfirst
    simp [site, List.replicate_succ, w]
  have hsingle := single_flight site rfl (by decide) hrun
  exact ⟨site, f, rfl, hpasses, hrun, hstarted, hactive, hfree,
    hsingle.2.2.2.2 (by decide) hids hunused⟩

end Flight

end WorkQueue
