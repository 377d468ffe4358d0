import WorkQueue.Proofs.Store.Recounting
import WorkQueue.Store.Switches

/-!
# Autorun switched on

Whether autorun is on is read from the one record of the settings, whatever its id, while those who
listen look at single changes of records. Both agree where it matters: when autorun goes on, one
change says so, whether the store was told to or took over what others wrote, be it the same record,
another in its place or a first one.
-/

namespace WorkQueue.Settings

open Change (Covers)
open Record (Distinct find?)
open Store (Commit Committed Desk Idle TookOver)

/-- How many changes turn autorun on, as those see it who listen. -/
def enabling (events : List (Event Settings)) : Nat := events.countP Event.enablesAutorun

/-- Autorun was off and is on. -/
def GoesOn (s s' : Store Settings) : Prop := autorunOn s = false ∧ autorunOn s' = true

instance (s s' : Store Settings) : Decidable (GoesOn s s') := inferInstanceAs (Decidable (_ ∧ _))

variable {s s' : Store Settings} {host : Host} {r : Settings} {c : Change Settings}
  {desk : Desk Settings} {on : Bool} {n : Nat}

/-! ### The effective setting -/

theorem autorunOn_eq (s : Store Settings) :
    autorunOn s = (s.records.head?.map (·.autorun)).getD false := rfl

theorem autorunOn_of_singleton (h : s.records = [r]) : autorunOn s = r.autorun := by
  rw [autorunOn_eq, h]
  rfl

theorem nil_or_singleton {records : List Settings} (h : records.length ≤ 1) :
    records = [] ∨ ∃ r, records = [r] := by
  rw [← List.length_eq_zero_iff, ← List.length_eq_one_iff]
  omega

theorem distinct_of_length_le_one {records : List Settings} (h : records.length ≤ 1) :
    Distinct records := by
  obtain rfl | ⟨r, rfl⟩ := nil_or_singleton h
  · exact List.nodup_nil
  · exact List.nodup_singleton _

theorem exists_singleton_of_on (h : s.records.length ≤ 1) (hon : autorunOn s = true) :
    ∃ r, s.records = [r] ∧ r.autorun = true := by
  rcases nil_or_singleton h with h | ⟨r, h⟩
  · rw [autorunOn_eq, h] at hon
    cases hon
  · exact ⟨r, h, autorunOn_of_singleton h ▸ hon⟩

/-- Where autorun is off, no record has it on. -/
theorem any_find?_of_off (h : s.records.length ≤ 1) (hoff : autorunOn s = false) (id : String) :
    (find? s.records id).any (·.autorun) = false := by
  rw [Option.any_eq_false]
  intro r hr
  rcases nil_or_singleton h with h | ⟨x, h⟩
  · rw [h] at hr
    cases hr
  · rw [h] at hr
    have hsame : r = x := List.mem_singleton.1 (Record.mem_of_find? hr)
    rw [hsame, ← autorunOn_of_singleton h]
    exact hoff

theorem any_find?_singleton (hon : r.autorun = true) (id : String) :
    (find? [r] id).any (·.autorun) = true ↔ id = r.id := by
  by_cases hid : r.id = id
  · have hfound : find? [r] id = some r := List.find?_cons_of_pos (decide_eq_true hid)
    simp [hfound, hon, hid]
  · have hmissing : find? [r] id = none := List.find?_cons_of_neg (mt of_decide_eq_true hid)
    simp [hmissing, Ne.symm hid]

/-! ### Changes that turn autorun on -/

theorem enablesAutorun_eq :
    Event.enablesAutorun ⟨c, n⟩ = (c.value?.any (·.autorun) && !(c.before?.any (·.autorun))) := by
  cases c with
  | created record => exact (Bool.and_true _).symm
  | updated previous record => rfl
  | deleted record => rfl

/-- When autorun goes on, one change turns it on: that of the record which has it on then. -/
theorem enabling_eq_one {events : List (Event Settings)} (hold : s.records.length ≤ 1)
    (hnew : s'.records.length ≤ 1) (hgoes : GoesOn s s')
    (h : Covers s.records s'.records (events.map Event.change)) : enabling events = 1 := by
  obtain ⟨hoff, hon⟩ := hgoes
  obtain ⟨r, hr, hron⟩ := exists_singleton_of_on hnew hon
  have hchanges : enabling events = (events.map Event.change).countP
      fun c => Event.enablesAutorun ⟨c, 0⟩ := by
    rw [List.countP_map]
    rfl
  rw [hchanges, ← Finset.card_singleton r.id]
  apply h.countP_eq_card
  · intro c hc
    rw [enablesAutorun_eq, ← h.value?_eq hc, ← (h.legal hc).eq_before?,
      any_find?_of_off hold hoff, Bool.not_false, Bool.and_true, hr, any_find?_singleton hron,
      Finset.mem_singleton]
  · intro key hkey hsame
    obtain rfl := Finset.mem_singleton.1 hkey
    have hfound := (any_find?_singleton hron r.id).2 rfl
    rw [← hr, ← hsame, any_find?_of_off hold hoff] at hfound
    cases hfound

/-! ### Calls -/

/-- The one record says what was asked for, and so does the one event where autorun goes on. -/
structure Switched (s : Store Settings) (on : Bool) (r : Settings) (desk : Desk Settings) :
    Prop where
  records : desk.store.records = [r]
  autorun : r.autorun = on
  id : ∀ x ∈ s.records, r.id = x.id
  commits : ∃ k, desk.commits = [k] ∧ k.store = desk.store ∧
    enabling k.events = if GoesOn s desk.store then 1 else 0

/-- The event of a call turns autorun on where autorun goes on. -/
theorem Switched.of_committed {records : List Settings}
    (h : Committed ⟨s, host, []⟩ records c desk) (hr : records = [r]) (hvalue : c.value? = some r)
    (hbefore : c.before? = s.records.head?) (hid : ∀ x ∈ s.records, r.id = x.id) :
    Switched s r.autorun r desk := by
  have hrecords : desk.store.records = [r] := h.records_eq.trans hr
  refine ⟨hrecords, rfl, hid, _, h.commits, rfl, ?_⟩
  have hany : s.records.head?.any (·.autorun) = autorunOn s := by
    rw [autorunOn_eq]
    cases s.records <;> rfl
  rw [enabling, List.countP_singleton, enablesAutorun_eq, hvalue, hbefore, hany]
  simp [GoesOn, autorunOn_of_singleton hrecords, and_comm]

theorem leads_setAutorun_switched (hone : s.records.length ≤ 1) (on : Bool) :
    Leads (setAutorun on) ⟨s, host, []⟩ (fun r desk => Switched s on r desk)
      fun _ desk => Idle ⟨s, host, []⟩ desk := by
  unfold setAutorun
  rw [Store.leads_get_bind]
  rcases nil_or_singleton hone with h | ⟨x, h⟩
  · have hhead : s.list.head? = none := by
      change s.records.head? = none
      rw [h]
      rfl
    dsimp only
    rw [hhead]
    apply (Store.leads_createWith (R := Settings) globalId (⟨some on⟩ : Patch) _).mono
    · rintro r desk ⟨-, ⟨t, hr⟩, -, hcommitted⟩
      obtain rfl := Except.ok.inj hr
      exact .of_committed hcommitted (by rw [h]; rfl) rfl (by rw [h]; rfl) (by simp [h])
    · exact fun _ _ hidle => hidle
  · have hhead : s.list.head? = some x := by
      change s.records.head? = some x
      rw [h]
      rfl
    dsimp only
    rw [hhead]
    apply (Store.leads_updateWith (R := Settings) x.id (⟨some on⟩ : Patch) _).mono
    · rintro r desk ⟨i, previous, hi, -, -, ⟨patched, t, hpatch, -, -, rfl⟩, hcommitted⟩
      obtain rfl := Except.ok.inj hpatch
      have hmem : previous ∈ s.records := List.mem_of_getElem? hi
      rw [h, List.mem_singleton] at hmem
      have hlt : i < s.records.length := (List.getElem?_eq_some_iff.1 hi).1
      obtain rfl : i = 0 := by omega
      have hsame : ∀ y ∈ s.records, previous.id = y.id := by
        rw [h]
        rintro y hy
        rw [hmem, List.mem_singleton.1 hy]
      exact .of_committed hcommitted (by rw [h]; rfl) rfl (by rw [h, hmem]; rfl) hsame
    · exact fun _ _ hidle => hidle.1

/-- When autorun goes on there is one commit, and one event of it says so. -/
def Tells (s : Store Settings) (desk : Desk Settings) : Prop :=
  GoesOn s desk.store →
    ∃ k, desk.commits = [k] ∧ k.store = desk.store ∧ enabling k.events = 1

theorem not_goesOn_of_idle (h : Idle ⟨s, host, []⟩ desk) : ¬ GoesOn s desk.store := by
  rintro ⟨hoff, hon⟩
  rw [h.store, hoff] at hon
  cases hon

theorem Switched.tells (h : Switched s on r desk) : Tells s desk := by
  intro hgoes
  obtain ⟨k, hk, hstore, hevents⟩ := h.commits
  exact ⟨k, hk, hstore, hevents.trans (if_pos hgoes)⟩

theorem Switched.enabling_eq_zero (h : Switched s on r desk) (hgoes : ¬ GoesOn s desk.store) :
    enabling (desk.commits.flatMap Commit.events) = 0 := by
  obtain ⟨k, hk, -, hevents⟩ := h.commits
  rw [hk, List.flatMap_singleton, hevents, if_neg hgoes]

/-- What is taken over tells when autorun goes on. -/
theorem tells_of_tookOver {loaded : Index.Loaded Settings} (hold : s.records.length ≤ 1)
    (h : TookOver ⟨s, host, []⟩ loaded desk) (hnew : desk.store.records.length ≤ 1) :
    Tells s desk := by
  intro hgoes
  have hcovers : Covers s.records desk.store.records
      ((Change.events s.records loaded.records (s.revision + 1)).map Event.change) := by
    have hrecords : desk.store.records = loaded.records := by rw [h.store]
    rw [hrecords] at hnew ⊢
    rw [Change.changes_events]
    exact Change.covers_diff (distinct_of_length_le_one hold) (distinct_of_length_le_one hnew)
  have hone := enabling_eq_one hold hnew hgoes hcovers
  refine ⟨_, h.commits.trans (if_neg fun hsame => ?_), rfl, hone⟩
  -- without a difference there would be no event
  rw [Change.events, List.isEmpty_iff.1 hsame] at hone
  cases hone

/-- Settings of one record at most, before and after. When a call or what others wrote turns autorun
on, one event of the one commit says so. A call that does not turn it on makes no such event. A call
that is answered leaves one record, which keeps its id and says what was asked for; one that is
refused changes nothing. -/
theorem switching_on_is_told_once (hone : s.records.length ≤ 1) (host : Host) :
    (∀ on, Leads (setAutorun on) ⟨s, host, []⟩
      (fun r desk => Tells s desk ∧
        (¬ GoesOn s desk.store → enabling (desk.commits.flatMap Commit.events) = 0) ∧
        autorunOn desk.store = on ∧ desk.store.records = [r] ∧ ∀ x ∈ s.records, r.id = x.id)
      fun _ desk => desk.store = s ∧ desk.commits = []) ∧
    (∀ reading, Leads (Store.absorb reading) ⟨s, host, []⟩
      (fun _ desk => desk.store.records.length ≤ 1 → Tells s desk) fun _ _ => False) ∧
    Leads Store.reconcile ⟨s, host, []⟩
      (fun _ desk => desk.store.records.length ≤ 1 → Tells s desk)
      fun _ desk => desk.store = s ∧ desk.commits = [] := by
  refine ⟨fun on => ?call, fun reading => ?absorb, ?reconcile⟩
  case call =>
    apply (leads_setAutorun_switched hone on).mono
    · intro r desk h
      exact ⟨h.tells, h.enabling_eq_zero, (autorunOn_of_singleton h.records).trans h.autorun,
        h.records, h.id⟩
    · exact fun _ _ hidle => ⟨hidle.store, hidle.commits⟩
  case absorb =>
    apply (Store.leads_absorb reading).imp
    rintro _ desk (⟨-, -, rfl⟩ | ⟨-, -, htook⟩) hnew
    · exact fun hgoes => absurd hgoes (not_goesOn_of_idle .refl)
    · exact tells_of_tookOver hone htook hnew
  case reconcile =>
    apply Store.leads_reconcile.mono
    · rintro _ desk (hidle | ⟨loaded, -, htook⟩) hnew
      · exact fun hgoes => absurd hgoes (not_goesOn_of_idle hidle)
      · exact tells_of_tookOver hone htook hnew
    · exact fun _ _ hidle => ⟨hidle.store, hidle.commits⟩

/-- Others replace the record by another that has autorun on: of two events, one says so. Then the
store is told to switch autorun off, and the other record is kept. -/
theorem switching_on_is_told_once_replaced : ∃ (s : Store Settings) (host : Host)
    (reading : Store.Reading Settings) (desk desk' : Desk Settings) (r x y : Settings),
    s.records = [x] ∧ reading.loaded.records = [y] ∧ x.id ≠ y.id ∧
    Store.absorb reading ⟨s, host, []⟩ = .ok (.applied 2) desk ∧ GoesOn s desk.store ∧
    (∃ k, desk.commits = [k] ∧ k.store = desk.store ∧ enabling k.events = 1) ∧
    setAutorun false ⟨desk.store, desk.host, []⟩ = .ok r desk' ∧
    autorunOn desk'.store = false ∧ desk'.store.records = [r] ∧ r.id = y.id ∧
    enabling (desk'.commits.flatMap Commit.events) = 0 := by
  let x : Settings := ⟨"x", false, .epoch, .epoch⟩
  let y : Settings := ⟨"y", true, .epoch, .epoch⟩
  let s : Store Settings :=
    { index := .ofData Settings ⟨["data"], "/data"⟩, records := [x], digest := none }
  let host : Host := { ids := fun _ => "w", times := fun _ => .epoch }
  let reading : Store.Reading Settings := ⟨0, ⟨[y], none⟩⟩
  have hrun : ((Store.done? (Store.absorb reading ⟨s, host, []⟩)).bind fun a =>
      (Store.done? (setAutorun false ⟨a.2.store, a.2.host, []⟩)).map fun b =>
        (a.1, a.2.store.records, b.2.store.records)) =
      some (.applied 2, [y], [{ y with autorun := false }]) := by
    decide +kernel
  simp only [Option.bind_eq_some_iff, Option.map_eq_some_iff, Prod.exists, Prod.mk.injEq,
    Store.done?_eq_some] at hrun
  obtain ⟨_, desk, habsorb, r, desk', hset, rfl, hrecords, -⟩ := hrun
  have hfirst := switching_on_is_told_once (show s.records.length ≤ 1 by decide) host
  have hon : GoesOn s desk.store := ⟨rfl, autorunOn_of_singleton hrecords⟩
  have hone : desk.store.records.length ≤ 1 := by rw [hrecords]; decide
  have hnext := (switching_on_is_told_once hone desk.host).1 false
  obtain ⟨-, hnone, hoff, hkept, hid⟩ := hnext.of_ok hset
  refine ⟨s, host, reading, desk, desk', r, x, y, rfl, rfl, by decide, habsorb, hon,
    (hfirst.2.1 reading).of_ok habsorb hone hon, hset, hoff, hkept, hid y (by simp [hrecords]),
    hnone fun hgoes => ?_⟩
  have hfalse : false = true := hoff.symm.trans hgoes.2
  cases hfalse

end WorkQueue.Settings
