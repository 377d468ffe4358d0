import Mathlib.Logic.Function.Basic
import WorkQueue.Proofs.Store.Processes

/-!
# Several processes on one data directory

A write replaces the whole index by what its process has in memory. A record therefore stays on disk
with its last value exactly as long as nobody changes another record without knowing that value:
whoever does so drops the record, or takes it back to what he knew of it.
-/

namespace WorkQueue.Store

variable {R : Type} [Record R]

theorem find?_append_cons {before after : List R} {r : R} {id : String} :
    Record.find? (before ++ r :: after) id =
      ((Record.find? before id).or (if Record.id r = id then some r else none)).or
        (Record.find? after id) := by
  unfold Record.find?
  rw [List.find?_append, List.find?_cons]
  by_cases hid : Record.id r = id
  · simp [hid]
  · simp [hid]

theorem Edit.find?_of_ne {records records' : List R} {change : Change R} {id : String}
    (h : Edit records records' change) (hid : Record.id change.record ≠ id) :
    Record.find? records' id = Record.find? records id := by
  cases h with
  | @created _ r fresh =>
    have hr : Record.id r ≠ id := hid
    rw [find?_append_cons, if_neg hr, Option.or_none]
    exact Option.or_none
  | @updated _ _ previous next first same =>
    have hnext : Record.id next ≠ id := hid
    have hprevious : Record.id previous ≠ id := same ▸ hnext
    rw [find?_append_cons, find?_append_cons, if_neg hnext, if_neg hprevious]
  | @deleted _ _ removed first =>
    have hremoved : Record.id removed ≠ id := hid
    rw [find?_append_cons, if_neg hremoved, Option.or_none]
    exact List.find?_append

theorem find?_created {records : List R} {r : R}
    (fresh : Record.find? records (Record.id r) = none) :
    Record.find? (records ++ [r]) (Record.id r) = some r := by
  rw [find?_append_cons, fresh]
  simp

theorem find?_updated {before after : List R} {previous next : R}
    (first : ∀ r ∈ before, Record.id r ≠ Record.id previous)
    (same : Record.id next = Record.id previous) :
    Record.find? (before ++ next :: after) (Record.id next) = some next := by
  have hbefore : Record.find? before (Record.id next) = none :=
    List.find?_eq_none.2 fun r hr => by simpa [same] using first r hr
  rw [find?_append_cons, hbefore]
  simp

/-! ### Worlds -/

/-- The values that are known to have been given out, with an answer taken into account. -/
def Answer.recall (last : String → Option R) : Answer R → String → Option R
  | created r => fun id => if Record.id r = id then some r else last id
  | updated r => fun id => if Record.id r = id then some r else last id
  | deleted r => fun id => if Record.id r = id then none else last id
  | reconciled _ => last

theorem Answer.recall_of_ne {last : String → Option R} {a : Answer R} {r : R} {id : String}
    (h : a.record? = some r) (hid : Record.id r ≠ id) : a.recall last id = last id := by
  cases a with
  | reconciled => rfl
  | _ => obtain rfl := Option.some.inj h; exact if_neg hid

/-- A change leaves each record with the value that its answer lets recall, where that was so
before. -/
theorem Edit.find?_recall {records records' : List R} {change : Change R} {a : Answer R}
    {last : String → Option R} {id : String} {r : R} (h : Edit records records' change)
    (tells : a.Tells change) (hr : a.recall last id = some r)
    (hknown : Record.id change.record ≠ id → last id = some r → Record.find? records id = some r) :
    Record.find? records' id = some r := by
  by_cases hid : Record.id change.record = id
  · subst hid
    cases tells with
    | created =>
      cases h with
      | created fresh =>
        obtain rfl := Option.some.inj ((if_pos rfl).symm.trans hr)
        exact find?_created fresh
    | updated =>
      cases h with
      | updated first same =>
        obtain rfl := Option.some.inj ((if_pos rfl).symm.trans hr)
        exact find?_updated first same
    | deleted => exact absurd ((if_pos rfl).symm.trans hr) (by simp)
  · rw [Answer.recall_of_ne tells.record?_eq hid] at hr
    rw [h.find?_of_ne hid]
    exact hknown hid hr

structure World (R : Type) where
  host : Host
  processes : Nat → Option (Process R) := fun _ => none
  /-- what the last successful call of any process left of a record -/
  last : String → Option R := fun _ => none

namespace World

/-- The world after a step of a process. -/
def acted (w : World R) (n : Nat) (a : Option (Answer R)) (p : Process R) (host : Host) :
    World R where
  host := host
  processes := Function.update w.processes n (some p)
  last := match a with
    | some a => a.recall w.last
    | none => w.last

/-- Stores are opened, used and dropped in any order. What else happens on the host leaves the index
alone. -/
inductive Step (data : Location) (w : World R) : World R → Prop where
  | opened {n : Nat} {s : Store R} {host : Host} (free : w.processes n = none)
      (run : Store.open data w.host = .ok s host) :
      Step data w { w with host, processes := Function.update w.processes n (some ⟨s, []⟩) }
  | acted {n : Nat} {p p' : Process R} {a : Option (Answer R)} {commits : List (Commit R)}
      {host : Host} (found : w.processes n = some p) (step : p.Step w.host a commits p' host) :
      Step data w (w.acted n a p' host)
  | dropped (n : Nat) : Step data w { w with processes := Function.update w.processes n none }
  | outside {host : Host} (same : host.disk.content? (Index.ofData R data).file.path =
      w.host.disk.content? (Index.ofData R data).file.path) : Step data w { w with host }

omit [Record R] in
theorem eq_or_eq_of_update {processes : Nat → Option (Process R)} {n m : Nat}
    {q : Option (Process R)} {p : Process R} (h : Function.update processes n q m = some p) :
    q = some p ∨ processes m = some p := by
  rw [Function.update_apply] at h
  split at h
  · exact Or.inl h
  · exact Or.inr h

/-- The processes share the index, and the times in their memories are those of instants. -/
def Shared (data : Location) (w : World R) : Prop :=
  ∀ n p, w.processes n = some p → p.store.index = Index.ofData R data ∧ p.Regular

/-- The record is on disk with its last value, unless it was never given out or was deleted. -/
def Present (data : Location) (id : String) (w : World R) : Prop :=
  ∀ r, w.last id = some r → ∃ loaded,
    (Index.ofData R data).Holds w.host.disk loaded ∧ Record.find? loaded.records id = some r

/-- A process has changed another record without knowing the last value of this one. -/
inductive Overwrites (id : String) (w : World R) : World R → Prop where
  | intro {n : Nat} {p p' : Process R} {a : Answer R} {commits : List (Commit R)} {host : Host}
      {other r : R} (found : w.processes n = some p)
      (step : p.Step w.host (some a) commits p' host) (changed : a.record? = some other)
      (hother : Record.id other ≠ id) (last : w.last id = some r)
      (unknown : Record.find? p.store.records id ≠ some r) :
      Overwrites id w (w.acted n (some a) p' host)

variable {data : Location} {id : String} {w w' : World R}

theorem Present.of_same (h : Present data id w) (hlast : w'.last = w.last)
    (hc : w'.host.disk.content? (Index.ofData R data).file.path =
      w.host.disk.content? (Index.ofData R data).file.path) : Present data id w' := by
  intro r hr
  rw [hlast] at hr
  obtain ⟨loaded, hholds, hfind⟩ := h r hr
  exact ⟨loaded, hholds.of_content?_eq hc, hfind⟩

theorem content?_of_open {s : Store R} {host host' : Host}
    (hopen : Store.open data host = .ok s host') :
    s.index = Index.ofData R data ∧ host'.disk.content? (Index.ofData R data).file.path =
      host.disk.content? (Index.ofData R data).file.path := by
  obtain ⟨loaded, disk, hread, rfl, rfl⟩ := eq_of_open hopen
  exact ⟨rfl, (Index.leads_indexRead.of_ok hread).1.content?_eq⟩

variable [LawfulRecord R]

theorem Step.shared (hs : Step data w w') (hw : w.Shared data) : w'.Shared data := by
  intro m q hq
  cases hs with
  | opened _ run =>
    rcases eq_or_eq_of_update hq with h | h
    · obtain rfl := Option.some.inj h
      exact ⟨(content?_of_open run).1, Process.regular_of_open run⟩
    · exact hw m q h
  | acted found step =>
    rcases eq_or_eq_of_update hq with h | h
    · obtain rfl := Option.some.inj h
      obtain ⟨hindex, hregular⟩ := hw _ _ found
      exact ⟨step.index_eq.trans hindex, step.regular hregular⟩
    · exact hw m q h
  | dropped n =>
    rcases eq_or_eq_of_update hq with h | h
    · cases h
    · exact hw m q h
  | outside => exact hw m q hq

theorem Overwrites.not_present (ho : Overwrites id w w') (hw : w.Shared data) :
    ¬ Present data id w' := by
  obtain ⟨found, step, changed, hother, hlast, unknown⟩ := ho
  intro hp
  obtain ⟨loaded, hloaded, hfind⟩ := hp _ ((Answer.recall_of_ne changed hother).trans hlast)
  obtain ⟨hindex, hregular⟩ := hw _ _ found
  rcases step.outcome hregular.records with ⟨silent, -⟩ | ⟨b, change, hb, tells, edit, hholds⟩
  · exact absurd (silent _ rfl) (by simp [changed])
  · obtain rfl := Option.some.inj hb
    have hchange : _ = change.record := Option.some.inj (changed.symm.trans tells.record?_eq)
    rw [hindex] at hholds
    rw [hloaded.unique hholds, edit.find?_of_ne (hchange ▸ hother)] at hfind
    exact unknown hfind

theorem Present.acted {n : Nat} {p p' : Process R} {a : Option (Answer R)}
    {commits : List (Commit R)} {host : Host} (hpresent : Present data id w)
    (hw : w.Shared data) (found : w.processes n = some p)
    (hs : p.Step w.host a commits p' host)
    (hsafe : ¬ Overwrites id w (w.acted n a p' host)) :
    Present data id (w.acted n a p' host) := by
  obtain ⟨hindex, hregular⟩ := hw n p found
  rcases hs.outcome hregular.records with
    ⟨silent, hsame⟩ | ⟨b, change, rfl, tells, edit, hholds⟩
  · refine hpresent.of_same ?_ (hindex ▸ hsame)
    cases a with
    | none => rfl
    | some b =>
      cases b with
      | reconciled => rfl
      | _ => exact absurd (silent _ rfl) (by simp [Answer.record?])
  · intro r hr
    refine ⟨_, hindex ▸ hholds, edit.find?_recall tells hr fun hother hlast => ?_⟩
    by_contra hunknown
    exact hsafe (.intro found hs tells.record?_eq hother hlast hunknown)

theorem Step.present_iff (hs : Step data w w') (hw : w.Shared data) (hp : Present data id w) :
    Present data id w' ↔ ¬ Overwrites id w w' := by
  refine ⟨fun hp' ho => ho.not_present hw hp', fun hsafe => ?_⟩
  cases hs with
  | opened _ run => exact hp.of_same rfl (content?_of_open run).2
  | acted found step => exact hp.acted hw found step hsafe
  | dropped i => exact hp.of_same rfl rfl
  | outside same => exact hp.of_same rfl same

theorem present_iff_of_shared (later : List (World R)) (w : World R) (hw : w.Shared data)
    (hp : Present data id w) (hrun : (w :: later).IsChain (Step data)) :
    (∀ v ∈ w :: later, Present data id v) ↔
      (w :: later).IsChain fun v v' => ¬ Overwrites id v v' := by
  induction later generalizing w with
  | nil => simpa using hp
  | cons w' later ih =>
    rw [List.isChain_cons_cons] at hrun ⊢
    obtain ⟨hs, hrun⟩ := hrun
    rw [List.forall_mem_cons, ← hs.present_iff hw hp]
    constructor
    · intro h
      have hp' := h.2 w' List.mem_cons_self
      exact ⟨hp', (ih w' (hs.shared hw) hp' hrun).1 h.2⟩
    · intro h
      exact ⟨hp, (ih w' (hs.shared hw) h.1 hrun).2 h.2⟩

end World

/-- What a computation gives and leaves where it succeeds. -/
def done? {ε σ α : Type} : EStateM.Result ε σ α → Option (α × σ)
  | .ok x s => some (x, s)
  | .error _ _ => none

theorem done?_eq_some {ε σ α : Type} {result : EStateM.Result ε σ α} {x : α} {s : σ} :
    done? result = some (x, s) ↔ result = .ok x s := by
  cases result <;> simp [done?]

/-- What a computation fails with and leaves then. -/
def failed? {ε σ α : Type} : EStateM.Result ε σ α → Option (ε × σ)
  | .ok _ _ => none
  | .error e s => some (e, s)

theorem failed?_eq_some {ε σ α : Type} {result : EStateM.Result ε σ α} {e : ε} {s : σ} :
    failed? result = some (e, s) ↔ result = .error e s := by
  cases result <;> simp [failed?]

/-- A record that a call gave out is on disk with the value that the last successful call of any
process left of it, at every moment of a run, exactly as long as no process changes another record
without having that value in memory. -/
theorem World.last_value_stays_iff (e : Entity) {data : Location} {host : Host}
    {later : List (World e.Rec)} (id : String)
    (hrun : (({ host } : World e.Rec) :: later).IsChain (World.Step data)) :
    (∀ w ∈ { host } :: later, w.Present data id) ↔
      (({ host } : World e.Rec) :: later).IsChain fun w w' => ¬ World.Overwrites id w w' :=
  present_iff_of_shared later _ (fun _ _ h => by cases h) (fun _ h => by cases h) hrun

/-- A run of one store that makes a role. -/
theorem World.last_value_stays_created : ∃ (data : Location) (host : Host) (w w' : World Role),
    [{ host }, w, w'].IsChain (World.Step data) ∧
    w'.last "x" = some ⟨"x", "first", "", .epoch, .epoch⟩ ∧
    ∀ v ∈ [{ host }, w, w'], v.Present data "x" := by
  let data : Location := ⟨["data"], "/data"⟩
  let host : Host := { ids := fun _ => "x", times := fun _ => .epoch }
  let request : Request Role := .create ({ name := "first" } : Role.Draft)
  let x : Role := ⟨"x", "first", "", .epoch, .epoch⟩
  have hrun : ((done? (Store.open (R := Role) data host)).bind fun a =>
      (done? (request.run ⟨a.1, a.2, []⟩)).map fun c => c.1) = some (.created x) := by
    decide +kernel
  simp only [Option.bind_eq_some_iff, Option.map_eq_some_iff, Prod.exists, done?_eq_some] at hrun
  obtain ⟨a, h₁, hopen, _, desk, hx, rfl⟩ := hrun
  let w₁ : World Role :=
    { host := h₁, processes := Function.update (fun _ => none) 0 (some ⟨a, []⟩) }
  let w₂ := w₁.acted 0 (some (.created x)) ⟨desk.store, []⟩ desk.host
  have hs₁ : World.Step data { host } w₁ := .opened rfl hopen
  have hs₂ : World.Step data w₁ w₂ := .acted (p := ⟨a, []⟩) rfl (.answered hx)
  have hrun : [{ host }, w₁, w₂].IsChain (World.Step data) :=
    .cons_cons hs₁ (.cons_cons hs₂ (.singleton _))
  -- nothing was given out before the last step, so no step can have overwritten anything
  have hnew : ∀ v ∈ [({ host } : World Role), w₁], ∀ v', ¬ World.Overwrites "x" v v' := by
    intro v hv v' ho
    obtain ⟨-, -, -, -, hlast, -⟩ := ho
    rcases List.mem_pair.1 hv with rfl | rfl <;> cases hlast
  refine ⟨data, host, w₁, w₂, hrun, rfl, (World.last_value_stays_iff .role "x" hrun).2 ?_⟩
  exact .cons_cons (hnew _ (by simp) _) (.cons_cons (hnew _ (by simp) _) (.singleton _))

/-- Two stores are opened on an empty disk, and each makes a role. The second write drops the first
role. -/
theorem World.blind_write_drops_record : ¬ ∀ (data : Location) (host : Host)
    (later : List (World Role)) (id : String),
    (({ host } : World Role) :: later).IsChain (World.Step data) →
      ∀ w ∈ { host } :: later, w.Present data id := by
  let data : Location := ⟨["data"], "/data"⟩
  let host : Host := { ids := fun n => if n = 0 then "x" else "y", times := fun _ => .epoch }
  let first : Request Role := .create ({ name := "first" } : Role.Draft)
  let second : Request Role := .create ({ name := "second" } : Role.Draft)
  let x : Role := ⟨"x", "first", "", .epoch, .epoch⟩
  let y : Role := ⟨"y", "second", "", .epoch, .epoch⟩
  have hrun : ((done? (Store.open (R := Role) data host)).bind fun a =>
      (done? (Store.open (R := Role) data a.2)).bind fun b =>
      (done? (first.run ⟨a.1, b.2, []⟩)).bind fun c =>
      (done? (second.run ⟨b.1, c.2.host, []⟩)).map fun d => (b.1.records, c.1, d.1)) =
      some ([], .created x, .created y) := by
    decide +kernel
  simp only [Option.bind_eq_some_iff, Option.map_eq_some_iff, Prod.exists, Prod.mk.injEq,
    done?_eq_some] at hrun
  obtain ⟨a, h₁, hopen, b, h₂, hopen', _, desk, hx, _, desk', hy, hb, rfl, rfl⟩ := hrun
  let w₀ : World Role := { host }
  let w₁ : World Role :=
    { w₀ with host := h₁, processes := Function.update w₀.processes 0 (some ⟨a, []⟩) }
  let w₂ : World Role :=
    { w₁ with host := h₂, processes := Function.update w₁.processes 1 (some ⟨b, []⟩) }
  let w₃ := w₂.acted 0 (some (.created x)) ⟨desk.store, []⟩ desk.host
  let w₄ := w₃.acted 1 (some (.created y)) ⟨desk'.store, []⟩ desk'.host
  have hs₁ : World.Step data w₀ w₁ := .opened rfl hopen
  have hs₂ : World.Step data w₁ w₂ := .opened rfl hopen'
  have hs₃ : World.Step data w₂ w₃ := .acted (p := ⟨a, []⟩) rfl (.answered hx)
  have hs₄ : World.Step data w₃ w₄ := .acted (p := ⟨b, []⟩) rfl (.answered hy)
  have hlast : w₃.last "x" = some x := rfl
  have hblind : World.Overwrites "x" w₃ w₄ := by
    refine .intro (p := ⟨b, []⟩) rfl (.answered hy) rfl (by decide) hlast ?_
    simp [hb, Record.find?]
  have hshared : w₃.Shared data :=
    hs₃.shared (hs₂.shared (hs₁.shared fun _ _ h => by cases h))
  intro h
  have hpresent := h data host [w₁, w₂, w₃, w₄] "x"
    (.cons_cons hs₁ (.cons_cons hs₂ (.cons_cons hs₃ (.cons_cons hs₄ (.singleton _)))))
  exact hblind.not_present hshared (hpresent w₄ (by simp))

end WorkQueue.Store
