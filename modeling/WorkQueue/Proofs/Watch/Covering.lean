import Mathlib.Logic.Relation
import WorkQueue.Proofs.Store.Calls
import WorkQueue.Record.Role
import WorkQueue.Watch.Loop

/-!
# No change is missed

A reconciler that runs is told of changes of the index file at any time: between two steps of its
loop, while a pass is taken or has read, and when the channel is full and the change is dropped. At
every moment each change was followed by a read of a pass, or there is something left that leads to
one: a change in the channel, a deadline that is armed, or a pass that was taken and has not read.
From there the loop comes to a read by its own steps, in whatever order it takes them. A read may
fail. Then the pass is skipped and the store stays as it was, and nothing leads to another read
until the next change is reported.
-/

namespace WorkQueue

namespace Store

variable {R : Type} [Record R]

/-- What a pass makes of the index that it has read. -/
def takeOver (reading : Reading R) : StoreM R Absorbed := do
  if reading.loaded.digest = (← get).store.digest then return .unchanged
  absorb reading

theorem reconcile_eq_bind : reconcile (R := R) = readIndex >>= takeOver := rfl

end Store

namespace Watch

open Store (Reading readIndex takeOver leads_readIndex)

/-! ### The loop -/

theorem Debouncer.isPending_iff {d : Debouncer} :
    d.isPending = true ↔ ∃ t, d.deadline? = some t := Option.isSome_iff_exists

namespace Loop

variable {l l' : Loop} {now : Nat}

/-- Something is left that leads the loop to a pass. -/
def Armed (l : Loop) : Prop := 0 < l.waiting ∨ l.debouncer.isPending = true

/-- A channel that is too full for a change has others in it. -/
theorem armed_notice (l : Loop) : l.notice.Armed := by
  left
  unfold notice
  split
  · exact Nat.succ_pos _
  · unfold channelCapacity at *
    omega

theorem armed_receive (h : 0 < l.waiting) (now : Nat) : (l.receive now).Armed := by
  rw [receive, if_neg (by omega)]
  exact Or.inr rfl

/-- The timer makes the loop take a pass when the deadline has passed, and does nothing before
that. -/
theorem fire_cases (l : Loop) (now : Nat) :
    (∃ t, l.debouncer.deadline? = some t ∧ t ≤ now ∧
      l.fire now = (true, { l with debouncer := l.debouncer.cancel })) ∨
    (∀ t, l.debouncer.deadline? = some t → now < t) ∧ l.fire now = (false, l) := by
  unfold fire Debouncer.take
  cases l.debouncer.deadline? with
  | none => simp
  | some t =>
    by_cases hready : t ≤ now
    · simp [hready, Debouncer.cancel]
    · simp [hready, Nat.lt_of_not_le hready]

theorem fire_of_ready {t : Nat} (h : l.debouncer.deadline? = some t) (ht : t ≤ now) :
    l.fire now = (true, { l with debouncer := l.debouncer.cancel }) := by
  rcases l.fire_cases now with ⟨-, -, -, hfire⟩ | ⟨hlate, -⟩
  · exact hfire
  · exact absurd ht (Nat.not_le_of_lt (hlate t h))

theorem eq_cancel_of_fire (h : l.fire now = (true, l')) :
    l.debouncer.isPending = true ∧ l' = { l with debouncer := l.debouncer.cancel } := by
  rcases l.fire_cases now with ⟨t, ht, -, hfire⟩ | ⟨-, hfire⟩
  · rw [hfire] at h
    exact ⟨Debouncer.isPending_iff.2 ⟨t, ht⟩, (Prod.mk.inj h).2.symm⟩
  · rw [hfire] at h
    cases h

theorem eq_of_fire (h : l.fire now = (false, l')) : l' = l := by
  rcases l.fire_cases now with ⟨-, -, -, hfire⟩ | ⟨-, hfire⟩
  · rw [hfire] at h
    cases h
  · rw [hfire] at h
    exact (Prod.mk.inj h).2.symm

/-- As many steps the loop can take at most before the next pass. -/
def distance (l : Loop) : Nat := 2 * l.waiting + l.debouncer.isPending.toNat

theorem distance_receive_lt (h : 0 < l.waiting) (now : Nat) :
    (l.receive now).distance < l.distance := by
  rw [receive, if_neg (by omega)]
  change 2 * (l.waiting - 1) + 1 < 2 * l.waiting + _
  omega

theorem distance_cancel_lt (h : l.debouncer.isPending = true) :
    { l with debouncer := l.debouncer.cancel : Loop }.distance < l.distance := by
  rw [distance, distance, h]
  exact Nat.lt_succ_self _

end Loop

/-! ### The reconciler -/

/-- Where a reconciler is with a pass. -/
inductive Stage (R : Type) where
  /-- no pass is made, the loop waits for changes and for its timer -/
  | listening
  | taken
  | read (reading : Reading R)

/-- What the index has had to do with the reconciler. -/
inductive Entry (R : Type) where
  /-- a change was reported, and the channel took it or it was dropped -/
  | reported (kept : Bool)
  /-- a pass read the index, or tried to and failed -/
  | read (outcome : Except StoreError (Reading R))

structure Reconciler (R : Type) where
  loop : Loop
  store : Store R
  host : Host
  stage : Stage R := .listening
  log : List (Entry R) := []

namespace Reconciler

variable {R : Type} [Record R]

/-- A step of the loop or of the pass that it waits for. -/
inductive Own (r : Reconciler R) : Reconciler R → Prop where
  | received (stage : r.stage = .listening) (waiting : 0 < r.loop.waiting) (now : Nat) :
      Own r { r with loop := r.loop.receive now }
  | fired {now : Nat} {loop : Loop} (stage : r.stage = .listening)
      (due : r.loop.fire now = (true, loop)) : Own r { r with loop, stage := .taken }
  | read {reading : Reading R} {desk : Store.Desk R} (stage : r.stage = .taken)
      (run : readIndex ⟨r.store, r.host, []⟩ = .ok reading desk) : Own r { r with
        store := desk.store
        host := desk.host
        stage := .read reading
        log := r.log ++ [.read (.ok reading)] }
  | unread {e : StoreError} {desk : Store.Desk R} (stage : r.stage = .taken)
      (run : readIndex ⟨r.store, r.host, []⟩ = .error e desk) : Own r { r with
        store := desk.store
        host := desk.host
        stage := .listening
        log := r.log ++ [.read (.error e)] }
  | finished {reading : Reading R} {desk : Store.Desk R} (stage : r.stage = .read reading)
      (ends : Ends (takeOver reading) ⟨r.store, r.host, []⟩ desk) : Own r { r with
        store := desk.store
        host := desk.host
        stage := .listening }

/-- A step of the reconciler, of the callback that reports a change, or of others, who may do
anything to the store and the disk. -/
inductive Step (r : Reconciler R) : Reconciler R → Prop where
  | own {r' : Reconciler R} (own : Own r r') : Step r r'
  | early {now : Nat} {loop : Loop} (stage : r.stage = .listening)
      (due : r.loop.fire now = (false, loop)) : Step r { r with loop }
  | reported : Step r { r with
      loop := r.loop.notice
      log := r.log ++ [.reported (decide (r.loop.waiting < channelCapacity))] }
  | outside (store : Store R) (host : Host) : Step r { r with store, host }

/-- A reconciler that has just been started. -/
def started (window : Nat) (store : Store R) (host : Host) : Reconciler R where
  loop := .start window
  store := store
  host := host

/-- A change waits in the channel, a deadline is armed, or a pass was taken and has not read. -/
def Pending (r : Reconciler R) : Prop := r.loop.Armed ∨ r.stage = .taken

/-- After each change that was reported a pass has read, or tried to and failed. -/
def Covered (log : List (Entry R)) : Prop :=
  ∀ before kept after, log = before ++ .reported kept :: after → ∃ outcome, .read outcome ∈ after

/-- The reconciler comes to this by its own steps, in whatever order it takes them. -/
inductive Inevitable (P : Reconciler R → Prop) : Reconciler R → Prop where
  | now {r : Reconciler R} (h : P r) : Inevitable P r
  | later {r : Reconciler R} (more : ∃ r', Own r r') (next : ∀ r', Own r r' → Inevitable P r') :
      Inevitable P r

variable {r r' : Reconciler R}

/-! ### One step -/

omit [Record R] in
theorem covered_read (log : List (Entry R)) (outcome : Except StoreError (Reading R)) :
    Covered (log ++ [.read outcome]) := by
  intro before kept after h
  rcases List.eq_nil_or_concat after with rfl | ⟨init, last, rfl⟩
  · cases (List.append_inj' h rfl).2
  · rw [List.concat_eq_append, ← List.cons_append, ← List.append_assoc] at h
    obtain rfl := (List.cons.inj (List.append_inj' h rfl).2).1
    exact ⟨outcome, by simp⟩

theorem Own.covered_or_pending (h : Own r r') (hr : Covered r.log ∨ r.Pending) :
    Covered r'.log ∨ r'.Pending := by
  cases h with
  | received stage waiting now => exact Or.inr (Or.inl (Loop.armed_receive waiting now))
  | fired stage due => exact Or.inr (Or.inr rfl)
  | read stage run => exact Or.inl (covered_read _ _)
  | unread stage run => exact Or.inl (covered_read _ _)
  | finished stage ends =>
    refine hr.imp id fun hpending => Or.inl (hpending.resolve_right ?_)
    rw [stage]
    simp

theorem Step.covered_or_pending (h : Step r r') (hr : Covered r.log ∨ r.Pending) :
    Covered r'.log ∨ r'.Pending := by
  cases h with
  | own own => exact own.covered_or_pending hr
  | early stage due =>
    obtain rfl := Loop.eq_of_fire due
    exact hr
  | reported => exact Or.inr (Or.inl r.loop.armed_notice)
  | outside store host => exact hr

/-! ### On the way to a read -/

/-- A pass has read since, or tried to and failed. -/
def ReadSince (log : List (Entry R)) (r : Reconciler R) : Prop :=
  ∃ outcome, r.log = log ++ [.read outcome]

/-- As many steps the reconciler can take at most before a pass reads. -/
def distance (r : Reconciler R) : Nat :=
  r.loop.distance + match r.stage with
    | .read _ => 1
    | _ => 0

theorem exists_own_of_pending (h : r.Pending) : ∃ r', Own r r' := by
  cases hstage : r.stage with
  | listening =>
    by_cases hwaiting : 0 < r.loop.waiting
    · exact ⟨_, .received hstage hwaiting 0⟩
    · have harmed : r.loop.Armed := h.resolve_right (by simp [hstage])
      obtain ⟨t, ht⟩ := Debouncer.isPending_iff.1 (harmed.resolve_left hwaiting)
      exact ⟨_, .fired hstage (Loop.fire_of_ready ht (Nat.le_refl t))⟩
  | taken =>
    cases hrun : readIndex ⟨r.store, r.host, []⟩ with
    | ok reading desk => exact ⟨_, .read hstage hrun⟩
    | error e desk => exact ⟨_, .unread hstage hrun⟩
  | read reading =>
    cases hrun : takeOver reading ⟨r.store, r.host, []⟩ with
    | ok outcome desk => exact ⟨_, .finished hstage (Or.inl ⟨outcome, hrun⟩)⟩
    | error e desk => exact ⟨_, .finished hstage (Or.inr ⟨e, hrun⟩)⟩

/-- An own step of a reconciler that has to read is a read, or brings it closer to one. -/
theorem Own.reads_or_closer (h : Own r r') (hr : r.Pending) : ReadSince r.log r' ∨
    r'.log = r.log ∧ r'.Pending ∧ r'.distance < r.distance := by
  cases h with
  | received stage waiting now =>
    refine Or.inr ⟨rfl, Or.inl (Loop.armed_receive waiting now), ?_⟩
    exact Nat.add_lt_add_right (Loop.distance_receive_lt waiting now) _
  | fired stage due =>
    obtain ⟨hpending, rfl⟩ := Loop.eq_cancel_of_fire due
    refine Or.inr ⟨rfl, Or.inr rfl, ?_⟩
    rw [distance, distance, stage]
    exact Loop.distance_cancel_lt hpending
  | read stage run => exact Or.inl ⟨_, rfl⟩
  | unread stage run => exact Or.inl ⟨_, rfl⟩
  | finished stage ends =>
    refine Or.inr ⟨rfl, ?_, ?_⟩
    · refine Or.inl (hr.resolve_right ?_)
      rw [stage]
      simp
    · simp [distance, stage]

/-- Without anything pending, nothing that the reconciler does leads to a read. -/
theorem Own.log_eq_of_not_pending (h : Own r r') (hr : ¬ r.Pending) :
    r'.log = r.log ∧ ¬ r'.Pending := by
  cases h with
  | received stage waiting now => exact absurd (Or.inl (Or.inl waiting)) hr
  | fired stage due => exact absurd (Or.inl (Or.inr (Loop.eq_cancel_of_fire due).1)) hr
  | read stage run => exact absurd (Or.inr stage) hr
  | unread stage run => exact absurd (Or.inr stage) hr
  | finished stage ends =>
    refine ⟨rfl, fun hpending => hr (Or.inl (hpending.resolve_right ?_))⟩
    simp

/-- Where a read fails, the store stays as it was. -/
theorem Own.store_eq_of_unread (h : Own r r') {e : StoreError}
    (hlog : r'.log = r.log ++ [.read (.error e)]) : r'.store = r.store ∧ r'.stage = .listening := by
  cases h with
  | unread stage run =>
    have hidle := leads_readIndex.of_error run
    exact ⟨hidle.store, rfl⟩
  | read stage run =>
    have hlast := List.append_cancel_left hlog
    cases hlast
  | received stage waiting now => simp at hlog
  | fired stage due => simp at hlog
  | finished stage ends => simp at hlog

theorem inevitable_of_pending (h : r.Pending) : Inevitable (ReadSince r.log) r := by
  induction hn : r.distance using Nat.strongRecOn generalizing r with
  | ind n ih =>
    refine .later (exists_own_of_pending h) fun r' hown => ?_
    rcases hown.reads_or_closer h with hread | ⟨hlog, hpending, hlt⟩
    · exact .now hread
    · exact hlog ▸ ih _ (hn ▸ hlt) hpending rfl

/-! ### Runs -/

variable {window : Nat} {store : Store R} {host : Host}

theorem covered_or_pending_of_run (h : Relation.ReflTransGen Step (started window store host) r) :
    Covered r.log ∨ r.Pending := by
  induction h with
  | refl =>
    left
    intro before kept after h
    simp [started] at h
  | tail _ hstep ih => exact hstep.covered_or_pending ih

/-- Whatever happens to a reconciler that was started, each change that was reported to it, dropped
or not, was followed by a read; or there is something pending that leads to one, and the reconciler
inevitably comes to it, which only changes that are reported on the way can put off; or each read
since the change has failed. A read that fails leaves the store as it was, and where nothing is
pending no step of the reconciler leads to another one. -/
theorem changes_are_read (h : Relation.ReflTransGen Step (started window store host) r)
    {before after : List (Entry R)} {kept : Bool}
    (hlog : r.log = before ++ .reported kept :: after) :
    ((∃ reading, .read (.ok reading) ∈ after) ∨ r.Pending ∧ Inevitable (ReadSince r.log) r ∨
      (∃ e, .read (.error e) ∈ after) ∧ ∀ reading, .read (.ok reading) ∉ after) ∧
    (∀ (r₁ r₂ : Reconciler R) (e : StoreError), Own r₁ r₂ →
      r₂.log = r₁.log ++ [.read (.error e)] → r₂.store = r₁.store ∧ r₂.stage = .listening) ∧
    ∀ r₁ r₂ : Reconciler R, ¬ r₁.Pending → Own r₁ r₂ → r₂.log = r₁.log ∧ ¬ r₂.Pending := by
  refine ⟨?_, fun _ _ _ hown hfailed => hown.store_eq_of_unread hfailed,
    fun _ _ hr hown => hown.log_eq_of_not_pending hr⟩
  by_cases hread : ∃ reading, .read (.ok reading) ∈ after
  · exact Or.inl hread
  rcases covered_or_pending_of_run h with hcovered | hpending
  · obtain ⟨outcome, hmem⟩ := hcovered before kept after hlog
    cases outcome with
    | ok reading => exact Or.inl ⟨reading, hmem⟩
    | error e => exact Or.inr (Or.inr ⟨⟨e, hmem⟩, not_exists.1 hread⟩)
  · exact Or.inr (Or.inl ⟨hpending, inevitable_of_pending hpending⟩)

/-- As many changes as the channel holds are kept. -/
theorem run_of_reports (window : Nat) (store : Store R) (host : Host) {n : Nat}
    (hn : n ≤ channelCapacity) :
    Relation.ReflTransGen Step (started window store host)
      { started window store host with
        loop := { waiting := n, debouncer := { window } }
        log := List.replicate n (.reported true) } := by
  induction n with
  | zero => exact .refl
  | succ n ih =>
    refine (ih (by omega)).tail ?_
    have hstep := Step.reported (r := { started window store host with
      loop := { waiting := n, debouncer := { window } }
      log := List.replicate n (.reported true) })
    rw [List.replicate_succ']
    rwa [Loop.notice, if_pos (Nat.lt_of_succ_le hn), decide_eq_true (Nat.lt_of_succ_le hn)] at hstep

/-- A change too many for the channel is dropped, and a pass reads after it. -/
theorem changes_are_read_dropped : ∃ (store : Store Role) (host : Host) (r : Reconciler Role),
    Relation.ReflTransGen Step (started 100 store host) r ∧
    r.log = List.replicate 64 (.reported true) ++ [.reported false] ∧ r.Pending ∧
    Inevitable (ReadSince r.log) r := by
  let store : Store Role :=
    { index := .ofData Role ⟨["data"], "/data"⟩, records := [], digest := none }
  let host : Host := { ids := fun _ => "r", times := fun _ => .epoch }
  have hrun := (run_of_reports 100 store host (Nat.le_refl channelCapacity)).tail .reported
  have hlog : List.replicate 64 (.reported true) ++ [.reported false] =
      (List.replicate 64 (.reported true) ++ .reported false :: [] : List (Entry Role)) := rfl
  rcases (changes_are_read hrun hlog).1 with ⟨_, hmem⟩ | hpending | ⟨⟨_, hmem⟩, -⟩
  · cases hmem
  · exact ⟨store, host, _, hrun, rfl, hpending⟩
  · cases hmem

/-- A change is received, the window passes, and the pass cannot take the lock, because a directory
stands in its place. Nothing is left that leads to a read. -/
theorem failed_read_is_not_retried : ¬ ∀ (window : Nat) (store : Store Role) (host : Host)
    (r : Reconciler Role), Relation.ReflTransGen Step (started window store host) r →
      ∀ before kept after, r.log = before ++ .reported kept :: after →
        (∃ reading, .read (.ok reading) ∈ after) ∨ r.Pending := by
  let i := Index.ofData Role ⟨["data"], "/data"⟩
  let store : Store Role := { index := i, records := [], digest := none }
  let disk : Disk := { nodes := [
    (["data"], .dir 0o700), (i.dir.path, .dir 0o700), (i.lock.path, .dir 0o700)] }
  let host : Host := { disk, ids := fun _ => "r", times := fun _ => .epoch }
  obtain ⟨e, desk, hread⟩ : ∃ e desk, readIndex ⟨store, host, []⟩ = .error e desk := ⟨_, _, rfl⟩
  let r₀ : Reconciler Role := started 100 store host
  let r₁ : Reconciler Role := { r₀ with loop := r₀.loop.notice, log := [.reported true] }
  let r₂ : Reconciler Role := { r₁ with loop := r₁.loop.receive 0 }
  let r₃ : Reconciler Role := { r₂ with loop := .start 100, stage := .taken }
  let r₄ : Reconciler Role := { r₃ with
    store := desk.store
    host := desk.host
    stage := .listening
    log := [.reported true, .read (.error e)] }
  have hs₁ : Step r₀ r₁ := .reported
  have hs₂ : Step r₁ r₂ := .own (.received rfl (by decide) 0)
  have hdue : r₂.loop.fire 100 = (true, r₃.loop) := rfl
  have hs₃ : Step r₂ r₃ := .own (.fired rfl hdue)
  have hs₄ : Step r₃ r₄ := .own (.unread rfl hread)
  have hrun : Relation.ReflTransGen Step r₀ r₄ :=
    (((Relation.ReflTransGen.single hs₁).tail hs₂).tail hs₃).tail hs₄
  intro h
  rcases h 100 store host r₄ hrun [] true [.read (.error e)] rfl with ⟨_, hmem⟩ | harmed | hstage
  · cases List.mem_singleton.1 hmem
  · rcases harmed with hwaiting | hpending
    · exact Nat.lt_irrefl 0 hwaiting
    · exact Bool.false_ne_true hpending
  · cases hstage

end Reconciler

end Watch

end WorkQueue
