import WorkQueue.Proofs.Work.Calls

/-!
# The history of an item

What the store announces under one id is the history of one item after another, each deleted before
the next is made. An item is made open, and from one update to the next it keeps its status or
moves one step on; so each step is taken once at most. A patch that asks for any other status is
refused and changes nothing.
-/

namespace WorkQueue

/-- How far along an item is. -/
def Status.rank : Status → Nat
  | «open» => 0
  | inProgress => 1
  | done => 2
  | closed => 3

namespace Work

open Record (Distinct)
open Store (Desk Commit Committed Edit Idle)

/-! ### One item -/

/-- From one value of an item to the next the status stays, or it moves one step on. -/
structure Onward (previous next : Work) : Prop where
  id_eq : next.id = previous.id
  status : next.status = previous.status ∨ previous.status.next? = some next.status

/-- All that is announced of one item, from its creation on, and the value that this leaves. -/
inductive Life : List (Change Work) → Option Work → Prop where
  | created {w : Work} (status : w.status = .open) : Life [.created w] (some w)
  | updated {cs : List (Change Work)} {previous next : Work} (before : Life cs (some previous))
      (onward : Onward previous next) : Life (cs ++ [.updated (some previous) next]) (some next)
  | deleted {cs : List (Change Work)} {last : Work} (before : Life cs (some last)) :
      Life (cs ++ [.deleted last]) none

/-- The change moves its item to the status from another one. -/
def enters (t : Status) : Change Work → Bool
  | .updated (some previous) next => previous.status != t && next.status == t
  | _ => false

variable {cs : List (Change Work)} {c : Change Work} {v : Option Work} {w previous next : Work}

theorem enters_updated (t : Status) (previous next : Work) :
    enters t (.updated (some previous) next) = (previous.status != t && next.status == t) := rfl

/-- A change enters the statuses that it takes its item up to. -/
theorem Onward.reached_eq (h : Onward previous next) (t : Status) :
    (if t.rank ≤ next.status.rank then 1 else 0) =
      (if t.rank ≤ previous.status.rank then 1 else 0) +
        if enters t (.updated (some previous) next) then 1 else 0 := by
  rw [enters_updated]
  rcases h.status with hstay | hmove
  · rw [hstay]
    simp
  · generalize previous.status = a at hmove ⊢
    generalize next.status = b at hmove ⊢
    cases a <;> cases hmove <;> cases t <;> rfl

/-- An item has taken each step up to its status once, and none beyond it. -/
theorem Life.countP_enters (h : Life cs (some w)) {t : Status} (ht : t ≠ .open) :
    cs.countP (enters t) = if t.rank ≤ w.status.rank then 1 else 0 := by
  generalize hv : some w = v at h
  induction h generalizing w with
  | created status =>
    cases hv
    rw [status]
    cases t <;> first | exact absurd rfl ht | rfl
  | updated before onward ih =>
    cases hv
    rw [List.countP_append, List.countP_singleton, ih rfl, onward.reached_eq]
  | deleted => cases hv

theorem Life.countP_enters_le_one (h : Life cs v) {t : Status} (ht : t ≠ .open) :
    cs.countP (enters t) ≤ 1 := by
  cases v with
  | some w =>
    rw [h.countP_enters ht]
    split <;> omega
  | none =>
    cases h with
    | deleted before =>
      rw [List.countP_append, before.countP_enters ht]
      change _ + 0 ≤ 1
      split <;> omega

theorem Life.countP_created (h : Life cs v) : cs.countP (·.operation == .create) = 1 := by
  induction h with
  | created => rfl
  | updated before onward ih => rw [List.countP_append, ih]; rfl
  | deleted before ih => rw [List.countP_append, ih]; rfl

/-! ### One id -/

/-- One item lived after another, each but the last is gone, and this is left. -/
inductive Lives : List (List (Change Work)) → Option Work → Prop where
  | none : Lives [] none
  | next {lives : List (List (Change Work))} {life : List (Change Work)} {v : Option Work}
      (gone : Lives lives none) (lived : Life life v) : Lives (lives ++ [life]) v

variable {lives : List (List (Change Work))}

theorem Lives.exists_life (h : Lives lives v) {life : List (Change Work)} (hmem : life ∈ lives) :
    ∃ v', Life life v' := by
  induction h with
  | none => cases hmem
  | next gone lived ih =>
    rcases List.mem_append.1 hmem with hmem | hmem
    · exact ih hmem
    · exact ⟨_, List.mem_singleton.1 hmem ▸ lived⟩

theorem Lives.length_eq (h : Lives lives v) :
    lives.length = lives.flatten.countP (·.operation == .create) := by
  induction h with
  | none => rfl
  | next gone lived ih =>
    rw [List.length_append, List.flatten_append, List.countP_append, List.flatten_singleton,
      lived.countP_created, ih]
    rfl

/-- Where the id was given once there is one item. -/
theorem Lives.eq_nil_or_life (h : Lives lives v)
    (hcount : lives.flatten.countP (·.operation == .create) ≤ 1) :
    lives.flatten = [] ∨ Life lives.flatten v := by
  rw [← h.length_eq] at hcount
  cases h with
  | none => exact Or.inl rfl
  | @next past life _ gone lived =>
    obtain rfl : past = [] := List.eq_nil_of_length_eq_zero (by simpa using hcount)
    exact Or.inr (by simpa using lived)

/-- A change of the kind that calls make. -/
def Usual : Change Work → Prop
  | .created w => w.status = .open
  | .updated (some previous) next => Onward previous next
  | .updated none _ => False
  | .deleted _ => True

/-- The history under an id goes on with a change that is legal there. -/
theorem Lives.extend (h : Lives lives v) (hbefore : c.before? = v) (hc : Usual c) :
    ∃ lives', lives'.flatten = lives.flatten ++ [c] ∧ Lives lives' c.value? := by
  have longer {past : List (List (Change Work))} {life : List (Change Work)} :
      (past ++ [life ++ [c]]).flatten = (past ++ [life]).flatten ++ [c] := by
    simp
  subst hbefore
  cases c with
  | created w => exact ⟨lives ++ [[.created w]], by simp, .next h (.created hc)⟩
  | updated previous? next =>
    cases previous? with
    | none => exact hc.elim
    | some previous =>
      cases h with
      | next gone lived => exact ⟨_, longer, .next gone (lived.updated hc)⟩
  | deleted last =>
    cases h with
    | next gone lived => exact ⟨_, longer, .next gone lived.deleted⟩

/-! ### One commit -/

/-- What was announced of the records under an id. -/
def history (id : String) (events : List (Event Work)) : List (Change Work) :=
  (events.map Event.change).filter (·.id == id)

theorem history_append (id : String) (events events' : List (Event Work)) :
    history id (events ++ events') = history id events ++ history id events' := by
  rw [history, List.map_append, List.filter_append]
  rfl

/-- Every id has the history of one item after another, and what they left is in the store. -/
structure Recorded (events : List (Event Work)) (s : Store Work) : Prop where
  distinct : Distinct s.records
  lives : ∀ id, ∃ lives, history id events = lives.flatten ∧ Lives lives (s.get? id)

/-- What was announced before a call and by it. -/
def announced (before : List (Event Work)) (desk : Desk Work) : List (Event Work) :=
  before ++ desk.commits.flatMap Commit.events

variable {before : List (Event Work)} {desk desk' : Desk Work} {id : String} {p : Patch}
  {q : Request}

theorem Recorded.edit (h : Recorded (announced before desk) desk.store)
    (hedit : Edit desk.store.records desk'.store.records c)
    (hcommitted : Committed desk desk'.store.records c desk') (hc : Usual c) :
    Recorded (announced before desk') desk'.store where
  distinct := hedit.distinct h.distinct
  lives := by
    intro id
    obtain ⟨lives, hhistory, hlives⟩ := h.lives id
    have hannounced : announced before desk' =
        announced before desk ++ [⟨c, desk.store.revision + 1⟩] := by
      rw [announced, hcommitted.commits, List.flatMap_append, ← List.append_assoc]
      rfl
    rw [hannounced, history_append, hhistory]
    by_cases hid : c.id = id
    · subst hid
      have hbefore : c.before? = desk.store.get? c.id :=
        (hedit.legal h.distinct).eq_before?.symm
      have hafter : desk'.store.get? c.id = c.value? := hedit.find?_id h.distinct
      obtain ⟨lives', hflatten, hlives'⟩ := hlives.extend hbefore hc
      refine ⟨lives', ?_, hafter ▸ hlives'⟩
      rw [hflatten]
      simp [history]
    · have hkept : desk'.store.get? id = desk.store.get? id := hedit.find?_of_ne hid
      exact ⟨lives, by simp [history, hid], hkept ▸ hlives⟩

theorem Recorded.idle (h : Recorded (announced before desk) desk.store) (hidle : Idle desk desk') :
    Recorded (announced before desk') desk'.store := by
  rwa [announced, hidle.commits, hidle.store]

theorem Recorded.changed (h : Recorded (announced before desk) desk.store)
    (hchanged : Changed desk previous next desk') (honward : Onward previous next) :
    Recorded (announced before desk') desk'.store :=
  h.edit hchanged.edit hchanged.committed honward

/-! ### One call -/

theorem Onward.of_patch {t : Time.Stamp} (h : Work.patch p previous = .ok next) :
    Onward previous { next with updatedAt := t } := by
  have hid : next.id = previous.id := id_patch h
  exact ⟨hid, (status_of_patch h).imp And.right fun hmoves => eq_of_beq hmoves.2⟩

theorem Recorded.updated {veto : List Work → Work → Except StoreError Unit}
    (h : Recorded (announced before desk) desk.store) (hupdated : Updated desk id p veto w desk') :
    Recorded (announced before desk') desk'.store := by
  obtain ⟨-, patch, -, -, changed⟩ := hupdated
  exact h.changed changed (.of_patch patch)

theorem Recorded.settled {w' : Work} (h : Recorded (announced before desk) desk.store)
    (hsettled : Settled desk w w' desk') : Recorded (announced before desk') desk'.store := by
  cases hsettled with
  | stays => exact h
  | closes closable _ changed =>
    refine h.changed changed ⟨rfl, Or.inr ?_⟩
    rw [closable.1]
    rfl

theorem Recorded.performed (h : Recorded (announced before desk) desk.store)
    (hperformed : Performed q desk desk') : Recorded (announced before desk') desk'.store := by
  cases hperformed with
  | idle idle => exact h.idle idle
  | created _ made =>
    have hrecords := made.committed.records_eq
    apply h.edit (c := .created _) _ (hrecords.symm ▸ made.committed) made.status_eq
    rw [hrecords]
    exact made.edit
  | deleted _ edited => exact h.edit edited.edit edited.committed trivial
  | patched _ updated followed =>
    exact followed.keeps (P := fun d => Recorded (announced before d) d.store)
      (fun hsettled hd => hd.settled hsettled) (fun hidle hd => hd.idle hidle) (h.updated updated)

/-- An item refuses every status but the next one, whatever else the patch asks for. -/
theorem update_eq_invalidTransition {t : Status} (hw : desk.store.get? id = some w)
    (hp : p.status = some t) (ht : w.status.next? ≠ some t) :
    update id p desk = .error (.invalidTransition id w.status t) desk := by
  have hmove : ¬ w.status.canMoveTo t = true := fun hmove => ht (eq_of_beq hmove)
  have hid : w.id = id := Record.id_of_find? hw
  have hpatch : Work.patch p w = .error (.invalidTransition id w.status t) := by
    rw [Work.patch, hp, ← hid]
    exact if_neg hmove
  have hlead : Leads (update id p) desk (fun _ _ => False)
      fun e desk' => e = .invalidTransition id w.status t ∧ desk' = desk := by
    rw [update, leads_bind]
    apply Store.leads_updateWith_of_commit
    · intro e hrefused
      exact ⟨hrefused.of_patch hw hpatch, rfl⟩
    · intro i found patched hpatched
      obtain rfl := Option.some.inj (hw.symm.trans hpatched.get?_eq)
      cases hpatch.symm.trans hpatched.patch
  obtain ⟨_, _, hrun, rfl, rfl⟩ := hlead.exists_error
  exact hrun

/-! ### Runs -/

/-- From an empty store on, whatever calls were made and however they ended, with all that was
announced. -/
inductive Run : Store Work → List (Event Work) → Prop where
  | empty {s : Store Work} (records : s.records = []) : Run s []
  | called {s : Store Work} {events : List (Event Work)} {q : Request} {host : Host}
      {desk : Desk Work} (before : Run s events) (ends : Ends q.run ⟨s, host, []⟩ desk) :
      Run desk.store (events ++ desk.commits.flatMap Commit.events)

variable {s : Store Work} {events : List (Event Work)}

theorem Run.recorded (h : Run s events) : Recorded events s := by
  induction h with
  | empty records =>
    constructor
    · rw [records]
      exact List.nodup_nil
    · intro id
      refine ⟨[], rfl, ?_⟩
      rw [Store.get?, records]
      exact .none
  | @called s events q host desk before ends ih =>
    have hstart : Recorded (announced events ⟨s, host, []⟩) s := by
      rwa [announced, List.flatMap_nil, List.append_nil]
    exact hstart.performed (performed_of_ends ends)

/-- Along every run each id has the history of one item after another, with one item where it was
given once: each is made open, an update leaves the status or moves it one step on, and only the
deletion ends it. No item takes a step twice. A patch that asks an item for any status but the next
one is refused and changes nothing. -/
theorem status_steps_forward (h : Run s events) :
    (∀ id, ∃ lives, history id events = lives.flatten ∧ Lives lives (s.get? id) ∧
      (∀ life ∈ lives, ∀ t, t ≠ .open → life.countP (enters t) ≤ 1) ∧
      ((history id events).countP (·.operation == .create) ≤ 1 →
        history id events = [] ∨ Life (history id events) (s.get? id))) ∧
    ∀ (q : Request) (host : Host) (id : String) (p : Patch) (w : Work) (t : Status),
      q.patch? = some (id, p) → s.get? id = some w → p.status = some t →
      w.status.next? ≠ some t →
        q.run ⟨s, host, []⟩ = .error (.invalidTransition id w.status t) ⟨s, host, []⟩ := by
  constructor
  · intro id
    obtain ⟨lives, hhistory, hlives⟩ := h.recorded.lives id
    refine ⟨lives, hhistory, hlives, ?_, ?_⟩
    · intro life hmem t ht
      obtain ⟨_, hlife⟩ := hlives.exists_life hmem
      exact hlife.countP_enters_le_one ht
    · rw [hhistory]
      exact hlives.eq_nil_or_life
  · intro q host id p w t hq hw hp ht
    rw [Request.run_of_patch? hq]
    exact update_eq_invalidTransition hw hp ht

/-- An item is made and started, and cannot be closed from there. -/
theorem status_steps_forward_started : ∃ (s : Store Work) (events : List (Event Work))
    (host : Host) (made started : Work), Run s events ∧ s.records = [started] ∧
    events = [⟨.created made, 1⟩, ⟨.updated (some made) started, 2⟩] ∧
    started.status = .inProgress ∧
    Life [.created made, .updated (some made) started] (some started) ∧
    (Request.close started.id).run ⟨s, host, []⟩ =
      .error (.invalidTransition started.id .inProgress .closed) ⟨s, host, []⟩ := by
  let data : Location := ⟨["data"], "/data"⟩
  let host : Host := { ids := fun _ => "w", times := fun _ => .epoch }
  let made : Work :=
    ⟨"w", .task, none, "title", "", .open, none, none, Priority.zero.succ, .epoch, .epoch⟩
  let started : Work := { made with status := .inProgress, sessionId := some "s" }
  let starting : Patch := { status := some .inProgress, sessionId := some "s" }
  have hrun : ((Store.done? (Store.open (R := Work) data host)).bind fun x₀ =>
      (Store.done? (create { title := "title" } ⟨x₀.1, x₀.2, []⟩)).bind fun x₁ =>
      (Store.done? (Store.updateWith "w" starting checkParent
        ⟨x₁.2.store, x₁.2.host, []⟩)).map fun x₂ =>
        ([[x₂.1], x₀.1.records, x₂.2.store.records],
          [x₁.2.commits.flatMap Commit.events, x₂.2.commits.flatMap Commit.events])) =
      some ([[started], [], [started]],
        [[⟨.created made, 1⟩], [⟨.updated (some made) started, 2⟩]]) := by
    decide +kernel
  simp only [Option.bind_eq_some_iff, Option.map_eq_some_iff, Prod.exists, Prod.mk.injEq,
    List.cons.injEq, and_true, Store.done?_eq_some] at hrun
  obtain ⟨s₀, h₀, -, w₁, d₁, hcreate, _, d₂, hstart, ⟨rfl, hs₀, hs₂⟩, hmade, hupdated⟩ := hrun
  have hstart : start "w" "s" ⟨d₁.store, d₁.host, []⟩ = .ok started d₂ :=
    update_eq_ok rfl hstart (fun hc => by cases hc.1) (by decide)
  have hcalls : Run d₂.store [⟨.created made, 1⟩, ⟨.updated (some made) started, 2⟩] := by
    have hfirst := (Run.empty hs₀).called (q := .create _) (Or.inl ⟨w₁, hcreate⟩)
    rw [hmade] at hfirst
    have hsecond := hfirst.called (q := .start _ _) (Or.inl ⟨started, hstart⟩)
    rwa [hupdated] at hsecond
  have hget : d₂.store.get? "w" = some started := by
    rw [Store.get?, hs₂]
    rfl
  obtain ⟨hhistory, hrefused⟩ := status_steps_forward hcalls
  obtain ⟨-, -, -, -, hlife⟩ := hhistory "w"
  have hlife := (hlife (by decide)).resolve_left (by decide)
  rw [hget] at hlife
  exact ⟨d₂.store, _, d₂.host, made, started, hcalls, hs₂, rfl, rfl, hlife,
    hrefused (.close "w") d₂.host "w" closing started .closed rfl hget rfl (by decide)⟩

end Work

end WorkQueue
