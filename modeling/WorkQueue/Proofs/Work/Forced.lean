import WorkQueue.Proofs.Work.Calls
import WorkQueue.Proofs.Work.Closing

/-!
# Closing over unfinished children

A cascade closes an item when all its children are closed, and looks at them as they are at that
time. A call that asks for the closing itself looks at no children: it closes an item that is done,
whatever stands below it. From an empty store on, a commit closes an item over a child that is not
closed exactly if it is the first of such a call. All that follow in the call are closings by the
cascade.
-/

namespace WorkQueue.Work

open Record (Distinct)
open Store (Desk Commit)

/-- The commit changes the status of the item to closed. -/
def ClosingOf (c : Commit Work) (w : Work) : Prop :=
  ∃ e ∈ c.events, ∃ previous, e.change = .updated (some previous) w ∧
    previous.status ≠ .closed ∧ w.status = .closed

/-- No child of what the commit closes is unclosed right after it. -/
def Rightful (c : Commit Work) : Prop :=
  ∀ w, ClosingOf c w → ¬ HasUnclosed c.store.records w.id

/-- The call asks for an item to be closed that has an unclosed child. -/
def Request.Forces (q : Request) (works : List Work) : Prop :=
  ∃ id p, q.patch? = some (id, p) ∧ p.status = some .closed ∧ HasUnclosed works id

variable {desk desk' mid : Desk Work} {w w' previous : Work} {id : String} {p : Patch}
  {q : Request}

/-! ### One commit -/

/-- What is committed with the change of an item is rightful, unless it closes the item over a
child. -/
theorem Changed.exists_commit (h : Changed desk previous w desk') :
    ∃ c, desk'.commits = desk.commits ++ [c] ∧ (Rightful c ↔ (previous.status ≠ .closed →
      w.status = .closed → ¬ HasUnclosed desk'.store.records w.id)) := by
  refine ⟨_, h.committed.commits, ?_⟩
  constructor
  · intro hright hunclosed hclosed
    exact hright w ⟨_, List.mem_singleton_self _, previous, rfl, hunclosed, hclosed⟩
  · rintro hright v ⟨e, he, x, hchange, hunclosed, hclosed⟩
    obtain rfl := List.mem_singleton.1 he
    obtain ⟨rfl, rfl⟩ : previous = x ∧ w = v := by simpa using hchange
    exact hright hunclosed hclosed

/-- The cascade closes an item when no child of it is unclosed. -/
theorem Settled.rightful (h : Settled desk w w' desk') (hd : Distinct desk.store.records) :
    ∃ cs, desk'.commits = desk.commits ++ cs ∧ ∀ c ∈ cs, Rightful c := by
  cases h with
  | stays => exact ⟨[], (List.append_nil _).symm, List.forall_mem_nil _⟩
  | @closes t _ hclosable _ changed =>
    obtain ⟨c, hcommits, hright⟩ := changed.exists_commit
    refine ⟨[c], hcommits, ?_⟩
    intro c' hc'
    obtain rfl := List.mem_singleton.1 hc'
    apply hright.2
    rintro - - ⟨x, hx, hparent, hunclosed⟩
    rcases (changed.mem_iff hd).1 hx with rfl | ⟨hx, -⟩
    · exact hunclosed rfl
    · exact hclosable.2 ⟨x, hx, hparent, hunclosed⟩

theorem Followed.rightful (h : Followed mid w desk') (hd : Distinct mid.store.records) :
    ∃ cs, desk'.commits = mid.commits ++ cs ∧ ∀ c ∈ cs, Rightful c := by
  -- distinct ids are kept along, since a closing sees the children of its item by them
  have hkept : Distinct desk'.store.records ∧
      ∃ cs, desk'.commits = mid.commits ++ cs ∧ ∀ c ∈ cs, Rightful c := by
    apply h.keeps (P := fun d => Distinct d.store.records ∧
      ∃ cs, d.commits = mid.commits ++ cs ∧ ∀ c ∈ cs, Rightful c)
    · rintro d d' v v' hsettled ⟨hd₁, cs, hcs, hright⟩
      obtain ⟨cs', hcs', hright'⟩ := hsettled.rightful hd₁
      refine ⟨hsettled.distinct hd₁, cs ++ cs', ?_, List.forall_mem_append.2 ⟨hright, hright'⟩⟩
      rw [hcs', hcs, List.append_assoc]
    · rintro d d' hidle ⟨hd₁, hcs⟩
      rw [hidle.store, hidle.commits]
      exact ⟨hd₁, hcs⟩
    · exact ⟨hd, [], (List.append_nil _).symm, List.forall_mem_nil _⟩
  exact hkept.2

/-! ### The first commit of a patch -/

theorem ne_closed_of_canMoveTo {s t : Status} (h : s.canMoveTo t = true) : s ≠ .closed := by
  rintro rfl
  cases h

/-- A patch that is accepted closes its item exactly if it asks for that. -/
theorem closes_iff_of_patch {next : Work} (h : Work.patch p previous = .ok next) :
    (previous.status ≠ .closed ∧ next.status = .closed) ↔ p.status = some .closed := by
  rcases status_of_patch h with ⟨hnone, hsame⟩ | ⟨hsome, hmove⟩
  · simp [hnone, hsame]
  · rw [hsome, and_iff_right (ne_closed_of_canMoveTo hmove), Option.some_inj]

theorem Updated.exists_commit (h : Updated desk id p checkParent w mid)
    (hs : Sound desk.store.records) : ∃ c, mid.commits = desk.commits ++ [c] ∧
      (Rightful c ↔ ¬ (p.status = some .closed ∧ HasUnclosed desk.store.records id)) := by
  have hs' := h.sound hs
  have hid := h.id_eq
  obtain ⟨found, patch, -, -, changed⟩ := h
  obtain ⟨c, hcommits, hright⟩ := changed.exists_commit
  have hchildren := changed.hasUnclosed_iff hs hs'
  refine ⟨c, hcommits, hright.trans ?_⟩
  rw [hchildren, hid, ← closes_iff_of_patch patch, and_assoc, not_and, not_and]

/-! ### Calls -/

/-- Only a patch changes a status, so what any other call commits is rightful. -/
theorem rightful_iff_of_patch?_eq_none {works : List Work} {change : Change Work} {n : Nat}
    {s : Store Work} {host : Host} (hpatch : q.patch? = none)
    (hne : ∀ previous next, change ≠ .updated (some previous) next) :
    Rightful ⟨[⟨change, n⟩], s, host⟩ ↔ ¬ q.Forces works := by
  apply iff_of_true
  · rintro w ⟨e, he, previous, hchange, -⟩
    obtain rfl := List.mem_singleton.1 he
    exact absurd hchange (hne previous w)
  · rintro ⟨id, p, hasked, -⟩
    rw [hpatch] at hasked
    cases hasked

/-- A call has committed nothing; or only its first commit closes an item over a child, and does so
exactly if the call asks for that. -/
theorem Performed.rightful (h : Performed q desk desk') (hs : Sound desk.store.records) :
    desk'.commits = desk.commits ∨ ∃ c cs, desk'.commits = desk.commits ++ c :: cs ∧
      (∀ c' ∈ cs, Rightful c') ∧ (Rightful c ↔ ¬ q.Forces desk.store.records) := by
  cases h with
  | idle idle => exact Or.inl idle.commits
  | created asked made =>
    exact Or.inr ⟨_, [], made.committed.commits, List.forall_mem_nil _,
      rightful_iff_of_patch?_eq_none (asked ▸ rfl) (by simp)⟩
  | deleted asked edited =>
    exact Or.inr ⟨_, [], edited.committed.commits, List.forall_mem_nil _,
      rightful_iff_of_patch?_eq_none (asked ▸ rfl) (by simp)⟩
  | @patched id p w mid _ asked updated followed =>
    obtain ⟨c, hfirst, hright⟩ := updated.exists_commit hs
    obtain ⟨cs, hcs, hrest⟩ := followed.rightful (updated.sound hs).distinct
    refine Or.inr ⟨c, cs, ?_, hrest, hright.trans (not_congr ?_)⟩
    · rw [hcs, hfirst, List.append_assoc, List.singleton_append]
    · constructor
      · rintro ⟨hclosed, hchild⟩
        exact ⟨id, p, asked, hclosed, hchild⟩
      · rintro ⟨id', p', hpatch, hclosed, hchild⟩
        cases asked.symm.trans hpatch
        exact ⟨hclosed, hchild⟩

/-- In the states that calls lead to from an empty store, however they end, a commit of a call
closes no item that has an unclosed child, exactly as long as the call does nothing or does not ask
for that. Its first commit apart, no commit does so in any case. -/
theorem closings_rightful_iff {s₀ : Store Work} (hempty : s₀.records = [])
    {later : List (Store Work)} (hrun : (s₀ :: later).IsChain Called) :
    ∀ s ∈ s₀ :: later, ∀ (q : Request) (host : Host) (desk' : Desk Work),
      Ends q.run ⟨s, host, []⟩ desk' →
        (∀ c ∈ desk'.commits.tail, Rightful c) ∧
        ((∀ c ∈ desk'.commits, Rightful c) ↔ desk'.commits = [] ∨ ¬ q.Forces s.records) := by
  intro s hs q host desk' hends
  rcases (performed_of_ends hends).rightful (sound_of_calls hempty hrun s hs) with
    hnone | ⟨c, cs, hcommits, hrest, hfirst⟩
  · simp [hnone]
  · rw [hcommits, List.nil_append, List.tail_cons, List.forall_mem_cons]
    refine ⟨hrest, ?_⟩
    rw [hfirst, and_iff_left hrest, or_iff_right (List.cons_ne_nil c cs)]

/-! ### A parent that is closed by a call -/

/-- An item without a parent that is closed lets nothing else close. -/
theorem close_eq_ok {id : String} (h : Store.updateWith id closing checkParent desk = .ok w mid)
    (hclosed : w.status = .closed) (hroot : w.parentId = none) : close id desk = .ok w mid := by
  apply update_eq_ok_of_none rfl h
  · rintro ⟨hdone, -⟩
    rw [hdone] at hclosed
    cases hclosed
  · rw [waitingParent?, if_pos hclosed, hroot]
    rfl

/-- A parent and a child are made, and the parent is done. It is closed right away, or once the
child is deleted. -/
private theorem exists_forcing_run : ∃ (data : Location) (host host' : Host)
    (s₀ s₁ s₂ s₃ s₄ s₅ : Store Work) (h₄ h₅ : Host) (p c closed : Work) (d d' : Desk Work),
    Store.open data host = .ok s₀ host' ∧ [s₀, s₁, s₂, s₃, s₄, s₅].IsChain Called ∧
    s₀.records = [] ∧ s₄.records = [p, c] ∧ s₅.records = [p] ∧ p.status = .done ∧
    p.parentId = none ∧ c.parentId = some p.id ∧ c.status = .open ∧ closed.status = .closed ∧
    (Request.close p.id).run ⟨s₄, h₄, []⟩ = .ok closed d ∧
    (Request.close p.id).run ⟨s₅, h₅, []⟩ = .ok closed d' := by
  let data : Location := ⟨["data"], "/data"⟩
  let host : Host := { ids := fun n => if n = 0 then "p" else "c", times := fun _ => .epoch }
  let one : Priority := Priority.zero.succ
  let p : Work := ⟨"p", .story, none, "parent", "", .open, none, none, one, .epoch, .epoch⟩
  let c : Work := ⟨"c", .task, some "p", "child", "", .open, none, none, one.succ, .epoch, .epoch⟩
  let started : Work := { p with status := .inProgress, sessionId := some "s" }
  let done : Work := { started with status := .done }
  let closed : Work := { done with status := .closed }
  let starting : Patch := { status := some .inProgress, sessionId := some "s" }
  let finishing : Patch := { status := some .done }
  have hrun : ((Store.done? (Store.open (R := Work) data host)).bind fun x₀ =>
      (Store.done? (create { kind := .story, title := "parent" } ⟨x₀.1, x₀.2, []⟩)).bind fun x₁ =>
      (Store.done? (create { title := "child", parentId := some "p" }
        ⟨x₁.2.store, x₁.2.host, []⟩)).bind fun x₂ =>
      (Store.done? (Store.updateWith "p" starting checkParent
        ⟨x₂.2.store, x₂.2.host, []⟩)).bind fun x₃ =>
      (Store.done? (Store.updateWith "p" finishing checkParent
        ⟨x₃.2.store, x₃.2.host, []⟩)).bind fun x₄ =>
      (Store.done? (delete "c" ⟨x₄.2.store, x₄.2.host, []⟩)).bind fun x₅ =>
      (Store.done? (Store.updateWith "p" closing checkParent
        ⟨x₄.2.store, x₄.2.host, []⟩)).bind fun x₆ =>
      (Store.done? (Store.updateWith "p" closing checkParent
        ⟨x₅.2.store, x₅.2.host, []⟩)).map fun x₇ =>
        ([x₃.1, x₄.1, x₆.1, x₇.1],
          [x₀.1.records, x₄.2.store.records, x₅.2.store.records])) =
      some ([started, done, closed, closed], [[], [done, c], [done]]) := by
    decide +kernel
  simp only [Option.bind_eq_some_iff, Option.map_eq_some_iff, Prod.exists, Prod.mk.injEq,
    List.cons.injEq, Store.done?_eq_some] at hrun
  obtain ⟨s₀, h₀, hopen, w₁, d₁, hparent, w₂, d₂, hchild, w₃, d₃, hstart, w₄, d₄, hdone, w₅, d₅,
    hdelete, w₆, d₆, hforce, w₇, d₇, hclose, ⟨rfl, rfl, rfl, rfl, -⟩, hs₀, hs₄, hs₅, -⟩ := hrun
  have hstart : start "p" "s" ⟨d₂.store, d₂.host, []⟩ = .ok started d₃ :=
    update_eq_ok rfl hstart (fun hc => by cases hc.1) (by decide)
  have hwaits : HasUnclosed d₄.store.records done.id := ⟨c, by simp [hs₄], rfl, by decide⟩
  have hdone : markDone "p" ⟨d₃.store, d₃.host, []⟩ = .ok done d₄ :=
    update_eq_ok rfl hdone (fun hc => hc.2 hwaits) (by decide)
  have hcalls : [s₀, d₁.store, d₂.store, d₃.store, d₄.store, d₅.store].IsChain Called :=
    .cons_cons (called_of_ok (q := .create _) hparent)
      (.cons_cons (called_of_ok (q := .create _) hchild)
        (.cons_cons (called_of_ok (q := .start _ _) hstart)
          (.cons_cons (called_of_ok (q := .markDone _) hdone)
            (.cons_cons (called_of_ok (q := .delete _) hdelete) (.singleton _)))))
  exact ⟨data, host, h₀, s₀, _, _, _, _, _, d₄.host, d₅.host, done, c, closed, d₆, d₇, hopen,
    hcalls, hs₀, hs₄, hs₅, rfl, rfl, rfl, rfl, rfl, close_eq_ok hforce rfl rfl,
    close_eq_ok hclose rfl rfl⟩

/-- A parent that has lost its child is closed by a call, which is rightful. -/
theorem closings_rightful_iff_childless : ∃ (s₀ s₁ s₂ s₃ s₄ s₅ : Store Work) (host : Host)
    (p closed : Work) (desk' : Desk Work), s₀.records = [] ∧
    [s₀, s₁, s₂, s₃, s₄, s₅].IsChain Called ∧ s₅.records = [p] ∧ p.status = .done ∧
    (Request.close p.id).run ⟨s₅, host, []⟩ = .ok closed desk' ∧ closed.status = .closed ∧
    ∀ c ∈ desk'.commits, Rightful c := by
  obtain ⟨-, -, -, s₀, s₁, s₂, s₃, s₄, s₅, -, h₅, p, -, closed, -, d, -, hcalls, hempty, -, hs₅,
    hdone, hroot, -, -, hclosed, -, hrun⟩ := exists_forcing_run
  have hchildless : ¬ (Request.close p.id).Forces s₅.records := by
    rintro ⟨id, patch, hpatch, -, x, hx, hparent, -⟩
    rw [hs₅, List.mem_singleton] at hx
    rw [hx, hroot] at hparent
    cases hparent
  have hright := (closings_rightful_iff hempty hcalls s₅ (by simp) (.close p.id) h₅ d
    (Or.inl ⟨closed, hrun⟩)).2.2 (Or.inr hchildless)
  exact ⟨s₀, s₁, s₂, s₃, s₄, s₅, h₅, p, closed, d, hempty, hcalls, hs₅, hdone, hrun, hclosed,
    hright⟩

/-- A parent that waits for its child is closed by a call. -/
theorem call_closes_waiting_parent : ¬ ∀ (data : Location) (host host' : Host) (s₀ : Store Work)
    (later : List (Store Work)), Store.open data host = .ok s₀ host' → s₀.records = [] →
    (s₀ :: later).IsChain Called → ∀ s ∈ s₀ :: later, ∀ (q : Request) (host : Host)
      (desk' : Desk Work), Ends q.run ⟨s, host, []⟩ desk' → ∀ c ∈ desk'.commits, Rightful c := by
  intro h
  obtain ⟨data, host, host', s₀, s₁, s₂, s₃, s₄, s₅, h₄, -, p, c, closed, d, -, hopen, hcalls,
    hempty, hs₄, -, -, -, hparent, hchild, -, hrun, -⟩ := exists_forcing_run
  have hright := h data host host' s₀ _ hopen hempty hcalls s₄ (by simp) (.close p.id) h₄ d
    (Or.inl ⟨closed, hrun⟩)
  have hsound := sound_of_calls hempty hcalls s₄ (by simp)
  have hforced : HasUnclosed s₄.records p.id := ⟨c, by simp [hs₄], hparent, by simp [hchild]⟩
  obtain ⟨w, mid, hupdated, hfollowed⟩ := (leads_update_followed p.id closing).of_ok hrun
  obtain ⟨k, hfirst, hiff⟩ := hupdated.exists_commit hsound
  obtain ⟨cs, hcs, -⟩ := hfollowed.rightful (hupdated.sound hsound).distinct
  exact hiff.1 (hright k (by simp [hcs, hfirst])) ⟨rfl, hforced⟩

end WorkQueue.Work
