import WorkQueue.Proofs.Work.Closing

/-!
# The order of finishing

Several items that are in progress are done one after another, each by a call of its own. What is
closed in the end can be said without any order: `Finished` is the least set of items that contains
what was closed before, and with all children of an item also the item itself, if it is one of those
that the calls are for, or was done and waited for a child before. What is not finished is done if a
call was for it, and is as it was otherwise. So two orders end with the same items, up to the times
of their changes.

`Outcome` says how far a run has come. While a call is on its way, one item is exempt from the
rule that what is done waits for a child.
-/

namespace WorkQueue.Work

open Time
open Record (Distinct)
open Store (Desk)

/-- The parent of every item is there. -/
def Linked (works : List Work) : Prop :=
  ∀ w ∈ works, ∀ id, w.parentId = some id → ∃ p ∈ works, p.id = id

/-- What is closed once the items with these ids have been done. -/
inductive Finished (works : List Work) (ids : List String) : Work → Prop where
  | before {w : Work} (closed : w.status = .closed) : Finished works ids w
  | after {w : Work} (cause : w.id ∈ ids ∨ w.status = .done ∧ HasUnclosed works w.id)
      (children : ∀ c ∈ works, c.parentId = some w.id → Finished works ids c) :
      Finished works ids w

/-- The item but for the time of its last change. -/
def untimed (w : Work) : Work := { w with updatedAt := .epoch }

/-- The item but for its status and the time of its last change. -/
def frame (w : Work) : Work := { w with status := .open, updatedAt := .epoch }

variable {works : List Work} {ids : List String} {w x r : Work} {t : Stamp}

theorem Finished.mono {ids' : List String} (h : Finished works ids w) (hids : ids ⊆ ids') :
    Finished works ids' w := by
  induction h with
  | before closed => exact .before closed
  | after cause children ih => exact .after (cause.imp_left fun h => hids h) ih

theorem id_eq_of_frame (h : frame w = frame x) : w.id = x.id := by
  change (frame w).id = (frame x).id
  rw [h]

theorem parentId_eq_of_frame (h : frame w = frame x) : w.parentId = x.parentId := by
  change (frame w).parentId = (frame x).parentId
  rw [h]

theorem untimed_eq_of_frame (h : frame w = frame x) (hs : w.status = x.status) :
    untimed w = untimed x := by
  cases w
  cases x
  simp only [frame, untimed, Work.mk.injEq] at h hs ⊢
  simp [h, hs]

/-! ### How far a run has come -/

/-- What the calls for some of the items have made of each. -/
structure Outcome (works : List Work) (called : List String) (exempt : Option String)
    (now : Work → Work) : Prop where
  frame : ∀ r ∈ works, frame (now r) = frame r
  asked : ∀ r ∈ works, r.id ∈ called → r.status = .inProgress
  unclosed : ∀ r ∈ works, (now r).status ≠ .closed →
    (now r).status = if r.id ∈ called then .done else r.status
  closed : ∀ r ∈ works, r.status = .closed → (now r).status = .closed
  finished : ∀ r ∈ works, (now r).status = .closed → Finished works called r
  waits : ∀ r ∈ works, (now r).status = .done → some r.id ≠ exempt →
    r.status = .done ∧ ¬ HasUnclosed works r.id ∨ HasUnclosed (works.map now) r.id

variable {called : List String} {exempt : Option String} {now : Work → Work}

theorem outcome_start (works : List Work) : Outcome works [] none fun r => r where
  frame _ _ := rfl
  asked r _ h := nomatch h
  unclosed _ _ _ := rfl
  closed _ _ h := h
  finished _ _ h := .before h
  waits r _ hdone _ := by
    rw [List.map_id']
    exact (Classical.em (HasUnclosed works r.id)).symm.imp_left fun h => ⟨hdone, h⟩

theorem Outcome.id_eq (h : Outcome works called exempt now) (hr : r ∈ works) : (now r).id = r.id :=
  id_eq_of_frame (h.frame r hr)

theorem Outcome.parentId_eq (h : Outcome works called exempt now) (hr : r ∈ works) :
    (now r).parentId = r.parentId :=
  parentId_eq_of_frame (h.frame r hr)

theorem Outcome.distinct (h : Outcome works called exempt now) (hd : Distinct works) :
    Distinct (works.map now) := by
  have hids : (works.map now).map Work.id = works.map Work.id := by
    rw [List.map_map]
    exact List.map_congr_left fun r hr => h.id_eq hr
  exact (congrArg List.Nodup hids).mpr hd

/-- An item has an unclosed child where one of its children is unclosed now. -/
theorem Outcome.hasUnclosed_iff (h : Outcome works called exempt now) {id : String} :
    HasUnclosed (works.map now) id ↔
      ∃ c ∈ works, c.parentId = some id ∧ (now c).status ≠ .closed := by
  simp only [HasUnclosed, List.mem_map, exists_exists_and_eq_and]
  refine exists_congr fun c => and_congr_right fun hc => ?_
  rw [h.parentId_eq hc]

/-- Nothing that no call was for yet has closed while it was in progress. -/
theorem Outcome.status_of_inProgress (h : Outcome works called exempt now) (hr : r ∈ works)
    (hstatus : r.status = .inProgress) (hnot : r.id ∉ called) : (now r).status = .inProgress := by
  have hunclosed : (now r).status ≠ .closed := by
    intro hclosed
    cases h.finished r hr hclosed with
    | before closed => simp [hstatus] at closed
    | after cause children => simp [hnot, hstatus] at cause
  rw [h.unclosed r hr hunclosed, if_neg hnot, hstatus]

/-- The items that are closed are the finished ones. -/
theorem Outcome.closed_iff (h : Outcome works called none now) (hr : r ∈ works) :
    (now r).status = .closed ↔ Finished works called r := by
  refine ⟨h.finished r hr, fun hfinished => ?_⟩
  induction hfinished with
  | before closed => exact h.closed _ hr closed
  | @after w cause children ih =>
    by_contra hunclosed
    have hdone : (now w).status = .done := by
      rw [h.unclosed w hr hunclosed]
      by_cases hcalled : w.id ∈ called
      · rw [if_pos hcalled]
      · rw [if_neg hcalled]
        exact (cause.resolve_left hcalled).1
    rcases h.waits w hr hdone (by simp) with ⟨hwas, hnone⟩ | hwaits
    · rcases cause with hcalled | ⟨-, hsome⟩
      · rw [h.asked w hr hcalled] at hwas
        cases hwas
      · exact hnone hsome
    · obtain ⟨c, hc, hparent, hcunclosed⟩ := h.hasUnclosed_iff.1 hwaits
      exact hcunclosed (ih c hc hparent hc)

/-- The calls alone decide, not their order. -/
theorem Outcome.untimed_eq {called' : List String} {now' : Work → Work}
    (h : Outcome works called none now) (h' : Outcome works called' none now')
    (hcalled : ∀ id, id ∈ called ↔ id ∈ called') (hr : r ∈ works) :
    untimed (now r) = untimed (now' r) := by
  refine untimed_eq_of_frame ((h.frame r hr).trans (h'.frame r hr).symm) ?_
  have hfinished : Finished works called r ↔ Finished works called' r :=
    ⟨fun hf => hf.mono fun id => (hcalled id).1, fun hf => hf.mono fun id => (hcalled id).2⟩
  by_cases hclosed : (now r).status = .closed
  · rw [hclosed, (h'.closed_iff hr).2 (hfinished.1 ((h.closed_iff hr).1 hclosed))]
  · have hclosed' : (now' r).status ≠ .closed := by
      intro hclosed'
      exact hclosed ((h.closed_iff hr).2 (hfinished.2 ((h'.closed_iff hr).1 hclosed')))
    rw [h.unclosed r hr hclosed, h'.unclosed r hr hclosed', if_congr (hcalled r.id) rfl rfl]

/-! ### One call -/

/-- The item that a call is for is done. -/
theorem Outcome.mark (h : Outcome works called none now) (hd : Distinct works) (hw : w ∈ works)
    (hstatus : w.status = .inProgress) (hframe : Work.frame x = Work.frame w)
    (hdone : x.status = .done) :
    Outcome works (w.id :: called) (some w.id) (fun r => if r.id = w.id then x else now r) where
  frame r hr := by
    by_cases hid : r.id = w.id
    · obtain rfl := List.inj_on_of_nodup_map hd hr hw hid
      rw [if_pos rfl, hframe]
    · rw [if_neg hid, h.frame r hr]
  asked r hr hcalled := by
    rcases List.mem_cons.1 hcalled with hid | hcalled
    · exact List.inj_on_of_nodup_map hd hr hw hid ▸ hstatus
    · exact h.asked r hr hcalled
  unclosed r hr hunclosed := by
    by_cases hid : r.id = w.id
    · rw [if_pos hid, hdone, if_pos (hid ▸ List.mem_cons_self)]
    · rw [if_neg hid] at hunclosed ⊢
      rw [h.unclosed r hr hunclosed]
      simp [hid]
  closed r hr hclosed := by
    have hid : r.id ≠ w.id := by
      intro hid
      obtain rfl := List.inj_on_of_nodup_map hd hr hw hid
      rw [hstatus] at hclosed
      cases hclosed
    rw [if_neg hid]
    exact h.closed r hr hclosed
  finished r hr hclosed := by
    by_cases hid : r.id = w.id
    · rw [if_pos hid, hdone] at hclosed
      cases hclosed
    · rw [if_neg hid] at hclosed
      exact (h.finished r hr hclosed).mono (List.subset_cons_self _ _)
  waits r hr hrdone hne := by
    have hid : r.id ≠ w.id := fun hid => hne (hid ▸ rfl)
    rw [if_neg hid] at hrdone
    refine (h.waits r hr hrdone (by simp)).imp_right fun hwaits => ?_
    obtain ⟨c, hc, hparent, hunclosed⟩ := h.hasUnclosed_iff.1 hwaits
    refine ⟨_, List.mem_map_of_mem hc, ?_⟩
    by_cases hcid : c.id = w.id
    · obtain rfl := List.inj_on_of_nodup_map hd hc hw hcid
      rw [if_pos rfl, parentId_eq_of_frame hframe, hdone]
      exact ⟨hparent, by simp⟩
    · rw [if_neg hcid, h.parentId_eq hc]
      exact ⟨hparent, hunclosed⟩

/-- What closes on the line above an item that is done is finished. -/
theorem Outcome.finished_of_closes (h : Outcome works called exempt now) {k : Nat}
    (hx : x.status = .done) (hcalled : x.id ∈ called) (hmem : x ∈ works.map now)
    (hk : Closes (works.map now) x k) (hr : r ∈ works)
    (hline : ancestor? (works.map now) x k = some (now r)) : Finished works called r := by
  induction k using Nat.strong_induction_on generalizing r with
  | _ k ih =>
    rcases hk.status hline with hclosed | hdone
    · exact h.finished r hr hclosed
    refine .after ?_ fun c hc hparent => ?_
    · have hwas := h.unclosed r hr (by simp [hdone])
      by_cases hin : r.id ∈ called
      · exact Or.inl hin
      rw [if_neg hin, hdone] at hwas
      refine Or.inr ⟨hwas.symm, ?_⟩
      cases k with
      | zero =>
        have hid : (now r).id = x.id := congrArg Work.id (Option.some.inj hline).symm
        rw [h.id_eq hr] at hid
        exact absurd (hid ▸ hcalled) hin
      | succ k =>
        -- the one below on the line was not closed before this call
        obtain ⟨y, hy, hparent, -⟩ := ancestor?_succ_eq_some.1 hline
        obtain ⟨c, hc, rfl⟩ := List.mem_map.1 (mem_of_ancestor? hmem hy)
        have hcdone : (now c).status = .done := (hk.of_le (Nat.le_succ k)).done hx hy
        rw [h.parentId_eq hc, h.id_eq hr] at hparent
        refine ⟨c, hc, hparent, fun hclosed => ?_⟩
        rw [h.closed c hc hclosed] at hcdone
        cases hcdone
    · have hlink : (now c).parentId = some (now r).id := by
        rw [h.parentId_eq hc, h.id_eq hr, hparent]
      rcases hk.children hline hdone (now c) (List.mem_map_of_mem hc) hlink with
        hclosed | ⟨j, hj, hcline⟩
      · exact h.finished c hc hclosed
      · exact ih j hj (hk.of_le hj.le) hc hcline

/-- The line above the item that the call is for closes, and nothing is exempt any more. -/
theorem Outcome.close {id : String} (h : Outcome works called (some id) now) {works' : List Work}
    (hd : Distinct works) (hmem : x ∈ works.map now) (hid : x.id = id) (hcalled : id ∈ called)
    (hx : x.status = .done) (hclosed : ClosedAlong (works.map now) x works') :
    ∃ now', works' = works.map now' ∧ Outcome works called none now' := by
  obtain ⟨m, t, hm, rfl⟩ := hclosed
  subst hid
  let now' : Work → Work := fun r =>
    if DoneBelow (works.map now) x m (now r) then (now r).closedAt (t (now r).id) else now r
  have hmap : closedBelow (works.map now) x m t = works.map now' := List.map_map
  have hkept {r : Work} (hr : ¬ DoneBelow (works.map now) x m (now r)) : now' r = now r := if_neg hr
  have hclosed {r : Work} (hr : DoneBelow (works.map now) x m (now r)) :
      (now' r).status = .closed := by
    change (if DoneBelow (works.map now) x m (now r) then (now r).closedAt (t (now r).id)
      else now r).status = .closed
    rw [if_pos hr]
    rfl
  refine ⟨now', hmap, ?_⟩
  constructor
  · intro r hr
    rw [← h.frame r hr]
    change Work.frame (if _ then _ else _) = _
    split <;> rfl
  · exact h.asked
  · intro r hr hunclosed
    have hr' := mt hclosed hunclosed
    rw [hkept hr'] at hunclosed ⊢
    exact h.unclosed r hr hunclosed
  · intro r hr hwas
    by_cases hr' : DoneBelow (works.map now) x m (now r)
    · exact hclosed hr'
    · rw [hkept hr']
      exact h.closed r hr hwas
  · intro r hr hrclosed
    by_cases hr' : DoneBelow (works.map now) x m (now r)
    · obtain ⟨-, j, hj, hline⟩ := hr'
      exact h.finished_of_closes hx hcalled hmem ((hm j).2 hj) hr hline
    · rw [hkept hr'] at hrclosed
      exact h.finished r hr hrclosed
  · intro r hr hdone _
    have hr' : ¬ DoneBelow (works.map now) x m (now r) := by
      intro hr'
      rw [hclosed hr'] at hdone
      cases hdone
    rw [hkept hr'] at hdone
    have hnow : now r ∈ works.map now := List.mem_map_of_mem hr
    have hstill (hwaits : now r = x ∨ HasUnclosed (works.map now) (now r).id) :
        HasUnclosed (works.map now') r.id := by
      rw [← hmap, ← h.id_eq hr]
      exact hasUnclosed_of_not_doneBelow (h.distinct hd) hm hnow hdone hr' hwaits
    by_cases hid : r.id = x.id
    · have hsame := List.inj_on_of_nodup_map (h.distinct hd) hnow hmem ((h.id_eq hr).trans hid)
      exact Or.inr (hstill (Or.inl hsame))
    · have hwaits := h.waits r hr hdone fun hexempt => hid (Option.some.inj hexempt)
      refine hwaits.imp_right fun hwaits => hstill (Or.inr ?_)
      rw [h.id_eq hr]
      exact hwaits

theorem checkParent_of_linked {w : Work} (h : ∀ id, w.parentId = some id → ∃ p ∈ works, p.id = id) :
    checkParent works w = .ok () := by
  unfold checkParent
  cases hparent : w.parentId with
  | none => rfl
  | some id =>
    obtain ⟨p, hp, hid⟩ := h id hparent
    exact if_pos (List.any_eq_true.2 ⟨p, hp, decide_eq_true hid⟩)

variable {desk desk' : Desk Work}

/-- A patch that an item takes, and that is allowed and valid, is carried out. -/
theorem leads_updateWith_of_accepted {id : String} {p : Patch} {next : Work}
    (hserved : desk.Served) (hfound : desk.store.get? id = some w)
    (hpatch : Work.patch p w = .ok next) (hallowed : checkParent desk.store.records next = .ok ())
    (hvalid : validate next = .ok ()) :
    Leads (Store.updateWith id p checkParent) desk
      (fun x desk' => ∃ t, x = { next with updatedAt := t } ∧ Changed desk w x desk' ∧ desk'.Served)
      (fun _ _ => False) := by
  apply ((leads_updateWith id p checkParent).and
    (Store.leads_updateWith_of_served id p checkParent hserved)).mono
  · rintro x desk' ⟨⟨found, patch, -, -, changed⟩, hserved'⟩
    obtain rfl := Option.some.inj (hfound.symm.trans found)
    obtain rfl := Except.ok.inj (hpatch.symm.trans patch)
    exact ⟨_, rfl, changed, hserved'⟩
  · rintro e desk' ⟨-, hrefused⟩
    rcases hrefused.veto_or_invalid hfound hpatch with hveto | ⟨v, -, hinvalid⟩
    · rw [hallowed] at hveto
      cases hveto
    · rw [show Record.validate next = .ok () from hvalid] at hinvalid
      cases hinvalid

/-- An item in progress whose parent is there can be done. -/
theorem exists_markDone_eq (hs : Sound desk.store.records) (hserved : desk.Served)
    (hw : w ∈ desk.store.records) (hstatus : w.status = .inProgress)
    (hlinked : ∀ id, w.parentId = some id → ∃ p ∈ desk.store.records, p.id = id) :
    ∃ t w' desk', markDone w.id desk = .ok w' desk' ∧
      Through (desk.store.records.map fun r =>
          if r.id = w.id then { w with status := .done, updatedAt := t } else r)
        { w with status := .done, updatedAt := t } w' desk' := by
  have hfound : desk.store.get? w.id = some w := hs.distinct.find?_of_mem hw
  have hpatch : Work.patch { status := some .done } w = .ok { w with status := .done } := by
    have hmove : w.status.canMoveTo .done = true := by rw [hstatus]; rfl
    simp only [Work.patch, if_pos hmove]
    rfl
  have hallowed : checkParent desk.store.records { w with status := .done } = .ok () :=
    checkParent_of_linked hlinked
  -- the check does not look at the status
  have hvalid : validate { w with status := .done } = .ok () := hs.valid w hw
  have hlead := leads_updateWith_of_accepted hserved hfound hpatch hallowed hvalid
  cases hfirst : Store.updateWith w.id ({ status := some .done } : Patch) checkParent desk with
  | ok x mid =>
    obtain ⟨w', desk', hrun, -, hthrough⟩ := exists_update_eq hs hserved rfl hfirst
    obtain ⟨t, rfl, changed, -⟩ := hlead.of_ok hfirst
    rw [changed.edit.eq_map hs.distinct] at hthrough
    exact ⟨t, w', desk', hrun, hthrough⟩
  | error e desk' => exact (hlead.of_error hfirst).elim

/-! ### Whole runs -/

/-- A run that has come through the calls for these items. -/
structure Progress (works : List Work) (called : List String) (desk : Desk Work) : Prop where
  served : desk.Served
  sound : Sound desk.store.records
  outcome : ∃ now, desk.store.records = works.map now ∧ Outcome works called none now

theorem progress_start (hs : Sound desk.store.records) (hserved : desk.Served) :
    Progress desk.store.records [] desk :=
  ⟨hserved, hs, _, (List.map_id' _).symm, outcome_start _⟩

theorem Progress.step (h : Progress works called desk) (hd : Distinct works) (hl : Linked works)
    (hw : w ∈ works) (hstatus : w.status = .inProgress) (hnot : w.id ∉ called) :
    ∃ w' desk', markDone w.id desk = .ok w' desk' ∧ Progress works (w.id :: called) desk' := by
  obtain ⟨hserved, hs, now, hrecords, hout⟩ := h
  have hnow : now w ∈ desk.store.records := hrecords ▸ List.mem_map_of_mem hw
  have hlinked : ∀ id, (now w).parentId = some id → ∃ p ∈ desk.store.records, p.id = id := by
    intro id hparent
    rw [hout.parentId_eq hw] at hparent
    obtain ⟨p, hp, hid⟩ := hl w hw id hparent
    exact ⟨now p, hrecords ▸ List.mem_map_of_mem hp, (hout.id_eq hp).trans hid⟩
  obtain ⟨t, w', desk', hrun, hthrough⟩ := exists_markDone_eq hs hserved hnow
    (hout.status_of_inProgress hw hstatus hnot) hlinked
  let x : Work := { now w with status := .done, updatedAt := t }
  have hmarked := hout.mark (x := x) hd hw hstatus (hout.frame w hw) rfl
  have hmid : desk.store.records.map (fun r => if r.id = (now w).id then x else r) =
      works.map fun r => if r.id = w.id then x else now r := by
    rw [hrecords, List.map_map]
    refine List.map_congr_left fun r hr => ?_
    simp only [Function.comp_apply, hout.id_eq hr, hout.id_eq hw]
  have hclosed := hthrough.closed
  rw [hmid] at hclosed
  have hmem : x ∈ works.map fun r => if r.id = w.id then x else now r :=
    List.mem_map.2 ⟨w, hw, if_pos rfl⟩
  obtain ⟨now', hrecords', hout'⟩ :=
    hmarked.close hd hmem (hout.id_eq hw) List.mem_cons_self rfl hclosed
  rw [hout.id_eq hw] at hrun
  exact ⟨w', desk', hrun, hthrough.served, hthrough.sound, now', hrecords', hout'⟩

theorem exists_forM_markDone_eq (h : Progress works called desk) (hd : Distinct works)
    (hl : Linked works) (hnodup : ids.Nodup) (hids : ∀ id ∈ ids, id ∉ called ∧
      ∃ w ∈ works, w.id = id ∧ w.status = .inProgress) :
    ∃ desk', (ids.forM fun id => discard (markDone id)) desk = .ok ⟨⟩ desk' ∧
      ∃ done, (∀ id, id ∈ done ↔ id ∈ ids ∨ id ∈ called) ∧ Progress works done desk' := by
  induction ids generalizing called desk with
  | nil => exact ⟨desk, rfl, called, by simp, h⟩
  | cons id ids ih =>
    obtain ⟨hnot, w, hw, rfl, hstatus⟩ := hids id List.mem_cons_self
    obtain ⟨hfresh, hnodup⟩ := List.nodup_cons.1 hnodup
    obtain ⟨w', desk₁, hrun, h₁⟩ := h.step hd hl hw hstatus hnot
    have hrest : ∀ id ∈ ids, id ∉ w.id :: called ∧
        ∃ w ∈ works, w.id = id ∧ w.status = .inProgress := by
      intro id hid
      obtain ⟨hnot', hfound⟩ := hids id (List.mem_cons_of_mem _ hid)
      refine ⟨?_, hfound⟩
      rintro (_ | ⟨_, hmem⟩)
      · exact hfresh hid
      · exact hnot' hmem
    obtain ⟨desk', hruns, done, hdone, h'⟩ := ih h₁ hnodup hrest
    refine ⟨desk', ?_, done, fun id => ?_, h'⟩
    · have hfirst : discard (markDone w.id) desk = .ok ⟨⟩ desk₁ := map_of_ok hrun _
      exact (bind_of_ok hfirst _).trans hruns
    · rw [hdone, List.mem_cons, List.mem_cons]
      tauto

/-- Items that are in progress are done one after another, in two orders, each on a disk that
refuses nothing. Every call succeeds, and both orders end with the same items in the same places,
but for the times of their last change. -/
theorem finishing_order_irrelevant {ids' : List String} (hs : Sound desk.store.records)
    (hl : Linked desk.store.records) (hsame : desk'.store.records = desk.store.records)
    (hserved : desk.Served) (hserved' : desk'.Served) (hnodup : ids.Nodup)
    (hids : ∀ id ∈ ids, ∃ w ∈ desk.store.records, w.id = id ∧ w.status = .inProgress)
    (hperm : ids'.Perm ids) :
    ∃ last last', (ids.forM fun id => discard (markDone id)) desk = .ok ⟨⟩ last ∧
      (ids'.forM fun id => discard (markDone id)) desk' = .ok ⟨⟩ last' ∧
      last.store.records.map untimed = last'.store.records.map untimed := by
  have hids₀ : ∀ id ∈ ids, id ∉ ([] : List String) ∧
      ∃ w ∈ desk.store.records, w.id = id ∧ w.status = .inProgress :=
    fun id hid => ⟨List.not_mem_nil, hids id hid⟩
  have hstart' : Progress desk.store.records [] desk' :=
    hsame ▸ progress_start (hsame ▸ hs) hserved'
  obtain ⟨last, hrun, done, hdone, -, -, now, hnow, hout⟩ :=
    exists_forM_markDone_eq (progress_start hs hserved) hs.distinct hl hnodup hids₀
  obtain ⟨last', hrun', done', hdone', -, -, now', hnow', hout'⟩ :=
    exists_forM_markDone_eq hstart' hs.distinct hl (hperm.nodup_iff.2 hnodup)
      fun id hid => hids₀ id (hperm.mem_iff.1 hid)
  refine ⟨last, last', hrun, hrun', ?_⟩
  rw [hnow, hnow', List.map_map, List.map_map]
  refine List.map_congr_left fun r hr => hout.untimed_eq hout' (fun id => ?_) hr
  rw [hdone, hdone', hperm.mem_iff]

/-- A parent and its child in both orders: the child closes at once and lets the parent close, or
the parent waits for the child. -/
theorem finishing_order_irrelevant_parent : ∃ desk last last' : Desk Work,
    desk.store.records.map (fun w => (w.id, w.parentId, w.status)) =
      [("p", none, .inProgress), ("c", some "p", .inProgress)] ∧
    (["c", "p"].forM fun id => discard (markDone id)) desk = .ok ⟨⟩ last ∧
    (["p", "c"].forM fun id => discard (markDone id)) desk = .ok ⟨⟩ last' ∧
    last.store.records.map untimed = last'.store.records.map untimed := by
  let p : Work := ⟨"p", .story, none, "p", "", .inProgress, none, none, .zero, .epoch, .epoch⟩
  let c : Work := ⟨"c", .task, some "p", "c", "", .inProgress, none, none, .zero, .epoch, .epoch⟩
  let s : Store Work := { index := ⟨⟨["work"], "/work"⟩⟩, records := [p, c], digest := none }
  let desk : Desk Work := ⟨s, { ids := fun _ => "x", times := fun _ => .epoch }, []⟩
  have hvalid : ∀ w ∈ [p, c], validate w = .ok () := by decide +kernel
  have hsound : Sound desk.store.records := ⟨by decide, hvalid⟩
  have hlinked : ∀ w ∈ [p, c], ∀ id ∈ w.parentId, ∃ q ∈ [p, c], q.id = id := by decide +kernel
  have hasked : ∀ id ∈ ["c", "p"], ∃ w ∈ [p, c], w.id = id ∧ w.status = .inProgress := by
    decide +kernel
  have hserved : desk.Served := Index.writable_empty _
  have hperm : ["p", "c"].Perm ["c", "p"] := List.Perm.swap _ _ _
  obtain ⟨last, last', hrun, hrun', hsame⟩ :=
    finishing_order_irrelevant hsound hlinked rfl hserved hserved (by decide) hasked hperm
  exact ⟨desk, last, last', rfl, hrun, hrun', hsame⟩

end WorkQueue.Work
