import WorkQueue.Proofs.Store.Served
import WorkQueue.Proofs.Work.Lineage

/-!
# A change of status, end to end

Where every item is valid and the disk refuses nothing, a change of status that is accepted goes
through to the end. The item closes, and the line above it as far as it can; nothing else changes,
and the answer is the item as it is then. A climb ends by itself, also on a line that runs in a
cycle: with more steps to go it would do the same.
-/

namespace WorkQueue.Work

open Time
open Record (Distinct)
open Store (Desk Edit)

variable {desk desk' mid : Desk Work} {works : List Work} {w w' x x' : Work} {k : Nat}

/-! ### Cascades that nothing refuses -/

theorem leads_closeIfFinished_of_served (hs : desk.Served) (hw : desk.store.get? w.id = some w)
    (hvalid : validate w = .ok ()) :
    Leads (closeIfFinished w) desk (fun _ desk' => desk'.Served) (fun _ _ => False) := by
  rw [closeIfFinished, Store.leads_get_bind]
  dsimp only
  by_cases hc : Closable desk.store w
  · rw [if_pos (closable_iff.2 hc)]
    refine (Store.leads_updateWith_of_served w.id closing _ hs).mono (fun _ _ h => h)
      fun e _ h => ?_
    obtain ⟨v, -, hinvalid⟩ := exists_validation_of_refused hw hc.1 h
    rw [hvalid] at hinvalid
    cases hinvalid
  · rw [if_neg (mt closable_iff.1 hc)]
    exact (leads_pure _).2 hs

theorem leads_settle_of_served (n : Nat) (hs : desk.Served) (hv : Valid desk.store.records)
    (hw : desk.store.get? w.id = some w) :
    Leads (settle n w) desk (fun _ desk' => desk'.Served) (fun _ _ => False) := by
  induction n generalizing desk w with
  | zero => exact (leads_pure _).2 hs
  | succ n ih =>
    have hvalid : validate w = .ok () := hv w (Record.mem_of_find? hw)
    rw [settle, leads_bind]
    refine ((leads_closeIfFinished hw).and (leads_closeIfFinished_of_served hs hw hvalid)).mono
      (fun w₁ desk₁ h => ?_) fun _ _ h => h.2
    obtain ⟨hsettled, hs₁⟩ := h
    rw [Store.leads_get_bind]
    cases hwaits : waitingParent? desk₁.store w₁ with
    | none => exact (leads_pure _).2 hs₁
    | some parent =>
      obtain ⟨-, -, hparent, -⟩ := waitingParent?_eq_some.1 hwaits
      rw [leads_bind, leads_discard]
      exact (ih hs₁ (hsettled.valid hv) hparent).mono (fun _ _ h => (leads_pure _).2 h)
        fun _ _ h => h

/-- A climb that has had enough steps does not use more. -/
theorem settle_eq_of_le {m n : Nat} (hw : desk.store.get? w.id = some w)
    (hn : reach desk.store w ≤ n) (hm : n ≤ m) : settle m w desk = settle n w desk := by
  induction n generalizing m desk w with
  | zero =>
    unfold reach at hn
    split at hn <;> omega
  | succ n ih =>
    obtain ⟨m, rfl⟩ : ∃ m', m = m' + 1 := ⟨m - 1, by omega⟩
    rw [settle, settle]
    refine bind_congr_at rfl fun w₁ desk₁ hclose => ?_
    have hsettled : Settled desk w w₁ desk₁ := (leads_closeIfFinished hw).of_ok hclose
    refine bind_congr_at rfl fun desk₂ desk₃ hget => ?_
    obtain ⟨rfl, rfl⟩ : desk₁ = desk₂ ∧ desk₁ = desk₃ := by
      cases hget
      exact ⟨rfl, rfl⟩
    cases hwaits : waitingParent? desk₁.store w₁ with
    | none => rfl
    | some parent =>
      obtain ⟨-, -, hparent, -⟩ := waitingParent?_eq_some.1 hwaits
      have hlt := hsettled.reach_lt hwaits
      have hrest : settle m parent desk₁ = settle n parent desk₁ := by
        apply ih hparent
        · omega
        · omega
      exact bind_congr_at (discard_congr_at hrest) fun _ _ _ => rfl

/-! ### Climbing closes the line -/

/-- The line below the item has closed, and the item is looked at next. -/
structure Stage (works : List Work) (w : Work) (k : Nat) (desk : Desk Work) (x : Work) : Prop where
  below : ∀ j < k, Closes works w j
  line : ancestor? works w k = some x
  status : k ≠ 0 → x.status = .done
  records : ∃ t, desk.store.records = closedBelow works w k t

theorem stage_zero (desk : Desk Work) (w : Work) : Stage desk.store.records w 0 desk w where
  below j hj := by omega
  line := rfl
  status h := absurd rfl h
  records := ⟨fun _ => .epoch, closedBelow_zero.symm⟩

theorem Stage.closes_iff (h : Stage works w k desk x) :
    Closes works w k ↔ x.status = .closed ∨ Closable desk.store x := by
  obtain ⟨t, ht⟩ := h.records
  rw [Closable, ht]
  exact Work.closes_iff h.below h.line h.status

theorem Stage.not_closes (h : Stage works w k desk x) (hs : Settled desk x x' desk')
    (hunclosed : x'.status ≠ .closed) : ¬ Closes works w k ∧ desk' = desk := by
  rw [h.closes_iff]
  cases hs with
  | stays hn => exact ⟨not_or.2 ⟨hunclosed, hn⟩, rfl⟩
  | closes => exact absurd rfl hunclosed

theorem Stage.closes (h : Stage works w k desk x) (hd : Distinct works) (hw : w ∈ works)
    (hs : Settled desk x x' desk') (hclosed : x'.status = .closed) :
    Closes works w k ∧ x'.parentId = x.parentId ∧
      ∃ t, desk'.store.records = closedBelow works w (k + 1) t := by
  rw [h.closes_iff]
  obtain ⟨t, ht⟩ := h.records
  cases hs with
  | stays =>
    refine ⟨Or.inl hclosed, rfl, t, ?_⟩
    rw [ht, closedBelow_succ_of_ne_done h.line (by simp [hclosed])]
  | @closes now _ hc _ changed =>
    refine ⟨Or.inr hc, rfl, fun id => if id = x.id then now else t id, ?_⟩
    have hdesk : Distinct desk.store.records := by
      rw [ht]
      exact distinct_closedBelow hd
    rw [changed.edit.eq_map hdesk, ht]
    exact closedBelow_succ hd hw h.line hc.1 now

theorem Stage.up {parent : Work} (h : Stage works w k desk x) (hd : Distinct works)
    (hw : w ∈ works) (hs : Settled desk x x' desk')
    (hwaits : waitingParent? desk'.store x' = some parent) :
    Stage works w (k + 1) desk' parent := by
  obtain ⟨hclosed, hparent, hfound, hdone⟩ := waitingParent?_eq_some.1 hwaits
  obtain ⟨hcloses, hlink, t, ht⟩ := h.closes hd hw hs hclosed
  rw [Store.get?, ht] at hfound
  refine ⟨fun j hj => hcloses.of_le (by omega), ?_, fun _ => hdone, t, ht⟩
  rw [ancestor?_succ_eq_some]
  exact ⟨x, h.line, hlink ▸ hparent, find?_of_find?_closedBelow hfound hdone⟩

/-- A climb that comes to its end has closed all that closes. -/
theorem Stage.closedAlong (h : Stage works w k desk x) (hs : Sound works) (hw : w ∈ works)
    (hsettled : Settled desk x x' desk') (hnone : waitingParent? desk'.store x' = none) :
    ClosedAlong works w desk'.store.records := by
  by_cases hclosed : x'.status = .closed
  · obtain ⟨hcloses, hlink, t, ht⟩ := h.closes hs.distinct hw hsettled hclosed
    have hstops : ¬ Closes works w (k + 1) := by
      intro hup
      obtain ⟨a, ha, hdone⟩ := hup.exists_done
      obtain ⟨y, hy, hparent, hfound⟩ := ancestor?_succ_eq_some.1 ha
      obtain rfl := Option.some.inj (h.line.symm.trans hy)
      -- the parent is met for the first time, so it is still done
      have hnot : ¬ DoneBelow works w (k + 1) a := by
        rintro ⟨-, j, hj, hline⟩
        exact hup.ancestor?_ne hs.valid hw j hj (hline.trans ha.symm)
      have hstill : desk'.store.get? a.id = some a := by
        rw [Store.get?, ht, find?_closedBelow, hfound, Option.map_some, if_neg hnot]
      rw [waitingParent?_eq_some.2 ⟨hclosed, hlink ▸ hparent, hstill, hdone⟩] at hnone
      cases hnone
    refine ⟨k + 1, t, fun j => ⟨fun hj => ?_, fun hj => hcloses.of_le (by omega)⟩, ht⟩
    by_contra hle
    exact hstops (hj.of_le (by omega))
  · obtain ⟨hstops, rfl⟩ := h.not_closes hsettled hclosed
    obtain ⟨t, ht⟩ := h.records
    refine ⟨k, t, fun j => ⟨fun hj => ?_, h.below j⟩, ht⟩
    by_contra hle
    exact hstops (hj.of_le (by omega))

theorem Climb.stage (h : Climb desk x desk' x') (hd : Distinct works) (hw : w ∈ works)
    (hst : Stage works w k desk x) : ∃ k', Stage works w k' desk' x' := by
  induction h generalizing k with
  | here => exact ⟨k, hst⟩
  | up settled waits rest ih => exact ih (hst.up hd hw settled waits)

theorem Rests.closedAlong (h : Rests desk w desk') (hs : Sound desk.store.records)
    (hw : w ∈ desk.store.records) : ClosedAlong desk.store.records w desk'.store.records := by
  obtain ⟨desk₁, x, x', hclimb, hsettled, hnone⟩ := h
  obtain ⟨k, hst⟩ := hclimb.stage hs.distinct hw (stage_zero desk w)
  exact hst.closedAlong hs hw hsettled hnone

/-! ### The whole call -/

/-- A call that has gone through to its end. -/
structure Through (works : List Work) (w w' : Work) (desk' : Desk Work) : Prop where
  served : desk'.Served
  sound : Sound desk'.store.records
  closed : ClosedAlong works w desk'.store.records
  same : w'.id = w.id
  found : desk'.store.get? w'.id = some w'

theorem exists_settle_eq {n : Nat} (hs : Sound desk.store.records) (hserved : desk.Served)
    (hw : desk.store.get? w.id = some w) (hn : reach desk.store w ≤ n) :
    ∃ w' desk', settle n w desk = .ok w' desk' ∧ Through desk.store.records w w' desk' := by
  have hlead := (leads_settle n hw hn).and (leads_settle_of_served n hserved hs.valid hw)
  cases hrun : settle n w desk with
  | ok w' desk' =>
    obtain ⟨⟨hrests, hsame, hfound⟩, hserved'⟩ := hlead.of_ok hrun
    have hsound : Sound desk'.store.records :=
      hrests.keeps (P := fun d => Sound d.store.records) Settled.sound hs
    have hclosed := hrests.closedAlong hs (Record.mem_of_find? hw)
    exact ⟨w', desk', rfl, hserved', hsound, hclosed, hsame, hfound⟩
  | error e desk' => exact (hlead.of_error hrun).2.elim

theorem Updated.id_eq {id : String} {p : Patch}
    {veto : List Work → Work → Except StoreError Unit} (h : Updated desk id p veto w desk') :
    w.id = id := by
  obtain ⟨found, patch, -, -, -⟩ := h
  exact (id_patch patch).trans (Record.id_of_find? found)

/-- Whether a child of an item is unclosed does not depend on the item. -/
theorem Changed.hasUnclosed_iff (h : Changed desk w w' desk') (hs : Sound desk.store.records)
    (hs' : Sound desk'.store.records) :
    HasUnclosed desk'.store.records w'.id ↔ HasUnclosed desk.store.records w'.id := by
  constructor
  · rintro ⟨c, hc, hparent, hunclosed⟩
    rcases (h.mem_iff hs.distinct).1 hc with rfl | ⟨hc', -⟩
    · exact absurd hparent (parentId_ne_of_valid (hs'.valid c hc))
    · exact ⟨c, hc', hparent, hunclosed⟩
  · rintro ⟨c, hc, hparent, hunclosed⟩
    refine ⟨c, (h.mem_iff hs.distinct).2 (Or.inr ⟨hc, ?_⟩), hparent, hunclosed⟩
    intro hid
    exact parentId_ne_of_valid (hs.valid c hc) (hid ▸ hparent)

/-- A change of status that is accepted goes through. -/
theorem exists_update_eq {id : String} {p : Patch} {x₀ : Work} (hs : Sound desk.store.records)
    (hserved : desk.Served) (hp : p.status.isSome = true)
    (hfirst : Store.updateWith id p checkParent desk = .ok x₀ mid) :
    ∃ w desk', update id p desk = .ok w desk' ∧
      settle (mid.store.records.length + 2) x₀ mid = .ok w desk' ∧
      Through mid.store.records x₀ w desk' := by
  have hupdated : Updated desk id p checkParent x₀ mid :=
    (leads_updateWith id p checkParent).of_ok hfirst
  have hmid : mid.Served :=
    (Store.leads_updateWith_of_served id p checkParent hserved).of_ok hfirst
  obtain ⟨w, desk', hrun, hthrough⟩ :=
    exists_settle_eq (hupdated.sound hs) hmid hupdated.get?_eq (reach_le_length mid.store x₀)
  exact ⟨w, desk', (update_of_updateWith hp hfirst).trans hrun, hrun, hthrough⟩

/-- An accepted change of status goes through to the end, in as many steps as it takes. The item
ends closed where the patch closed it, or set it to done while no child was unclosed. The line above
closes up to the first ancestor that was not done or has an unclosed child; nothing else changes,
and the answer is the item as it is then. -/
theorem status_change_closes_line {id : String} {p : Patch} {x₀ : Work}
    (hs : Sound desk.store.records) (hserved : desk.Served) (hp : p.status.isSome = true)
    (hfirst : Store.updateWith id p checkParent desk = .ok x₀ mid) :
    ∃ w desk', update id p desk = .ok w desk' ∧
      (∀ n, mid.store.records.length + 2 ≤ n → settle n x₀ mid = .ok w desk') ∧
      desk'.store.get? id = some w ∧
      (w.status = .closed ↔ p.status = some .closed ∨
        p.status = some .done ∧ ¬ HasUnclosed desk.store.records id) ∧
      (w.status = .closed ↔ Closes mid.store.records x₀ 0) ∧
      (∀ k a, Closes mid.store.records x₀ k → ancestor? mid.store.records x₀ (k + 1) = some a →
        (Moved a desk'.store.records ↔
          a.status = .done ∧ ¬ HasUnclosed desk'.store.records a.id) ∧
        (Closes mid.store.records x₀ (k + 1) ↔ Moved a desk'.store.records)) ∧
      mid.store.records = desk.store.records.map (fun r => if r.id = id then x₀ else r) ∧
      ClosedAlong mid.store.records x₀ desk'.store.records := by
  have hupdated : Updated desk id p checkParent x₀ mid :=
    (leads_updateWith id p checkParent).of_ok hfirst
  have hsound : Sound mid.store.records := hupdated.sound hs
  have hfound : mid.store.get? x₀.id = some x₀ := hupdated.get?_eq
  obtain ⟨w, desk', hrun, hsettle, hthrough⟩ := exists_update_eq hs hserved hp hfirst
  obtain ⟨previous, -, hprevious, hstatus, changed⟩ := hupdated.exists_previous
  obtain rfl : x₀.id = id := hupdated.id_eq
  have hfinal : desk'.store.get? x₀.id = some w := hthrough.same ▸ hthrough.found
  have hclosed : w.status = .closed ↔ Closes mid.store.records x₀ 0 :=
    hthrough.closed.status_eq_closed_iff hfound hfinal
  have hasked : p.status = some x₀.status := by
    obtain ⟨next, hnext⟩ := Option.isSome_iff_exists.1 hp
    rw [hstatus, hnext]
    rfl
  refine ⟨w, desk', hrun, fun n hn => ?_, hfinal, ?_, hclosed, fun k a hk ha => ⟨?_, ?_⟩, ?_,
    hthrough.closed⟩
  · exact (settle_eq_of_le hfound (reach_le_length _ _) hn).trans hsettle
  · rw [hclosed, closes_zero_iff, changed.hasUnclosed_iff hs hsound, hasked, Option.some.injEq,
      Option.some.injEq]
  · rw [← hthrough.closed.closes_succ_iff_moved hk ha]
    exact hthrough.closed.closes_succ_iff_finished hk ha
  · exact hthrough.closed.closes_succ_iff_moved hk ha
  · have hmap := changed.edit.eq_map hs.distinct
    rw [show Record.id previous = x₀.id from hprevious] at hmap
    exact hmap

/-- An item is done and closes, and so does its parent; above that stands one that has another
child. -/
theorem status_change_closes_line_parent : ∃ (desk desk' : Desk Work) (w p g : Work),
    markDone "c" desk = .ok w desk' ∧ w.status = .closed ∧ Moved p desk'.store.records ∧
    p.parentId = some g.id ∧ desk.store.get? g.id = some g ∧ g.status = .done ∧
    ¬ Moved g desk'.store.records := by
  let g : Work := ⟨"g", .story, none, "g", "", .done, none, none, .zero, .epoch, .epoch⟩
  let p : Work := ⟨"p", .story, some "g", "p", "", .done, none, none, .zero, .epoch, .epoch⟩
  let c : Work := ⟨"c", .task, some "p", "c", "", .inProgress, none, none, .zero, .epoch, .epoch⟩
  let o : Work := ⟨"o", .task, some "g", "o", "", .open, none, none, .zero, .epoch, .epoch⟩
  let done : Work := { c with status := .done }
  let s : Store Work :=
    { index := ⟨⟨["work"], "/work"⟩⟩, records := [g, p, c, o], digest := none }
  let desk : Desk Work := ⟨s, { ids := fun _ => "x", times := fun _ => .epoch }, []⟩
  have hvalid : ∀ w ∈ [g, p, c, o], validate w = .ok () := by decide +kernel
  have hsound : Sound desk.store.records := ⟨by decide, hvalid⟩
  have hupdate : (Store.done? (Store.updateWith "c" ({ status := some .done } : Patch) checkParent
      desk)).map (fun a => (a.1, a.2.store.records)) = some (done, [g, p, done, o]) := by
    decide +kernel
  simp only [Option.map_eq_some_iff, Prod.exists, Prod.mk.injEq, Store.done?_eq_some] at hupdate
  obtain ⟨x₀, mid, hfirst, rfl, hrecords⟩ := hupdate
  obtain ⟨w, desk', hrun, -, -, -, hstatus, hline, -⟩ :=
    status_change_closes_line hsound (Index.writable_empty _) rfl hfirst
  rw [hrecords] at hstatus hline
  have hzero : Closes [g, p, done, o] done 0 := .start (Or.inr ⟨rfl, by decide⟩)
  have hparent : ancestor? [g, p, done, o] done 1 = some p := by decide +kernel
  have hone : Closes [g, p, done, o] done 1 := by
    refine .up hzero hparent rfl ?_
    decide +kernel
  have htwo : ¬ Closes [g, p, done, o] done 2 := by
    intro h
    have hchildren := h.children (a := g) (by decide +kernel) rfl o (by decide +kernel) rfl
    exact absurd hchildren (by decide +kernel)
  exact ⟨desk, desk', w, p, g, hrun, hstatus.2 hzero, (hline 0 p hzero hparent).2.1 hone, rfl,
    by decide +kernel, rfl, fun h => htwo ((hline 1 g hone (by decide +kernel)).2.2 h)⟩

end WorkQueue.Work
