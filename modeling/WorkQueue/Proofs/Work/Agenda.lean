import Mathlib.Data.List.Permutation
import WorkQueue.Proofs.Work.Activity
import WorkQueue.Proofs.Work.Filled
import WorkQueue.Proofs.Work.Listing

/-!
# What is to be started next

The open items, by priority and otherwise in the order in which they were made, are what is to be
started. Starting the first of them takes it off the agenda. Finishing an item that is in progress
closes what it lets close, and leaves the agenda as it is.
-/

namespace WorkQueue.Work

open Record (Distinct)
open Store (Desk Edit)

/-- The open items in the order in which they are listed. -/
def agenda (works : List Work) : List Work := (order works).filter (·.status = .open)

/-- The open items by priority, and those of one priority in the order in which they are kept. -/
structure StartOrder (works items : List Work) : Prop where
  perm : items.Perm (works.filter (·.status = .open))
  ascending : items.Pairwise fun a b => a.priority.value ≤ b.priority.value
  stable : ∀ p, items.filter (·.priority.value = p) =
    works.filter fun w => w.status = .open ∧ w.priority.value = p

variable {works works' items : List Work} {w previous next : Work} {desk desk' : Desk Work}

theorem StartOrder.sublist (h : StartOrder works items) (p : Int) :
    ((items.filter (·.priority.value = p)).map (·.id)).Sublist (works.map (·.id)) := by
  rw [h.stable p]
  exact List.filter_sublist.map _

theorem StartOrder.eq_of_lt {a b : Work} (h : StartOrder [a, b] items) (ha : a.status = .open)
    (hb : b.status = .open) (hlt : b.priority.value < a.priority.value) : items = [b, a] := by
  have hperm : items.Perm [a, b] := by
    have hopen := h.perm
    rwa [List.filter_cons_of_pos (by simp [ha]), List.filter_cons_of_pos (by simp [hb])] at hopen
  rcases List.perm_pair.1 hperm with rfl | rfl
  · have hle : a.priority.value ≤ b.priority.value := by simpa using h.ascending
    exact absurd hlt (Int.not_lt.2 hle)
  · rfl

theorem mem_agenda : w ∈ agenda works ↔ w ∈ works ∧ w.status = .open := by
  rw [agenda, List.mem_filter, (order_perm works).mem_iff, decide_eq_true_iff]

theorem startOrder_agenda (works : List Work) : StartOrder works (agenda works) where
  perm := (order_perm works).filter _
  ascending := (listing_order works).ascending.filter _
  stable := by
    intro p
    have hcomm (w : Work) : (decide (w.priority.value = p) && decide (w.status = .open)) =
        (decide (w.status = .open) && decide (w.priority.value = p)) := Bool.and_comm _ _
    rw [agenda, List.filter_filter]
    simp_rw [hcomm]
    rw [← List.filter_filter, (listing_order works).stable p, List.filter_filter]
    simp_rw [Bool.decide_and]

/-! ### Edits -/

/-- An item that leaves the agenda, or was not on it, leaves the others where they are. -/
theorem agenda_updated (h : Edit works works' (.updated (some previous) next))
    (hd : Distinct works) (hpriority : next.priority = previous.priority)
    (hnext : next.status ≠ .open) :
    agenda works' = (agenda works).filter (·.id ≠ next.id) := by
  obtain ⟨hfound, -, hsame⟩ := get?_of_edit h
  let now : Work → Work := fun w => if w.id = next.id then next else w
  have hother {w : Work} (hid : w.id ≠ next.id) : now w = w := if_neg hid
  have hedited {w : Work} (hid : w.id = next.id) : now w = next := if_pos hid
  have hpriorities {w : Work} (hw : w ∈ works) : (now w).priority = w.priority := by
    by_cases hid : w.id = next.id
    · have hw' : Record.find? works w.id = some w := hd.find?_of_mem hw
      rw [hid.trans hsame, hfound] at hw'
      rw [hedited hid, hpriority, Option.some.inj hw']
    · rw [hother hid]
  have hmap : works' = works.map now := by
    rw [h.eq_map hd]
    apply List.map_congr_left
    intro w _
    change (if w.id = previous.id then next else w) = if w.id = next.id then next else w
    rw [hsame]
  have horder : order works' = (order works).map now := by
    rw [hmap]
    symm
    apply List.map_mergeSort
    intro a ha b hb
    rw [hpriorities ha, hpriorities hb]
  rw [agenda, agenda, horder, List.filter_map, List.filter_filter]
  have hcongr : (order works).filter ((fun w => decide (w.status = .open)) ∘ now) =
      (order works).filter fun w => decide (w.id ≠ next.id) && decide (w.status = .open) := by
    apply List.filter_congr
    intro w _
    by_cases hid : w.id = next.id
    · simp [hedited hid, hnext, hid]
    · simp [hother hid, hid]
  rw [hcongr]
  refine Eq.trans (List.map_congr_left ?_) (List.map_id _)
  intro w hw
  have hid : w.id ≠ next.id := of_decide_eq_true (Bool.and_eq_true_iff.1 (List.mem_filter.1 hw).2).1
  exact hother hid

/-- An item that is not open is not on the agenda. -/
theorem agenda_kept (h : Edit works works' (.updated (some previous) next)) (hd : Distinct works)
    (hpriority : next.priority = previous.priority) (hprevious : previous.status ≠ .open)
    (hnext : next.status ≠ .open) : agenda works' = agenda works := by
  obtain ⟨hfound, -, hsame⟩ := get?_of_edit h
  rw [agenda_updated h hd hpriority hnext, List.filter_eq_self]
  intro w hw
  obtain ⟨hw, hopen⟩ := mem_agenda.1 hw
  rw [decide_eq_true_iff]
  intro hid
  have hw' : Record.find? works w.id = some w := hd.find?_of_mem hw
  rw [hid.trans hsame, hfound] at hw'
  exact hprevious (Option.some.inj hw' ▸ hopen)

theorem nodup_agenda (hd : Distinct works) : ((agenda works).map (·.id)).Nodup := by
  have hsub : (agenda works).Sublist (order works) := List.filter_sublist
  exact (hd.perm (order_perm works)).sublist (hsub.map _)

/-- The first item of the agenda leaves it when it is started. -/
theorem agenda_begun (h : Begun works previous next works') (hd : Distinct works)
    (hpriority : next.priority = previous.priority) {rest : List Work}
    (hfirst : agenda works = previous :: rest) : agenda works' = rest := by
  have hnext : next.status ≠ .open := by rw [h.after]; nofun
  have hsame := (get?_of_edit h.edit).2.2
  have hnodup := nodup_agenda hd
  rw [hfirst, List.map_cons, List.nodup_cons] at hnodup
  rw [agenda_updated h.edit hd hpriority hnext, hfirst, List.filter_cons_of_neg (by simp [hsame]),
    List.filter_eq_self]
  intro w hw
  rw [decide_eq_true_iff, hsame]
  intro hid
  exact hnodup.1 (hid ▸ List.mem_map_of_mem hw)

/-! ### Starting and finishing -/

/-- Nothing is in progress, and these items are to be started. -/
structure AtRest (works items : List Work) : Prop where
  sound : Sound works
  linked : Linked works
  agenda_eq : agenda works = items
  idle : activeCount works = 0

/-- One item is in progress, and these are to be started after it. -/
structure AtWork (works : List Work) (w : Work) (items : List Work) : Prop where
  sound : Sound works
  linked : Linked works
  agenda_eq : agenda works = items
  active : works.filter (·.status = .inProgress) = [w]

/-- Nothing is to be started now: nothing is left to start, or an item is in progress. -/
def Quiet (works : List Work) : Prop := AtRest works [] ∨ ∃ w items, AtWork works w items

theorem filter_active_eq_nil (h : activeCount works = 0) :
    works.filter (·.status = .inProgress) = [] := by
  rwa [activeCount, List.countP_eq_length_filter, List.length_eq_zero_iff] at h

theorem filter_active_begun (h : Begun works previous next works') (hidle : activeCount works = 0) :
    works'.filter (·.status = .inProgress) = [next] := by
  obtain ⟨edit, -, hafter⟩ := h
  cases edit with
  | @updated before after _ _ first same =>
    rw [activeCount_append, activeCount_cons] at hidle
    have hbefore : activeCount before = 0 := by omega
    have hlater : activeCount after = 0 := by omega
    rw [List.filter_append, List.filter_cons, if_pos (decide_eq_true hafter),
      filter_active_eq_nil hbefore, filter_active_eq_nil hlater]
    rfl

/-- The only item in progress is one no longer. -/
theorem activeCount_updated (h : Edit works works' (.updated (some previous) next))
    (hprevious : previous.status = .inProgress) (hnext : next.status ≠ .inProgress) :
    activeCount works' + 1 = activeCount works := by
  cases h with
  | updated first same =>
    rw [activeCount_append, activeCount_append, activeCount_cons, activeCount_cons, if_neg hnext,
      if_pos hprevious]
    omega

/-- The first item of the agenda is started, where the disk refuses nothing. -/
theorem leads_start_of_atRest {session : String} (h : AtRest desk.store.records (w :: items))
    (hserved : desk.Served) (hsession : session ≠ "") :
    Leads (start w.id session) desk
      (fun next desk' => next.id = w.id ∧ AtWork desk'.store.records next items)
      (fun _ _ => False) := by
  obtain ⟨hs, hl, hagenda, hidle⟩ := h
  obtain ⟨hw, hopen⟩ := mem_agenda.1 (hagenda ▸ List.mem_cons_self : w ∈ agenda desk.store.records)
  have hfound : desk.store.get? w.id = some w := hs.distinct.find?_of_mem hw
  have hpatch : ∃ next, Work.patch (starting session) w = .ok next := by
    have hmove : w.status.canMoveTo .inProgress = true := by rw [hopen]; rfl
    exact ⟨_, if_pos hmove⟩
  obtain ⟨patched, hpatch⟩ := hpatch
  have hpatched := patch_starting hsession hpatch
  have hallowed : checkParent desk.store.records patched = .ok () := by
    rw [hpatched]
    exact checkParent_of_linked (hl w hw)
  have hvalid : validate patched = .ok () := by
    rw [hpatched]
    exact hs.valid w hw
  rw [start, update, leads_bind]
  apply (leads_updateWith_of_accepted hserved hfound hpatch hallowed hvalid).imp
  rintro _ desk₁ ⟨t, rfl, changed, -⟩
  have hbegun : Begun desk.store.records w { patched with updatedAt := t } desk₁.store.records :=
    ⟨changed.edit, hopen, by rw [hpatched]⟩
  change Leads (get >>= fun desk => settle (desk.store.records.length + 2) _) desk₁ _ _
  rw [Store.leads_get_bind]
  apply (leads_settle_of_inProgress _ hbegun.after).imp
  rintro _ _ ⟨rfl, rfl⟩
  refine ⟨(get?_of_edit changed.edit).2.2, ?_, ?_, ?_, ?_⟩
  · exact hs.edit changed.edit fun v hv => Option.some.inj hv ▸ hvalid
  · exact hl.edit hs changed.edit rfl hallowed
  · exact agenda_begun hbegun hs.distinct (by rw [hpatched]) hagenda
  · exact filter_active_begun hbegun hidle

/-! ### Finishing -/

theorem Settled.agenda_eq {w' : Work} (h : Settled desk w w' desk')
    (hd : Distinct desk.store.records) :
    agenda desk'.store.records = agenda desk.store.records := by
  cases h with
  | stays => rfl
  | closes hc _ changed =>
    apply agenda_kept changed.edit hd rfl
    · rw [hc.1]
      nofun
    · nofun

/-- What a cascade leaves alone. -/
theorem Rests.undisturbed (h : Rests desk w desk') (hs : Sound desk.store.records) :
    Sound desk'.store.records ∧ agenda desk'.store.records = agenda desk.store.records ∧
      activeCount desk'.store.records ≤ activeCount desk.store.records ∧
      ∀ c ∈ desk.commits, c ∈ desk'.commits := by
  apply h.keeps (P := fun d => Sound d.store.records ∧
    agenda d.store.records = agenda desk.store.records ∧
    activeCount d.store.records ≤ activeCount desk.store.records ∧
    ∀ c ∈ desk.commits, c ∈ d.commits)
  · rintro d d' v v' hsettled ⟨hsound, hagenda, hactive, hcommits⟩
    have hcalm : Calm d.store.records (desk.host.supply) d'.store.records desk.host.supply :=
      hsettled.calm
    refine ⟨hsettled.sound hsound, (hsettled.agenda_eq hsound.distinct).trans hagenda,
      hcalm.active.trans hactive, ?_⟩
    intro c hc
    cases hsettled with
    | stays => exact hcommits c hc
    | closes _ _ changed =>
      rw [changed.committed.commits]
      exact List.mem_append_left _ (hcommits c hc)
  · exact ⟨hs, rfl, Nat.le_refl _, fun _ hc => hc⟩

/-- The item in progress is done, where the disk refuses nothing. The others that are closed then
were done before, and the change is announced. -/
theorem leads_markDone_of_atWork (h : AtWork desk.store.records w items) (hserved : desk.Served) :
    Leads (markDone w.id) desk
      (fun _ desk' => AtRest desk'.store.records items ∧
        ∃ c ∈ desk'.commits, ∃ event ∈ c.events, Event.finishesWork event = true)
      (fun _ _ => False) := by
  obtain ⟨hs, hl, hagenda, hactive⟩ := h
  obtain ⟨hw, hstatus⟩ := List.mem_filter.1 (hactive ▸ List.mem_cons_self :
    w ∈ desk.store.records.filter (·.status = .inProgress))
  have hstatus : w.status = .inProgress := of_decide_eq_true hstatus
  have hfound : desk.store.get? w.id = some w := hs.distinct.find?_of_mem hw
  have hpatch : Work.patch { status := some .done } w = .ok { w with status := .done } := by
    have hmove : w.status.canMoveTo .done = true := by rw [hstatus]; rfl
    exact if_pos hmove
  have hallowed : checkParent desk.store.records { w with status := .done } = .ok () :=
    checkParent_of_linked (hl w hw)
  have hvalid : validate { w with status := .done } = .ok () := hs.valid w hw
  rw [markDone, update, leads_bind]
  apply (leads_updateWith_of_accepted hserved hfound hpatch hallowed hvalid).imp
  rintro _ mid ⟨t, rfl, changed, hserved⟩
  have hsound : Sound mid.store.records :=
    hs.edit changed.edit fun v hv => Option.some.inj hv ▸ hvalid
  have hlinked : Linked mid.store.records := hl.edit hs changed.edit rfl hallowed
  have hkept : agenda mid.store.records = agenda desk.store.records := by
    apply agenda_kept changed.edit hs.distinct rfl
    · rw [hstatus]
      rintro ⟨⟩
    · rintro ⟨⟩
  have hidle : activeCount mid.store.records = 0 := by
    have hcount := activeCount_updated changed.edit hstatus (by rintro ⟨⟩)
    rw [activeCount, activeCount, List.countP_eq_length_filter (l := desk.store.records),
      hactive] at hcount
    exact Nat.succ.inj hcount
  have htold : ∃ c ∈ mid.commits, ∃ event ∈ c.events, Event.finishesWork event = true := by
    rw [changed.committed.commits]
    refine ⟨_, List.mem_append_right _ List.mem_cons_self, _, List.mem_cons_self, ?_⟩
    simp [Event.finishesWork, Status.isFinished, hstatus]
  change Leads (get >>= fun desk => settle (desk.store.records.length + 2) _) mid _ _
  rw [Store.leads_get_bind]
  apply ((leads_settle_of_length changed.get?_eq).and
    (leads_settle_of_served _ hserved hsound.valid changed.get?_eq)).mono
  · rintro _ desk' ⟨hrests, -⟩
    obtain ⟨hsound', hagenda', hactive', hcommits⟩ := hrests.undisturbed hsound
    have hlinked' := (linked_congr hrests.links_eq).2 hlinked
    refine ⟨⟨hsound', hlinked', ?_, Nat.le_zero.1 (hactive'.trans hidle.le)⟩, ?_⟩
    · exact hagenda'.trans (hkept.trans hagenda)
    · obtain ⟨c, hc, hevent⟩ := htold
      exact ⟨c, hcommits c hc, hevent⟩
  · rintro _ _ ⟨-, hfalse⟩
    exact hfalse

end WorkQueue.Work
