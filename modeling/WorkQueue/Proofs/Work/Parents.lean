import Mathlib.Data.List.Chain
import WorkQueue.Proofs.Work.Finishing

/-!
# Links to parents

A link is checked from below: an item is made or patched only with a parent that is there. Nothing
is checked from above, so a deletion may take the parent of others away. From an empty store on all
links lead to items that are there, exactly as long as no call deletes an item that has children.

An item whose parent is gone keeps its link, and every patch of it is checked with that link, also
one that does not set a parent. That is the only way for such a patch to be refused for an unknown
parent.
-/

namespace WorkQueue.Work

open Record (Distinct)
open Store (Desk Edit UpdateRefused)

/-- An item that had children is gone. -/
def Orphans (works works' : List Work) : Prop :=
  ∃ p ∈ works, (∀ x ∈ works', x.id ≠ p.id) ∧ ∃ c ∈ works, c.parentId = some p.id

/-- What a call does to the items and their links: nothing, or one edit that is checked. -/
inductive Relinked (works works' : List Work) : Prop where
  | kept (same : links works' = links works)
  | edited {mid : List Work} {change : Change Work} (edit : Edit works mid change)
      (allowed : ∀ w, change.value? = some w → checkParent works w = .ok ())
      (same : links works' = links mid)

variable {works works' mid : List Work} {w : Work} {desk desk' : Desk Work} {e : StoreError}

/-! ### Links -/

theorem checkParent_eq_error_iff : checkParent works w = .error e ↔
    ∃ p, w.parentId = some p ∧ (∀ x ∈ works, x.id ≠ p) ∧
      e = .validation (.unknownReference "parentId" "work" p) := by
  unfold checkParent
  cases hparent : w.parentId with
  | none => simp
  | some p =>
    by_cases hany : works.any (·.id = p) = true
    · obtain ⟨x, hx, hid⟩ := List.any_eq_true.1 hany
      simp only [hany, if_true, reduceCtorEq, false_iff]
      rintro ⟨q, hq, hgone, -⟩
      obtain rfl := Option.some.inj hq
      exact hgone x hx (of_decide_eq_true hid)
    · simp only [if_neg hany, Except.error.injEq, Option.some.injEq, exists_eq_left']
      have hgone : ∀ x ∈ works, x.id ≠ p := by simpa using hany
      exact ⟨fun h => ⟨hgone, h.symm⟩, fun h => h.2.symm⟩

theorem exists_of_checkParent (h : checkParent works w = .ok ()) {id : String}
    (hid : w.parentId = some id) : ∃ p ∈ works, p.id = id := by
  by_contra hnone
  have hgone : ∀ x ∈ works, x.id ≠ id := fun x hx hxid => hnone ⟨x, hx, hxid⟩
  have herror := checkParent_eq_error_iff.2 ⟨id, hid, hgone, rfl⟩
  rw [h] at herror
  cases herror

theorem linked_iff_links : Linked works ↔
    ∀ l ∈ links works, ∀ id, l.2 = some id → ∃ k ∈ links works, k.1 = id := by
  simp [Linked, links]

theorem linked_congr (h : links works' = links works) : Linked works' ↔ Linked works := by
  rw [linked_iff_links, linked_iff_links, h]

theorem orphans_congr (h : links works' = links mid) :
    Orphans works works' ↔ Orphans works mid := by
  have hgone (xs : List Work) (id : String) :
      (∀ x ∈ xs, x.id ≠ id) ↔ ∀ l ∈ links xs, l.1 ≠ id := by
    simp [links]
  simp only [Orphans, hgone, h]

theorem not_orphans_self (works : List Work) : ¬ Orphans works works := by
  rintro ⟨p, hp, hgone, -⟩
  exact hgone p hp rfl

/-- A checked edit leaves all links good, unless it takes away an item that had children. -/
theorem Linked.edit_iff {change : Change Work} (h : Linked works) (hs : Sound works)
    (hedit : Edit works mid change)
    (hallowed : ∀ w, change.value? = some w → checkParent works w = .ok ()) :
    Linked mid ↔ ¬ Orphans works mid := by
  have hmem {x : Work} := hedit.mem_iff hs.distinct (r := x)
  have hstays {x : Work} (hx : x ∈ works) (hid : x.id ≠ change.id) : x ∈ mid :=
    hmem.2 (Or.inr ⟨hx, hid⟩)
  constructor
  · rintro hlinked ⟨p, hp, hgone, c, hc, hparent⟩
    have hpid : p.id = change.id := by
      by_contra hne
      exact hgone p (hstays hp hne) rfl
    have hcid : c.id ≠ change.id := by
      intro hcid
      apply parentId_ne_of_valid (hs.valid c hc)
      rw [hparent, hpid, hcid]
    obtain ⟨q, hq, hqid⟩ := hlinked c (hstays hc hcid) p.id hparent
    exact hgone q hq hqid
  · intro hkept x hx id hparent
    by_contra hnone
    have hgone : ∀ y ∈ mid, y.id ≠ id := fun y hy hyid => hnone ⟨y, hy, hyid⟩
    have hbefore : ∃ p ∈ works, p.id = id := by
      rcases hmem.1 hx with hvalue | ⟨hx, -⟩
      · exact exists_of_checkParent (hallowed x hvalue) hparent
      · exact h x hx id hparent
    obtain ⟨p, hp, rfl⟩ := hbefore
    have hpid : p.id = change.id := by
      by_contra hne
      exact hgone p (hstays hp hne) rfl
    rcases hmem.1 hx with hvalue | ⟨hx, -⟩
    · exact hgone x hx ((Change.id_of_value? hvalue).trans hpid.symm)
    · exact hkept ⟨p, hp, hgone, x, hx, hparent⟩

theorem Relinked.linked_iff (h : Relinked works works') (hs : Sound works)
    (hlinked : Linked works) : Linked works' ↔ ¬ Orphans works works' := by
  cases h with
  | kept same =>
    rw [linked_congr same, orphans_congr same]
    exact iff_of_true hlinked (not_orphans_self works)
  | edited edit allowed same =>
    rw [linked_congr same, orphans_congr same]
    exact hlinked.edit_iff hs edit allowed

/-! ### Calls -/

theorem Rests.links_eq (h : Rests desk w desk') :
    links desk'.store.records = links desk.store.records :=
  h.keeps (P := fun d => links d.store.records = links desk.store.records)
    (fun settled hd => settled.links_eq.trans hd) rfl

theorem secures_create_relinked (draft : Draft) : Secures (create draft) desk
    fun _ desk' => Relinked desk.store.records desk'.store.records := by
  apply (leads_create_made draft).secures.imp
  intro w desk' hmade
  rw [hmade.committed.records_eq]
  refine .edited hmade.edit ?_ rfl
  intro v hv
  obtain rfl := Option.some.inj hv
  exact hmade.allowed

theorem Updated.relinked {id : String} {p : Patch} (h : Updated desk id p checkParent w desk') :
    Relinked desk.store.records desk'.store.records := by
  obtain ⟨-, -, allowed, -, changed⟩ := h
  refine .edited changed.edit ?_ rfl
  intro v hv
  obtain rfl := Option.some.inj hv
  exact allowed

theorem Relinked.trans_links (h : Relinked works mid) (hsame : links works' = links mid) :
    Relinked works works' := by
  cases h with
  | kept same => exact .kept (hsame.trans same)
  | edited edit allowed same => exact .edited edit allowed (hsame.trans same)

/-- What an update does to the links, it does with the patch of the item: no closing moves one. -/
theorem secures_update_relinked (id : String) (p : Patch) : Secures (update id p) desk
    fun _ desk' => Relinked desk.store.records desk'.store.records := by
  apply Secures.bind (leads_updateWith id p checkParent).secures
  intro w mid hupdated
  by_cases hp : p.status.isSome = true
  · rw [if_pos hp]
    apply (leads_settle_of_length hupdated.get?_eq).secures.imp
    intro _ _ hrests
    exact hupdated.relinked.trans_links hrests.links_eq
  · rw [if_neg hp]
    exact hupdated.relinked

theorem secures_delete_relinked (id : String) : Secures (delete id) desk
    fun _ desk' => Relinked desk.store.records desk'.store.records := by
  apply (Store.leads_delete_edited (R := Work) id).secures.imp
  intro _ _ hdeleted
  exact .edited hdeleted.2.edit (fun _ h => nomatch h) rfl

theorem Request.secures_relinked (q : Request) : Secures q.run desk
    fun _ desk' => Relinked desk.store.records desk'.store.records := by
  cases q with
  | create draft => exact secures_create_relinked draft
  | delete id => exact secures_delete_relinked id
  | update id patch => exact secures_update_relinked id patch
  | start id session => exact secures_update_relinked id _
  | markDone id => exact secures_update_relinked id _
  | close id => exact secures_update_relinked id _

/-! ### Refused patches -/

theorem Request.run_of_patch? {q : Request} {id : String} {p : Patch}
    (h : q.patch? = some (id, p)) : q.run = Work.update id p := by
  cases q <;> cases h <;> rfl

/-- Where every item is valid, a patch is refused for the item or for what it asks, or the disk
refuses it. -/
theorem leads_update_of_valid (id : String) (p : Patch) (hv : Valid desk.store.records) :
    Leads (update id p) desk (fun _ _ => True)
      fun e _ => e.IsPersistence ∨ UpdateRefused desk.store id p checkParent e := by
  rw [update, leads_bind]
  apply (leads_updateWith id p checkParent).mono
  · intro w mid hupdated
    by_cases hp : p.status.isSome = true
    · rw [if_pos hp]
      apply (leads_settle_of_length hupdated.get?_eq).mono
      · exact fun _ _ _ => trivial
      · intro e _ hhalts
        exact Or.inl (hhalts.isPersistence hupdated.get?_eq (hupdated.valid hv))
    · rw [if_neg hp]
      trivial
  · exact fun _ _ h => h.2

theorem eq_invalidTransition_of_patch {p : Patch} (h : patch p w = .error e) :
    ∃ next, e = .invalidTransition w.id w.status next := by
  unfold patch at h
  split at h
  · cases h
  · split at h
    · cases h
    · exact ⟨_, (Except.error.inj h).symm⟩

theorem ne_unknownReference_of_validate {v : ValidationError} (h : validate w = .error v)
    (field entity value : String) : v ≠ .unknownReference field entity value := by
  rintro rfl
  have htext (t : String) : requireText "title" t = .ok () ∨
      requireText "title" t = .error (.empty "title") := by
    unfold requireText
    split
    · exact Or.inr rfl
    · exact Or.inl rfl
  rcases htext w.title with ht | ht
  · simp only [validate, ht, bind, Except.bind] at h
    split at h <;> cases h
  · simp only [validate, ht, bind, Except.bind] at h
    cases h

/-- A patch that does not set a parent is refused for an unknown one only where the item already
has it. -/
theorem UpdateRefused.exists_orphan {s : Store Work} {id q : String} {p : Patch}
    {field entity : String} (hp : p.parentId = none)
    (h : UpdateRefused s id p checkParent (.validation (.unknownReference field entity q))) :
    ∃ w ∈ s.records, w.id = id ∧ w.parentId = some q ∧ ∀ x ∈ s.records, x.id ≠ q := by
  cases h with
  | patch found refused =>
    obtain ⟨_, hne⟩ := eq_invalidTransition_of_patch refused
    cases hne
  | invalid found patched refused =>
    exact absurd rfl (ne_unknownReference_of_validate refused field entity q)
  | @veto previous next _ found patched refused =>
    obtain ⟨parent, hparent, hgone, heq⟩ := checkParent_eq_error_iff.1 refused
    cases heq
    have hsame := parentId_of_patch patched hp
    exact ⟨previous, Record.mem_of_find? found, Record.id_of_find? found, hsame ▸ hparent, hgone⟩

/-! ### Runs -/

variable {s s' : Store Work}

theorem Step.sound (h : Step s s') (hs : Sound s.records) : Sound s'.records := by
  cases h with
  | answered run => exact ((Request.leads_run _).of_ok run).sound hs
  | refused run served =>
    have hidle := ((Request.leads_run _).of_error run).idle_of_valid hs.valid served
    rwa [hidle.store]

theorem Step.relinked (h : Step s s') (hs : Sound s.records) : Relinked s.records s'.records := by
  cases h with
  | answered run => exact (Request.secures_relinked _).of_ok run
  | refused run served =>
    have hidle := ((Request.leads_run _).of_error run).idle_of_valid hs.valid served
    exact .kept (by rw [hidle.store])

theorem Step.sound_and_linked_iff (h : Step s s') (hs : Sound s.records)
    (hlinked : Linked s.records) :
    Sound s'.records ∧ (Linked s'.records ↔ ¬ Orphans s.records s'.records) :=
  ⟨h.sound hs, (h.relinked hs).linked_iff hs hlinked⟩

theorem sound_nil : Sound [] := ⟨List.nodup_nil, fun _ hw => absurd hw List.not_mem_nil⟩

theorem sound_of_run {s₀ : Store Work} (hempty : s₀.records = []) {later : List (Store Work)}
    (hrun : (s₀ :: later).IsChain Step) : ∀ s ∈ s₀ :: later, Sound s.records := by
  apply hrun.induction (fun s => Sound s.records)
  · intro _ _ hstep hs
    exact hstep.sound hs
  · intro _
    rw [List.head_cons, hempty]
    exact sound_nil

/-- In the states that calls lead to from an empty store, as long as the disk refuses none of them,
the parent of every item is there, exactly as long as no call deletes an item that has children. A
call that leaves the parent of an item as it is, is refused for an unknown parent only where that
parent is gone. -/
theorem linked_iff_keeps_parents {s₀ : Store Work} (hempty : s₀.records = [])
    {later : List (Store Work)} (hrun : (s₀ :: later).IsChain Step) :
    ((∀ s ∈ s₀ :: later, Linked s.records) ↔
      (s₀ :: later).IsChain fun s s' => ¬ Orphans s.records s'.records) ∧
    ∀ s ∈ s₀ :: later, ∀ (q : Request) (id : String) (p : Patch), q.patch? = some (id, p) →
      p.parentId = none → ∀ (host : Host) (desk' : Desk Work) (field entity parent : String),
      q.run ⟨s, host, []⟩ = .error (.validation (.unknownReference field entity parent)) desk' →
        ∃ w ∈ s.records, w.id = id ∧ w.parentId = some parent ∧ ∀ x ∈ s.records, x.id ≠ parent := by
  constructor
  · have hlinked : Linked s₀.records := by
      rw [hempty]
      exact fun _ hw => absurd hw List.not_mem_nil
    have hs : Sound s₀.records := sound_of_run hempty hrun s₀ List.mem_cons_self
    exact forall_iff_isChain_not (fun hstep hs hlinked => hstep.sound_and_linked_iff hs hlinked)
      later s₀ hs hlinked hrun
  · intro s hs q id p hq hp host desk' field entity parent hcall
    rw [Request.run_of_patch? hq] at hcall
    have hvalid := (sound_of_run hempty hrun s hs).valid
    have hlead : Leads (Work.update id p) ⟨s, host, []⟩ _ _ := leads_update_of_valid id p hvalid
    rcases hlead.of_error hcall with hpersistence | hrefused
    · exact hpersistence.elim
    · exact UpdateRefused.exists_orphan hp hrefused

/-- A parent and a child are made, and the parent is deleted. -/
private theorem exists_orphaning_run : ∃ (data : Location) (host host' : Host)
    (s₀ s₁ s₂ s₃ : Store Work) (p c : Work), Store.open data host = .ok s₀ host' ∧
    [s₀, s₁, s₂, s₃].IsChain Step ∧ s₀.records = [] ∧ s₁.records = [p] ∧ s₂.records = [p, c] ∧
    s₃.records = [c] ∧ p.parentId = none ∧ c.parentId = some p.id ∧ c.id ≠ p.id := by
  let data : Location := ⟨["data"], "/data"⟩
  let host : Host := { ids := fun n => if n = 0 then "p" else "c", times := fun _ => .epoch }
  let one : Priority := Priority.zero.succ
  let p : Work := ⟨"p", .story, none, "parent", "", .open, none, none, one, .epoch, .epoch⟩
  let c : Work := ⟨"c", .task, some "p", "child", "", .open, none, none, one.succ, .epoch, .epoch⟩
  have hrun : ((Store.done? (Store.open (R := Work) data host)).bind fun a =>
      (Store.done? (create { kind := .story, title := "parent" } ⟨a.1, a.2, []⟩)).bind fun b =>
      (Store.done? (create { title := "child", parentId := some "p" }
        ⟨b.2.store, b.2.host, []⟩)).bind fun d =>
      (Store.done? (delete "p" ⟨d.2.store, d.2.host, []⟩)).map fun e =>
        [a.1.records, b.2.store.records, d.2.store.records, e.2.store.records]) =
      some [[], [p], [p, c], [c]] := by
    decide +kernel
  simp only [Option.bind_eq_some_iff, Option.map_eq_some_iff, Prod.exists, List.cons.injEq,
    Store.done?_eq_some] at hrun
  obtain ⟨s₀, h₀, hopen, w₁, d₁, hcreate, w₂, d₂, hchild, w₃, d₃, hdelete, hs₀, hs₁, hs₂, hs₃, -⟩ :=
    hrun
  have hrun : [s₀, d₁.store, d₂.store, d₃.store].IsChain Step :=
    .cons_cons (.answered (q := .create _) hcreate)
      (.cons_cons (.answered (q := .create _) hchild)
        (.cons_cons (.answered (q := .delete _) hdelete) (.singleton _)))
  exact ⟨data, host, h₀, s₀, _, _, _, p, c, hopen, hrun, hs₀, hs₁, hs₂, hs₃, rfl, rfl, by decide⟩

/-- A child is made after its parent. -/
theorem linked_iff_keeps_parents_child : ∃ (s₀ s₁ s₂ : Store Work) (p c : Work), s₀.records = [] ∧
    [s₀, s₁, s₂].IsChain Step ∧ s₂.records = [p, c] ∧ c.parentId = some p.id ∧
    ∀ s ∈ [s₀, s₁, s₂], Linked s.records := by
  obtain ⟨-, -, -, s₀, s₁, s₂, s₃, p, c, -, hrun, hs₀, hs₁, hs₂, -, hroot, hchild, -⟩ :=
    exists_orphaning_run
  have hrun₂ : [s₀, s₁, s₂].IsChain Step := by
    simp only [List.isChain_cons_cons] at hrun ⊢
    exact ⟨hrun.1, hrun.2.1, .singleton _⟩
  have hfirst : ¬ Orphans s₀.records s₁.records := by
    rintro ⟨q, hq, -⟩
    rw [hs₀] at hq
    cases hq
  have hsecond : ¬ Orphans s₁.records s₂.records := by
    rintro ⟨q, hq, hgone, -⟩
    rw [hs₁] at hq
    exact hgone q (hs₂ ▸ List.mem_append_left [c] hq) rfl
  have hkept : [s₀, s₁, s₂].IsChain fun s s' => ¬ Orphans s.records s'.records :=
    .cons_cons hfirst (.cons_cons hsecond (.singleton _))
  exact ⟨s₀, s₁, s₂, p, c, hs₀, hrun₂, hs₂, hchild, (linked_iff_keeps_parents hs₀ hrun₂).1.2 hkept⟩

/-- When a parent is deleted, its child is left with a link that leads nowhere. -/
theorem deletion_orphans_child : ¬ ∀ (data : Location) (host host' : Host) (s₀ : Store Work)
    (later : List (Store Work)), Store.open data host = .ok s₀ host' → s₀.records = [] →
    (s₀ :: later).IsChain Step → ∀ s ∈ s₀ :: later, Linked s.records := by
  intro h
  obtain ⟨data, host, host', s₀, s₁, s₂, s₃, p, c, hopen, hrun, hempty, -, -, hs₃, -, hchild,
    hne⟩ := exists_orphaning_run
  have hlinked := h data host host' s₀ _ hopen hempty hrun s₃ (by simp)
  rw [hs₃] at hlinked
  obtain ⟨q, hq, hqid⟩ := hlinked c List.mem_cons_self p.id hchild
  obtain rfl := List.mem_singleton.1 hq
  exact hne hqid

end WorkQueue.Work
