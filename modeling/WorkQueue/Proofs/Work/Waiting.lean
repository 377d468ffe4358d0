import WorkQueue.Proofs.Work.Failure

/-!
# What is done waits

An item stays done only as long as a child of it is unclosed: every change of status looks at the
item and at whatever waits for it. Nothing looks at an item that loses a child in another way, by
its deletion or by a change of its parent. So from an empty store on everything that is done waits
for some child, exactly as long as no call takes the last unclosed child of a done item away.

While a cascade climbs, one item is exempt: the one that is looked at next.
-/

namespace WorkQueue.Work

open Record (Distinct)
open Store (Desk Edit)

/-- Every item that is done has a child that is not closed. -/
def Waits (works : List Work) : Prop :=
  ∀ w ∈ works, w.status = .done → HasUnclosed works w.id

/-- The child is the only one of the item that is not closed. -/
structure LastUnclosed (works : List Work) (p c : Work) : Prop where
  mem : c ∈ works
  child : c.parentId = some p.id
  unclosed : c.status ≠ .closed
  only : ∀ x ∈ works, x.parentId = some p.id → x.status ≠ .closed → x.id = c.id

/-- The last unclosed child of a done item is no longer its child. -/
def Strands (works works' : List Work) : Prop :=
  ∃ p ∈ works, p.status = .done ∧ ∃ c, LastUnclosed works p c ∧
    ∀ x ∈ works', x.id = c.id → x.parentId ≠ some p.id

/-- A call on a store, on whatever host, that the disk does not refuse. -/
inductive Step (s : Store Work) : Store Work → Prop where
  | answered {q : Request} {host : Host} {w : Work} {desk : Desk Work}
      (run : q.run ⟨s, host, []⟩ = .ok w desk) : Step s desk.store
  | refused {q : Request} {host : Host} {e : StoreError} {desk : Desk Work}
      (run : q.run ⟨s, host, []⟩ = .error e desk) (served : ¬ e.IsPersistence) : Step s desk.store

/-! ### What every call keeps -/

/-- Ids are distinct, and every item passes its check. -/
structure Sound (works : List Work) : Prop where
  distinct : Distinct works
  valid : Valid works

variable {desk desk' mid : Desk Work} {w w' x p : Work}

theorem Sound.edit {works works' : List Work} {change : Change Work} (hs : Sound works)
    (h : Edit works works' change) (hnew : ∀ w ∈ change.value?, validate w = .ok ()) :
    Sound works' :=
  ⟨h.distinct hs.distinct, hs.valid.edit h hnew⟩

theorem Settled.distinct (h : Settled desk w w' desk') (hd : Distinct desk.store.records) :
    Distinct desk'.store.records := by
  cases h with
  | stays => exact hd
  | closes _ _ changed => exact changed.edit.distinct hd

theorem Settled.sound (h : Settled desk w w' desk') (hs : Sound desk.store.records) :
    Sound desk'.store.records :=
  ⟨h.distinct hs.distinct, h.valid hs.valid⟩

theorem Updated.sound {id : String} {p : Patch}
    {veto : List Work → Work → Except StoreError Unit} (h : Updated desk id p veto w desk')
    (hs : Sound desk.store.records) : Sound desk'.store.records := by
  refine ⟨?_, h.valid hs.valid⟩
  obtain ⟨-, -, -, -, changed⟩ := h
  exact changed.edit.distinct hs.distinct

theorem Done.sound (h : Done desk desk') (hs : Sound desk.store.records) :
    Sound desk'.store.records := by
  cases h with
  | created fresh regular status valid committed =>
    rw [committed.records_eq]
    exact hs.edit (.created fresh regular) fun w hw => Option.some.inj hw ▸ valid
  | updated status updated => exact updated.sound hs
  | settled status updated rests =>
    exact rests.keeps (P := fun d => Sound d.store.records) Settled.sound (updated.sound hs)
  | deleted edit committed => exact hs.edit edit fun w hw => nomatch hw

/-- The ids of the items and of their parents. -/
def links (works : List Work) : List (String × Option String) :=
  works.map fun w => (w.id, w.parentId)

theorem Settled.links_eq (h : Settled desk w w' desk') :
    links desk'.store.records = links desk.store.records := by
  cases h with
  | stays => rfl
  | @closes t _ _ _ changed =>
    have hedit := changed.edit
    generalize desk.store.records = works at hedit ⊢
    generalize desk'.store.records = works' at hedit ⊢
    cases hedit with
    | updated first same => simp [links, closedAt]

theorem strands_congr {works works₁ works₂ : List Work} (h : links works₂ = links works₁) :
    Strands works works₂ ↔ Strands works works₁ := by
  have hmem (c q : String) : (∀ x ∈ works₂, x.id = c → x.parentId ≠ some q) ↔
      ∀ x ∈ works₁, x.id = c → x.parentId ≠ some q := by
    have hiff (l : List Work) : (∀ x ∈ l, x.id = c → x.parentId ≠ some q) ↔
        (c, some q) ∉ links l := by
      simp [links]
    rw [hiff, hiff, h]
  simp only [Strands, hmem]

/-! ### Along a cascade everything waits but one item -/

/-- Every done item but those with the exempt id has a child that is not closed. -/
def WaitsBut (exempt : Option String) (works : List Work) : Prop :=
  ∀ w ∈ works, w.status = .done → some w.id ≠ exempt → HasUnclosed works w.id

/-- The id under which an item may have to be closed next, once the item has changed. -/
def pending (w : Work) : Option String :=
  match w.status with
  | .done => some w.id
  | .closed => w.parentId
  | _ => none

theorem pending_of_done (h : w.status = .done) : pending w = some w.id := by
  rw [pending, h]

theorem pending_of_closed (h : w.status = .closed) : pending w = w.parentId := by
  rw [pending, h]

theorem Settled.waitsBut (h : Settled desk w w' desk') (hd : Distinct desk.store.records)
    (hw : w ∈ desk.store.records) (hwaits : WaitsBut (pending w) desk.store.records) :
    WaitsBut (pending w') desk'.store.records := by
  cases h with
  | stays => exact hwaits
  | @closes t _ hc _ changed =>
    rw [pending_of_done hc.1] at hwaits
    intro r hr hdone hne
    rcases (changed.mem_iff hd).1 hr with rfl | ⟨hr, hid⟩
    · cases hdone
    · obtain ⟨c, hmem, hparent, hunclosed⟩ := hwaits r hr hdone fun h => hid (Option.some.inj h)
      -- the child is not the item that was closed, whose parent is exempt now
      have hc' : c.id ≠ w.id := by
        intro hcid
        obtain rfl := List.inj_on_of_nodup_map hd hmem hw hcid
        exact hne hparent.symm
      exact ⟨c, (changed.mem_iff hd).2 (Or.inr ⟨hmem, hc'⟩), hparent, hunclosed⟩

/-- Where an item is looked at, everything waits but what it may let close. -/
structure Pending (desk : Desk Work) (w : Work) : Prop where
  distinct : Distinct desk.store.records
  found : desk.store.get? w.id = some w
  waits : WaitsBut (pending w) desk.store.records

theorem Settled.pending (h : Settled desk w w' desk') (hw : Pending desk w) :
    Pending desk' w' where
  distinct := h.distinct hw.distinct
  found := h.get?_eq hw.found
  waits := h.waitsBut hw.distinct (Record.mem_of_find? hw.found) hw.waits

theorem Pending.up {parent : Work} (hwaits : waitingParent? desk.store w = some parent)
    (hw : Pending desk w) : Pending desk parent := by
  obtain ⟨hclosed, hparent, hfound, hdone⟩ := waitingParent?_eq_some.1 hwaits
  refine { hw with found := hfound, waits := ?_ }
  rw [pending_of_done hdone, ← hparent, ← pending_of_closed hclosed]
  exact hw.waits

/-- A cascade that has come to its end leaves nothing that is done and does not wait. -/
theorem Rests.waits (h : Rests desk w desk') (hw : Pending desk w) : Waits desk'.store.records := by
  obtain ⟨desk₁, x, x', hclimb, hsettled, hnone⟩ := h
  have hx : Pending desk₁ x := hclimb.keeps Settled.pending Pending.up hw
  obtain ⟨hd', -, hwaits'⟩ := hsettled.pending hx
  intro r hr hdone
  by_contra hunclosed
  have hexempt : some r.id = pending x' := by
    by_contra hne
    exact hunclosed (hwaits' r hr hdone hne)
  cases hstatus : x'.status with
  | «open» => simp [pending, hstatus] at hexempt
  | inProgress => simp [pending, hstatus] at hexempt
  | done =>
    rw [pending_of_done hstatus] at hexempt
    cases hsettled with
    | stays hn => exact hn ⟨hstatus, Option.some.inj hexempt ▸ hunclosed⟩
    | closes => cases hstatus
  | closed =>
    rw [pending_of_closed hstatus] at hexempt
    have hfound := hd'.find?_of_mem hr
    rw [waitingParent?_eq_some.2 ⟨hstatus, hexempt.symm, hfound, hdone⟩] at hnone
    cases hnone

/-! ### One change -/

section Edits

variable {works works' : List Work} {change : Change Work}

theorem parentId_ne_of_valid (h : validate w = .ok ()) : w.parentId ≠ some w.id := by
  intro hself
  unfold validate at h
  cases htitle : requireText "title" w.title with
  | error e => simp [htitle, bind, Except.bind] at h
  | ok _ => simp [htitle, hself, bind, Except.bind] at h

/-- An item that waits no longer after a change had one unclosed child, the one that changed. -/
theorem exists_lastUnclosed (h : Edit works works' change) (hd : Distinct works)
    (hbefore : HasUnclosed works p.id) (hafter : ¬ HasUnclosed works' p.id) :
    ∃ c, LastUnclosed works p c ∧ c.id = change.id := by
  have honly : ∀ c ∈ works, c.parentId = some p.id → c.status ≠ .closed → c.id = change.id := by
    intro c hc hparent hunclosed
    by_contra hcid
    exact hafter ⟨c, (h.mem_iff hd).2 (Or.inr ⟨hc, hcid⟩), hparent, hunclosed⟩
  obtain ⟨c, hc, hparent, hunclosed⟩ := hbefore
  have hcid := honly c hc hparent hunclosed
  exact ⟨c, ⟨hc, hparent, hunclosed, fun x hx hxparent hxunclosed =>
    (honly x hx hxparent hxunclosed).trans hcid.symm⟩, hcid⟩

/-- An item that a change strands is still there, and it does not wait. -/
theorem Strands.exists_done (h : Edit works works' change) (hs : Sound works)
    (hstrands : Strands works works') : ∃ p ∈ works', p.status = .done ∧
      ¬ HasUnclosed works' p.id ∧ p.id ≠ change.id ∧
      ∀ x ∈ works', x.id = change.id → x.parentId ≠ some p.id := by
  obtain ⟨p, hp, hdone, c, hlast, hgone⟩ := hstrands
  have hmem {x : Work} := h.mem_iff hs.distinct (r := x)
  have hcid : c.id = change.id := by
    by_contra hne
    exact hgone c (hmem.2 (Or.inr ⟨hlast.mem, hne⟩)) rfl hlast.child
  rw [hcid] at hgone
  have hne : p.id ≠ change.id := by
    intro hpid
    exact parentId_ne_of_valid (hs.valid c hlast.mem) (by rw [hlast.child, hpid, hcid])
  refine ⟨p, hmem.2 (Or.inr ⟨hp, hne⟩), hdone, ?_, hne, hgone⟩
  rintro ⟨x, hx, hxparent, hxunclosed⟩
  rcases hmem.1 hx with hvalue | ⟨hx', hxid⟩
  · exact hgone x hx (Change.id_of_value? hvalue) hxparent
  · exact hxid ((hlast.only x hx' hxparent hxunclosed).trans hcid)

theorem Strands.not_waits (h : Edit works works' change) (hs : Sound works)
    (hstrands : Strands works works') : ¬ Waits works' := by
  obtain ⟨p, hp, hdone, hclosed, -⟩ := hstrands.exists_done h hs
  exact fun hwaits => hclosed (hwaits p hp hdone)

end Edits

/-- What an update means for the item alone. -/
theorem Updated.exists_previous {id : String} {p : Patch}
    {veto : List Work → Work → Except StoreError Unit} (h : Updated desk id p veto w desk') :
    ∃ previous ∈ desk.store.records, previous.id = w.id ∧
      w.status = p.status.getD previous.status ∧ Changed desk previous w desk' := by
  obtain ⟨found, patch, -, -, changed⟩ := h
  have hpatched := eq_patched_of_patch patch
  exact ⟨_, Record.mem_of_find? found, (id_patch patch).symm,
    congrArg Work.status hpatched, changed⟩

theorem parentId_of_patch {p : Patch} {previous next : Work}
    (h : Work.patch p previous = .ok next) (hp : p.parentId = none) :
    next.parentId = previous.parentId := by
  rw [eq_patched_of_patch h, Work.patched, hp]
  rfl

/-- A patch leaves the status as it is, or moves it to the one that it asks for. -/
theorem status_of_patch {p : Patch} {previous next : Work} (h : Work.patch p previous = .ok next) :
    p.status = none ∧ next.status = previous.status ∨
      p.status = some next.status ∧ previous.status.canMoveTo next.status = true := by
  rw [eq_patched_of_patch h]
  unfold Work.patch at h
  cases hp : p.status with
  | none => exact Or.inl ⟨rfl, by simp [patched, hp]⟩
  | some status =>
    simp only [hp] at h
    by_cases hmove : previous.status.canMoveTo status = true
    · exact Or.inr ⟨by simp [patched, hp], by simpa [patched, hp] using hmove⟩
    · rw [if_neg hmove] at h
      cases h

theorem ne_open_of_canMoveTo {s t : Status} (h : s.canMoveTo t = true) : t ≠ .open := by
  rintro rfl
  cases s <;> cases h

theorem eq_open_of_canMoveTo {s : Status} (h : s.canMoveTo .inProgress = true) : s = .open := by
  cases s <;> first | rfl | cases h

/-- A change that strands nothing leaves everything waiting, but for what the item's new status may
let close. -/
theorem Updated.waitsBut {id : String} {p : Patch}
    {veto : List Work → Work → Except StoreError Unit} (h : Updated desk id p veto w desk')
    (hd : Distinct desk.store.records) (hwaits : Waits desk.store.records)
    (hn : ¬ Strands desk.store.records desk'.store.records) :
    WaitsBut (if p.status.isSome then pending w else none) desk'.store.records := by
  obtain ⟨previous, hprevious, hid, hstatus, changed⟩ := h.exists_previous
  have hmem {x : Work} := changed.mem_iff hd (r := x)
  intro r hr hdone hne
  by_contra hclosed
  obtain ⟨q, hq, hqid, hqdone⟩ : ∃ q ∈ desk.store.records, q.id = r.id ∧ q.status = .done := by
    rcases hmem.1 hr with rfl | ⟨hr, -⟩
    · cases hp : p.status with
      | none => exact ⟨previous, hprevious, hid, by simpa [hp, hdone] using hstatus.symm⟩
      | some next => simp [hp, pending_of_done hdone] at hne
    · exact ⟨r, hr, rfl, hdone⟩
  have hbefore := hwaits q hq hqdone
  obtain ⟨c, hlast, hcid⟩ := exists_lastUnclosed changed.edit hd hbefore (hqid ▸ hclosed)
  have hcid : c.id = w.id := hcid
  refine hn ⟨q, hq, hqdone, c, hlast, fun x hx hxid hxparent => ?_⟩
  -- the item is still a child, so it has closed and its parent is the one that is exempt
  obtain rfl := (hmem.1 hx).resolve_right fun h => h.2 (hxid.trans hcid)
  have hxclosed : x.status = .closed := by
    by_contra hx'
    exact hclosed ⟨x, hx, hqid ▸ hxparent, hx'⟩
  cases hp : p.status with
  | none =>
    obtain rfl := List.inj_on_of_nodup_map hd hlast.mem hprevious (hcid.trans hid.symm)
    exact hlast.unclosed (by simpa [hp, hxclosed] using hstatus.symm)
  | some next =>
    simp only [hp, Option.isSome_some, if_true, pending_of_closed hxclosed, hxparent, hqid] at hne
    exact hne rfl

/-! ### What is stranded stays so -/

/-- The item is done, it does not wait, and it is no part of the climb that starts at another. -/
structure Stranded (p : Work) (works : List Work) (w : Work) : Prop where
  mem : p ∈ works
  done : p.status = .done
  closed : ¬ HasUnclosed works p.id
  ne : p.id ≠ w.id
  parent : w.parentId ≠ some p.id

theorem Settled.stranded (h : Settled desk w w' desk') (hd : Distinct desk.store.records)
    (hp : Stranded p desk.store.records w) : Stranded p desk'.store.records w' := by
  cases h with
  | stays => exact hp
  | @closes t _ hc _ changed =>
    refine ⟨(changed.mem_iff hd).2 (Or.inr ⟨hp.mem, hp.ne⟩), hp.done, ?_, hp.ne, hp.parent⟩
    rintro ⟨c, hmem, hparent, hunclosed⟩
    rcases (changed.mem_iff hd).1 hmem with rfl | ⟨hmem, -⟩
    · exact hunclosed rfl
    · exact hp.closed ⟨c, hmem, hparent, hunclosed⟩

theorem Stranded.up {parent : Work} (hwaits : waitingParent? desk.store w = some parent)
    (hp : Stranded p desk.store.records w) : Stranded p desk.store.records parent := by
  obtain ⟨-, hparent, hfound, hdone⟩ := waitingParent?_eq_some.1 hwaits
  refine { hp with ne := ?_, parent := ?_ }
  · intro hid
    exact hp.parent (hid ▸ hparent)
  · intro hlink
    exact hp.closed ⟨_, Record.mem_of_find? hfound, hlink, by simp [hdone]⟩

theorem Rests.not_waits (h : Rests desk w desk') (hd : Distinct desk.store.records)
    (hp : Stranded p desk.store.records w) : ¬ Waits desk'.store.records := by
  obtain ⟨desk₁, x, x', hclimb, hsettled, -⟩ := h
  obtain ⟨hd₁, hp₁⟩ : Distinct desk₁.store.records ∧ Stranded p desk₁.store.records x :=
    hclimb.keeps (P := fun d v => Distinct d.store.records ∧ Stranded p d.store.records v)
      (fun hsettled h => ⟨hsettled.distinct h.1, hsettled.stranded h.1 h.2⟩)
      (fun hwaits h => ⟨h.1, h.2.up hwaits⟩) ⟨hd, hp⟩
  have hp' := hsettled.stranded hd₁ hp₁
  exact fun hwaits => hp'.closed (hwaits p hp'.mem hp'.done)

theorem Updated.stranded {id : String} {q : Patch}
    {veto : List Work → Work → Except StoreError Unit} (h : Updated desk id q veto w desk')
    (hs : Sound desk.store.records) (hstrands : Strands desk.store.records desk'.store.records) :
    ∃ p, Stranded p desk'.store.records w := by
  obtain ⟨_, -, -, -, changed⟩ := h.exists_previous
  obtain ⟨p, hp, hdone, hclosed, hne, hgone⟩ := hstrands.exists_done changed.edit hs
  have hw := Record.mem_of_find? changed.get?_eq
  exact ⟨p, hp, hdone, hclosed, hne, hgone _ hw rfl⟩

/-! ### One call -/

theorem Waits.created {works : List Work} (h : Waits works) (hopen : w.status = .open) :
    Waits (works ++ [w]) := by
  intro r hr hdone
  rcases List.mem_append.1 hr with hr | hr
  · obtain ⟨c, hc, hchild⟩ := h r hr hdone
    exact ⟨c, List.mem_append_left _ hc, hchild⟩
  · rw [List.mem_singleton.1 hr, hopen] at hdone
    cases hdone

/-- A deletion that strands nothing leaves everything waiting. -/
theorem Waits.deleted {works works' : List Work} (h : Waits works)
    (hedit : Edit works works' (.deleted w)) (hd : Distinct works) (hn : ¬ Strands works works') :
    Waits works' := by
  have hmem {x : Work} (hx : x ∈ works') : x ∈ works ∧ x.id ≠ w.id :=
    ((hedit.mem_iff hd).1 hx).resolve_left fun h => nomatch h
  intro r hr hdone
  by_contra hclosed
  have hr := (hmem hr).1
  obtain ⟨c, hlast, hcid⟩ := exists_lastUnclosed hedit hd (h r hr hdone) hclosed
  exact hn ⟨r, hr, hdone, c, hlast, fun x hx hxid => absurd (hxid.trans hcid) (hmem hx).2⟩

theorem Done.waits_iff (h : Done desk desk') (hs : Sound desk.store.records)
    (hwaits : Waits desk.store.records) :
    Waits desk'.store.records ↔ ¬ Strands desk.store.records desk'.store.records := by
  cases h with
  | created fresh regular status valid committed =>
    rw [committed.records_eq]
    have hwaits' := hwaits.created status
    exact iff_of_true hwaits' fun hstrands => hstrands.not_waits (.created fresh regular) hs hwaits'
  | @updated id p w status updated =>
    constructor
    · intro hwaits' hstrands
      obtain ⟨_, -, -, -, changed⟩ := updated.exists_previous
      exact hstrands.not_waits changed.edit hs hwaits'
    · intro hn r hr hdone
      have hbut := updated.waitsBut hs.distinct hwaits hn
      rw [status] at hbut
      exact hbut r hr hdone (by simp)
  | @settled id p w mid status updated rests =>
    have hmid := updated.sound hs
    have hlinks : links desk'.store.records = links mid.store.records :=
      rests.keeps (P := fun d => links d.store.records = links mid.store.records)
        (fun settled h => settled.links_eq.trans h) rfl
    rw [strands_congr hlinks]
    constructor
    · intro hwaits' hstrands
      obtain ⟨p, hp⟩ := updated.stranded hs hstrands
      exact rests.not_waits hmid.distinct hp hwaits'
    · intro hn
      have hbut := updated.waitsBut hs.distinct hwaits hn
      rw [if_pos status] at hbut
      exact rests.waits ⟨hmid.distinct, updated.get?_eq, hbut⟩
  | deleted edit committed =>
    exact ⟨fun hwaits' hstrands => hstrands.not_waits edit hs hwaits',
      hwaits.deleted edit hs.distinct⟩

/-! ### Runs -/

variable {s s' : Store Work}

theorem not_strands_self (works : List Work) : ¬ Strands works works := by
  rintro ⟨p, -, -, c, hlast, hgone⟩
  exact hgone c hlast.mem rfl hlast.child

theorem Step.sound_and_waits_iff (h : Step s s') (hs : Sound s.records) (hw : Waits s.records) :
    Sound s'.records ∧ (Waits s'.records ↔ ¬ Strands s.records s'.records) := by
  cases h with
  | answered run =>
    have hdone := (Request.leads_run _).of_ok run
    exact ⟨hdone.sound hs, hdone.waits_iff hs hw⟩
  | @refused q host e desk run served =>
    have hfailed := (Request.leads_run _).of_error run
    have hsame : desk.store = s := (hfailed.idle_of_valid hs.valid served).store
    rw [hsame]
    exact ⟨hs, iff_of_true hw (not_strands_self _)⟩

/-- Where each step keeps what is good exactly if it is not bad, so does a run. -/
theorem forall_iff_isChain_not {α : Type} {step bad : α → α → Prop} {sound good : α → Prop}
    (hstep : ∀ {s s' : α}, step s s' → sound s → good s → sound s' ∧ (good s' ↔ ¬ bad s s'))
    (later : List α) (s : α) (hs : sound s) (hgood : good s) (hrun : (s :: later).IsChain step) :
    (∀ t ∈ s :: later, good t) ↔ (s :: later).IsChain fun t t' => ¬ bad t t' := by
  induction later generalizing s with
  | nil => simpa using hgood
  | cons s' later ih =>
    obtain ⟨hfirst, hrun⟩ := List.isChain_cons_cons.1 hrun
    obtain ⟨hs', hiff⟩ := hstep hfirst hs hgood
    rw [List.isChain_cons_cons, List.forall_mem_cons]
    constructor
    · rintro ⟨-, hrest⟩
      have hgood' := hrest s' List.mem_cons_self
      exact ⟨hiff.1 hgood', (ih s' hs' hgood' hrun).1 hrest⟩
    · rintro ⟨hn, hrest⟩
      exact ⟨hgood, (ih s' hs' (hiff.2 hn) hrun).2 hrest⟩

theorem waits_iff_of_sound (later : List (Store Work)) (s : Store Work) (hs : Sound s.records)
    (hw : Waits s.records) (hrun : (s :: later).IsChain Step) :
    (∀ t ∈ s :: later, Waits t.records) ↔
      (s :: later).IsChain fun t t' => ¬ Strands t.records t'.records :=
  forall_iff_isChain_not (fun hstep hs hw => hstep.sound_and_waits_iff hs hw) later s hs hw hrun

/-- In the states that calls lead to from an empty store, as long as the disk refuses none of them,
every item that is done has a child that is not closed, exactly as long as no call deletes the last
such child of a done item or gives it another parent. -/
theorem done_waits_iff {s₀ : Store Work} (hempty : s₀.records = []) {later : List (Store Work)}
    (hrun : (s₀ :: later).IsChain Step) :
    (∀ s ∈ s₀ :: later, Waits s.records) ↔
      (s₀ :: later).IsChain fun s s' => ¬ Strands s.records s'.records := by
  refine waits_iff_of_sound later s₀ ?_ ?_ hrun
  · rw [hempty]
    exact ⟨List.nodup_nil, fun w hw => absurd hw List.not_mem_nil⟩
  · rw [hempty]
    exact fun w hw => absurd hw List.not_mem_nil

/-! ### A parent and its child -/

/-- An item that can neither be closed nor let its parent close is left as the update made it. -/
theorem update_eq_ok_of_none {id : String} {p : Patch} (hp : p.status.isSome = true)
    (h : Store.updateWith id p checkParent desk = .ok w mid) (hc : ¬ Closable mid.store w)
    (hnone : waitingParent? mid.store w = none) : update id p desk = .ok w mid := by
  have hclose : closeIfFinished w mid = .ok w mid := by
    change (if _ then _ else _ : StoreM Work Work) mid = _
    rw [if_neg (mt closable_iff.1 hc)]
    rfl
  have hget : (get : StoreM Work (Desk Work)) mid = .ok mid mid := rfl
  rw [update_of_updateWith hp h, settle, bind_of_ok hclose, bind_of_ok hget, hnone]
  rfl

theorem update_eq_ok {id : String} {p : Patch} (hp : p.status.isSome = true)
    (h : Store.updateWith id p checkParent desk = .ok w mid) (hc : ¬ Closable mid.store w)
    (hw : w.status ≠ .closed) : update id p desk = .ok w mid :=
  update_eq_ok_of_none hp h hc (if_neg hw)

/-- A parent and a child are made, the parent is done, and the child is deleted. -/
private theorem exists_stranding_run : ∃ (data : Location) (host host' : Host)
    (s₀ s₁ s₂ s₃ s₄ s₅ : Store Work) (p c : Work), Store.open data host = .ok s₀ host' ∧
    [s₀, s₁, s₂, s₃, s₄, s₅].IsChain Step ∧ s₀.records = [] ∧
    (∀ s ∈ [s₀, s₁, s₂, s₃], ∀ w ∈ s.records, w.status ≠ .done) ∧
    s₄.records = [p, c] ∧ p.status = .done ∧ p.parentId = none ∧ s₅.records = [p] := by
  let data : Location := ⟨["data"], "/data"⟩
  let host : Host := { ids := fun n => if n = 0 then "p" else "c", times := fun _ => .epoch }
  let one : Priority := Priority.zero.succ
  let p : Work := ⟨"p", .story, none, "parent", "", .open, none, none, one, .epoch, .epoch⟩
  let c : Work := ⟨"c", .task, some "p", "child", "", .open, none, none, one.succ, .epoch, .epoch⟩
  let started : Work := { p with status := .inProgress, sessionId := some "s" }
  let done : Work := { started with status := .done }
  let starting : Patch := { status := some .inProgress, sessionId := some "s" }
  let finishing : Patch := { status := some .done }
  have hrun : ((Store.done? (Store.open (R := Work) data host)).bind fun a =>
      (Store.done? (create { kind := .story, title := "parent" } ⟨a.1, a.2, []⟩)).bind fun b =>
      (Store.done? (create { title := "child", parentId := some "p" }
        ⟨b.2.store, b.2.host, []⟩)).bind fun d =>
      (Store.done? (Store.updateWith "p" starting checkParent
        ⟨d.2.store, d.2.host, []⟩)).bind fun e =>
      (Store.done? (Store.updateWith "p" finishing checkParent
        ⟨e.2.store, e.2.host, []⟩)).bind fun f =>
      (Store.done? (delete "c" ⟨f.2.store, f.2.host, []⟩)).map fun g =>
        ([e.1, f.1], [a.1.records, b.2.store.records, d.2.store.records, e.2.store.records,
          f.2.store.records, g.2.store.records])) =
      some ([started, done], [[], [p], [p, c], [started, c], [done, c], [done]]) := by
    decide +kernel
  simp only [Option.bind_eq_some_iff, Option.map_eq_some_iff, Prod.exists, Prod.mk.injEq,
    List.cons.injEq, Store.done?_eq_some] at hrun
  obtain ⟨s₀, h₀, hopen, w₁, d₁, hcreate, w₂, d₂, hchild, w₃, d₃, hstart, w₄, d₄, hdone, w₅, d₅,
    hdelete, ⟨rfl, rfl, -⟩, hs₀, hs₁, hs₂, hs₃, hs₄, hs₅, -⟩ := hrun
  have hstart : start "p" "s" ⟨d₂.store, d₂.host, []⟩ = .ok started d₃ :=
    update_eq_ok rfl hstart (fun hc => by cases hc.1) (by decide)
  have hwaits : HasUnclosed d₄.store.records done.id :=
    ⟨c, by simp [hs₄], rfl, by decide⟩
  have hdone : markDone "p" ⟨d₃.store, d₃.host, []⟩ = .ok done d₄ :=
    update_eq_ok rfl hdone (fun hc => hc.2 hwaits) (by decide)
  have hrun : [s₀, d₁.store, d₂.store, d₃.store, d₄.store, d₅.store].IsChain Step :=
    .cons_cons (.answered (q := .create _) hcreate)
      (.cons_cons (.answered (q := .create _) hchild)
        (.cons_cons (.answered (q := .start _ _) hstart)
          (.cons_cons (.answered (q := .markDone _) hdone)
            (.cons_cons (.answered (q := .delete _) hdelete) (.singleton _)))))
  refine ⟨data, host, h₀, s₀, _, _, _, _, _, done, c, hopen, hrun, hs₀, ?_, hs₄, rfl, rfl, hs₅⟩
  simp [hs₀, hs₁, hs₂, hs₃, p, c, started]

/-- A parent that is done waits for its child. -/
theorem done_waits_iff_parent : ∃ (s₀ s₁ s₂ s₃ s₄ : Store Work) (p c : Work), s₀.records = [] ∧
    [s₀, s₁, s₂, s₃, s₄].IsChain Step ∧ s₄.records = [p, c] ∧ p.status = .done ∧
    ∀ s ∈ [s₀, s₁, s₂, s₃, s₄], Waits s.records := by
  obtain ⟨-, -, -, s₀, s₁, s₂, s₃, s₄, s₅, p, c, -, hrun, hempty, hundone, hs₄, hp, -⟩ :=
    exists_stranding_run
  have hn : ∀ s ∈ [s₀, s₁, s₂, s₃], ∀ s' : Store Work,
      ¬ Strands s.records s'.records := by
    rintro s hs s' ⟨w, hw, hdone, -⟩
    exact hundone s hs w hw hdone
  have hrun₄ : [s₀, s₁, s₂, s₃, s₄].IsChain Step := by
    simp only [List.isChain_cons_cons] at hrun ⊢
    exact ⟨hrun.1, hrun.2.1, hrun.2.2.1, hrun.2.2.2.1, .singleton _⟩
  have hkept : [s₀, s₁, s₂, s₃, s₄].IsChain fun s s' => ¬ Strands s.records s'.records :=
    .cons_cons (hn _ (by simp) _) (.cons_cons (hn _ (by simp) _)
      (.cons_cons (hn _ (by simp) _) (.cons_cons (hn _ (by simp) _) (.singleton _))))
  exact ⟨s₀, s₁, s₂, s₃, s₄, p, c, hempty, hrun₄, hs₄, hp, (done_waits_iff hempty hrun₄).2 hkept⟩

/-- When the only child of a parent that is done is deleted, the parent waits for nothing. -/
theorem deletion_strands_parent : ¬ ∀ (data : Location) (host host' : Host) (s₀ : Store Work)
    (later : List (Store Work)), Store.open data host = .ok s₀ host' → s₀.records = [] →
    (s₀ :: later).IsChain Step → ∀ s ∈ s₀ :: later, Waits s.records := by
  intro h
  obtain ⟨data, host, host', s₀, s₁, s₂, s₃, s₄, s₅, p, c, hopen, hrun, hempty, -, -, hdone, hroot,
    hs₅⟩ := exists_stranding_run
  have hwaits := h data host host' s₀ _ hopen hempty hrun s₅ (by simp)
  rw [hs₅] at hwaits
  obtain ⟨x, hx, hparent, -⟩ := hwaits p List.mem_cons_self hdone
  rw [List.mem_singleton.1 hx, hroot] at hparent
  cases hparent

end WorkQueue.Work
