import WorkQueue.Proofs.Work.Cascade

/-!
# What a failed call leaves behind

The change of an item and every closing that follows from it are commits of their own. A call that
fails in the middle of them keeps those that it has made: the item and everything below the one that
could not be closed are changed and announced, and that one and all others are as they were. Where
every item is valid, only the disk can refuse a closing, so that a call that asked for too much has
done nothing.
-/

namespace WorkQueue.Work

open Record (Distinct)
open Store (Desk Idle Edit)

/-- Every item passes its own check. -/
def Valid (works : List Work) : Prop := ∀ w ∈ works, validate w = .ok ()

theorem Valid.edit {works works' : List Work} {change : Change Work} (hv : Valid works)
    (h : Edit works works' change) (hnew : ∀ w ∈ change.value?, validate w = .ok ()) :
    Valid works' := by
  intro r hr
  rcases h.mem_or_value hr with hr | hr
  · exact hv r hr
  · exact hnew r hr

variable {desk desk' mid : Desk Work} {w w' x : Work} {e : StoreError}

theorem Updated.valid {id : String} {p : Patch}
    {veto : List Work → Work → Except StoreError Unit} (h : Updated desk id p veto w desk')
    (hv : Valid desk.store.records) : Valid desk'.store.records := by
  obtain ⟨found, patch, allowed, valid, changed⟩ := h
  exact hv.edit changed.edit fun w hw => Option.some.inj hw ▸ valid

theorem Settled.valid (h : Settled desk w w' desk') (hv : Valid desk.store.records) :
    Valid desk'.store.records := by
  cases h with
  | stays => exact hv
  | closes hc valid changed => exact hv.edit changed.edit fun w hw => Option.some.inj hw ▸ valid

theorem Climb.valid (h : Climb desk w desk' x) (hv : Valid desk.store.records) :
    Valid desk'.store.records :=
  h.keeps (P := fun d _ => Valid d.store.records) Settled.valid (fun _ hv => hv) hv

theorem Climb.get?_eq (h : Climb desk w desk' x) (hw : desk.store.get? w.id = some w) :
    desk'.store.get? x.id = some x :=
  h.keeps (P := fun d v => d.store.get? v.id = some v) Settled.get?_eq
    (fun hwaits _ => (waitingParent?_eq_some.1 hwaits).2.2.1) hw

/-- Only the disk keeps a valid item from being closed. -/
theorem Halts.isPersistence (h : Halts desk w e desk') (hw : desk.store.get? w.id = some w)
    (hv : Valid desk.store.records) : e.IsPersistence := by
  obtain ⟨desk₁, x, hclimb, hstuck⟩ := h
  refine hstuck.cause.resolve_right ?_
  rintro ⟨v, -, hinvalid⟩
  have hx := hclimb.valid hv x (Record.mem_of_find? (hclimb.get?_eq hw))
  rw [hx] at hinvalid
  cases hinvalid

/-- Where every item is valid, a call that the disk did not refuse has done nothing. -/
theorem Failed.idle_of_valid {q : Request} (h : Failed q desk e desk')
    (hv : Valid desk.store.records) (he : ¬ e.IsPersistence) : Idle desk desk' := by
  cases h with
  | idle idle => exact idle
  | halted asked status updated halts =>
    exact absurd (halts.isPersistence updated.get?_eq (updated.valid hv)) he

/-- A call that fails has done nothing, unless it failed to close what its change let close. Then
the change and the closings before that are there. Where every item is valid, a call that the disk
did not refuse has done nothing. -/
theorem failed_idle_or_halted (q : Request) (hrun : q.run desk = .error e desk') :
    Failed q desk e desk' ∧
      (Valid desk.store.records → ¬ e.IsPersistence → Idle desk desk') := by
  have hfailed := q.leads_run.of_error hrun
  exact ⟨hfailed, hfailed.idle_of_valid⟩

/-! ### A cascade that halts -/

theorem Changed.revision_eq (h : Changed desk w w' desk') :
    desk'.store.revision = desk.store.revision + 1 := by
  obtain ⟨content, -, -, hstore⟩ := h.committed.written
  rw [hstore]

theorem Settled.revision_le (h : Settled desk w w' desk') :
    desk.store.revision ≤ desk'.store.revision := by
  cases h with
  | stays => exact Nat.le_refl _
  | closes hc valid changed => exact changed.revision_eq ▸ Nat.le_succ _

theorem Halts.revision_le (h : Halts desk w e desk') :
    desk.store.revision ≤ desk'.store.revision :=
  h.keeps (P := fun d => desk.store.revision ≤ d.store.revision)
    (fun hsettled h => h.trans hsettled.revision_le) (fun hidle h => hidle.store ▸ h)
    (Nat.le_refl _)

/-- An item is closed while its parent, which is done and has no other child, cannot be. -/
theorem Rests.valid_parent {p : Work} (h : Rests desk w desk') (hd : Distinct desk.store.records)
    (hc : Closable desk.store w) (hp : w.parentId = some p.id)
    (hfound : desk.store.get? p.id = some p) (hdone : p.status = .done) (hne : p.id ≠ w.id)
    (honly : ∀ c ∈ desk.store.records, c.parentId = some p.id → c.status ≠ .closed → c.id = w.id) :
    validate p = .ok () := by
  obtain ⟨w₁, desk₁, hsettled, hrest⟩ := h.eq_or_up
  cases hsettled with
  | stays hn => exact absurd hc hn
  | @closes t _ _ _ changed =>
    have hstill : desk₁.store.get? p.id = some p := by
      rw [← hfound]
      exact changed.edit.find?_of_ne fun hid => hne hid.symm
    have hwaits : waitingParent? desk₁.store (w.closedAt t) = some p :=
      waitingParent?_eq_some.2 ⟨rfl, hp, hstill, hdone⟩
    have hclosable : Closable desk₁.store p := by
      refine ⟨hdone, ?_⟩
      rintro ⟨c, hmem, hparent, hunclosed⟩
      rcases (changed.mem_iff hd).1 hmem with rfl | ⟨hmem, hid⟩
      · exact hunclosed rfl
      · exact hid (honly c hmem hparent hunclosed)
    rcases hrest with ⟨hnone, -⟩ | ⟨parent, hparent, hrest⟩
    · rw [hwaits] at hnone
      cases hnone
    · obtain rfl := Option.some.inj (hwaits.symm.trans hparent)
      obtain ⟨p₁, desk₂, hsettled, -⟩ := hrest.eq_or_up
      cases hsettled with
      | stays hn => exact absurd hclosable hn
      | closes _ valid _ => exact valid

/-- An item and its done parent, which has no title. -/
private theorem exists_halted_call : ∃ (data : Location) (host host' : Host) (s : Store Work)
    (e : StoreError) (desk' : Desk Work), Store.open data host = .ok s host' ∧
    markDone "c" ⟨s, host', []⟩ = .error e desk' ∧ s.revision < desk'.store.revision := by
  let data : Location := ⟨["data"], "/data"⟩
  let i := Index.ofData Work data
  let p : Work := ⟨"p", .story, none, "", "", .done, none, none, .zero, .epoch, .epoch⟩
  let c : Work :=
    ⟨"c", .task, some "p", "child", "", .inProgress, none, none, .zero, .epoch, .epoch⟩
  let done : Work := { c with status := .done }
  let content := Index.written [p, c]
  let disk : Disk := { nodes := [
    (["data"], .dir 0o755), (i.dir.path, .dir 0o700), (i.lock.path, .file 0o600 .empty),
    (i.file.path, .file 0o600 content)] }
  let host : Host := { disk, ids := fun _ => "x", times := fun _ => .epoch }
  let disk' := (disk.ask.set i.dir.path (.dir 0o700)).ask.ask
  let host' : Host := { host with disk := disk' }
  have hregular : Record.AllRegular [p, c] := by
    simp only [Record.AllRegular, List.forall_mem_cons]
    exact ⟨⟨by decide, by decide⟩, ⟨by decide, by decide⟩, List.forall_mem_nil _⟩
  have hread : i.read disk = .ok ⟨[p, c], some (Digest.ofBytes content)⟩ disk' :=
    Index.indexRead_of_steps rfl rfl rfl (Index.decode_written hregular)
  let s : Store Work := { index := i, records := [p, c], digest := some (Digest.ofBytes content) }
  have hopen : Store.open data host = .ok s host' :=
    @Store.open_of_read Work _ data host _ _ hread
  have hupdate : (Store.done? (Store.updateWith "c" ({ status := some .done } : Patch) checkParent
      (⟨s, host', []⟩ : Desk Work))).map (fun a => (a.1, a.2.store.records, a.2.store.revision)) =
      some (done, [p, done], 1) := by
    decide +kernel
  simp only [Option.map_eq_some_iff, Prod.exists, Prod.mk.injEq, Store.done?_eq_some] at hupdate
  obtain ⟨c₁, mid, hupdate, rfl, hrecords, hrevision⟩ := hupdate
  have hrun := update_of_updateWith rfl hupdate
  have hget (id : String) : mid.store.get? id = Record.find? [p, done] id := hrecords ▸ rfl
  have hfound : mid.store.get? done.id = some done := (hget "c").trans (by decide +kernel)
  have hsettle := leads_settle_of_length hfound
  cases hend : settle (mid.store.records.length + 2) done mid with
  | error e desk' =>
    have hle := (hsettle.of_error hend).revision_le
    rw [hrevision] at hle
    exact ⟨data, host, host', s, e, desk', hopen, hrun.trans hend, hle⟩
  | ok w desk' =>
    have hparent : mid.store.get? p.id = some p := (hget "p").trans (by decide +kernel)
    have hclosable : Closable mid.store done :=
      ⟨rfl, by simp [HasUnclosed, hrecords, p, c, done]⟩
    have hvalid := (hsettle.of_ok hend).valid_parent (by rw [hrecords]; decide) hclosable rfl
      hparent rfl (by decide) (by simp [hrecords, p, c, done])
    exact absurd hvalid (by decide +kernel)

/-- The first update of an item is kept where the closing of its parent is refused. -/
theorem failed_idle_or_halted_midway : ∃ (data : Location) (host host' : Host) (s : Store Work)
    (e : StoreError) (desk' : Desk Work), Store.open data host = .ok s host' ∧
    (Request.markDone "c").run ⟨s, host', []⟩ = .error e desk' ∧
    Failed (.markDone "c") ⟨s, host', []⟩ e desk' ∧ ¬ Idle ⟨s, host', []⟩ desk' := by
  obtain ⟨data, host, host', s, e, desk', hopen, hrun, hlt⟩ := exists_halted_call
  have hfailed := (failed_idle_or_halted (.markDone "c") hrun).1
  refine ⟨data, host, host', s, e, desk', hopen, hrun, hfailed, ?_⟩
  intro hidle
  rw [hidle.store] at hlt
  exact Nat.lt_irrefl _ hlt

/-- An item is let close, but the change is refused. -/
theorem settle_of_refused {n : Nat} (hc : Closable desk.store w)
    (h : Store.update w.id closing desk = .error e desk') :
    settle (n + 1) w desk = .error e desk' := by
  have hclose : closeIfFinished w desk = .error e desk' := by
    rw [closeIfFinished, bind_of_ok (a := get) rfl, if_pos (closable_iff.2 hc), h]
  simp only [settle, bind, EStateM.bind, hclose]

/-- Every item is valid, and the disk takes the first write of a call and refuses the next one: the
item is done, but it has not been closed. -/
theorem disk_halts_valid_cascade : ∃ (s : Store Work) (host : Host) (e : StoreError)
    (desk' : Desk Work), Valid s.records ∧ markDone "c" ⟨s, host, []⟩ = .error e desk' ∧ e.IsIo ∧
    desk'.store.records.map (·.status) = [.done] ∧ ¬ Idle ⟨s, host, []⟩ desk' := by
  let c : Work := ⟨"c", .task, none, "child", "", .inProgress, none, none, .zero, .epoch, .epoch⟩
  let done : Work := { c with status := .done }
  let s : Store Work :=
    { index := .ofData Work ⟨["data"], "/data"⟩, records := [c], digest := none }
  -- a write asks six times
  let refusal (n : Nat) (_ : Call) (_ : Path) : Option String := if n < 6 then none else some "full"
  let host : Host := { disk := { refusal }, ids := fun _ => "x", times := fun _ => .epoch }
  have hruns : ((Store.done? (Store.updateWith "c" ({ status := some .done } : Patch) checkParent
      (⟨s, host, []⟩ : Desk Work))).bind fun a =>
      (Store.failed? (Store.update "c" closing a.2)).map fun b =>
        (a.1, [a.2.store.records, b.2.store.records], decide b.1.IsIo)) =
      some (done, [[done], [done]], true) := by
    decide +kernel
  simp only [Option.bind_eq_some_iff, Option.map_eq_some_iff, Prod.exists, Prod.mk.injEq,
    List.cons.injEq, and_true, decide_eq_true_eq, Store.done?_eq_some, Store.failed?_eq_some]
    at hruns
  obtain ⟨c₁, mid, hupdate, e, desk', hrefused, rfl, ⟨hrecords, hrecords'⟩, hio⟩ := hruns
  have hvalid : Valid s.records := List.forall_mem_singleton.2 (by decide)
  have hclosable : Closable mid.store done := ⟨rfl, by simp [HasUnclosed, hrecords, done, c]⟩
  have hrun := (update_of_updateWith rfl hupdate).trans (settle_of_refused hclosable hrefused)
  refine ⟨s, host, e, desk', hvalid, hrun, hio, hrecords' ▸ rfl, ?_⟩
  intro hidle
  have hsame : desk'.store.records = [c] := congrArg Store.records hidle.store
  exact absurd (hrecords'.symm.trans hsame) (by decide)

/-- A call that fails may have changed records, raised the revision and announced events. -/
theorem halted_call_leaves_trace : ¬ ∀ (data : Location) (host host' : Host) (s : Store Work)
    (id : String) (e : StoreError) (desk' : Desk Work), Store.open data host = .ok s host' →
    markDone id ⟨s, host', []⟩ = .error e desk' →
    desk'.store.records = s.records ∧ desk'.store.revision = s.revision ∧
      desk'.host.disk.content? s.index.file.path = host'.disk.content? s.index.file.path ∧
      desk'.commits = [] := by
  intro h
  obtain ⟨data, host, host', s, e, desk', hopen, hrun, hlt⟩ := exists_halted_call
  obtain ⟨-, hrevision, -⟩ := h data host host' s "c" e desk' hopen hrun
  omega

end WorkQueue.Work
