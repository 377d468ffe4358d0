import WorkQueue.Proofs.Record.Patching
import WorkQueue.Proofs.Store.Identity

/-!
# Updates touch only what they name

An update puts what the patch makes of a record in the place of that record and announces the two
values. Where ids are distinct no other record has that id, so no other record is touched. The same
patch is accepted again unless it asks for a status, and only the time of the update differs then.
-/

namespace WorkQueue.Store

open Record (Distinct find?)

/-- One record was replaced where it stands, and the old and the new value were announced. -/
structure Replaced {R : Type} [Record R] (desk : Desk R) (previous next : R) (desk' : Desk R) :
    Prop where
  found : find? desk.store.records (Record.id next) = some previous
  records : desk'.store.records =
    desk.store.records.map fun r => if Record.id r = Record.id next then next else r
  commits : desk'.commits = desk.commits ++
    [⟨[⟨.updated (some previous) next, desk'.store.revision⟩], desk'.store, desk'.host⟩]

section

variable {R : Type} [Record R] {desk desk' : Desk R} {previous next : R}

theorem Edited.replaced (h : Edited desk (.updated (some previous) next) desk')
    (hd : Distinct desk.store.records) : Replaced desk previous next desk' := by
  have hfound : find? desk.store.records (Record.id next) = some previous := (h.edit.legal hd).2
  have hid := Record.id_of_find? hfound
  obtain ⟨content, -, -, hstore⟩ := h.committed.written
  have hrevision : desk'.store.revision = desk.store.revision + 1 := congrArg Store.revision hstore
  exact ⟨hfound, hid ▸ h.edit.eq_map hd, hrevision ▸ h.committed.commits⟩

/-- What an accepted patch makes of a record replaces it, at the time of the write. -/
theorem leads_update_edited [LawfulRecord R] (id : String) (p : Record.Patch R) :
    Leads (update id p) desk
      (fun next desk' => ∃ previous patched, desk.store.get? id = some previous ∧
        Record.patch p previous = .ok patched ∧ Record.validate patched = .ok () ∧
        next = Record.touch desk.host.nextTime patched ∧
        Edited desk (.updated (some previous) next) desk')
      (fun e desk' => Idle desk desk' ∧
        (e.IsPersistence ∨ UpdateRefused desk.store id p (fun _ _ => .ok ()) e)) := by
  refine (leads_updateWith_patched id p _).imp fun next desk₁ h₁ => ?_
  obtain ⟨i, previous, patched, h, rfl, hcommitted⟩ := h₁
  exact ⟨previous, patched, h.get?_eq, h.patch, h.valid, rfl, .of_edit (h.edit _) hcommitted⟩

end

variable {e : Entity} {desk desk' : Desk e.Rec} {id : String} {p : Record.Patch e.Rec}
  {now : Time.Stamp} {previous next : e.Rec}

/-- A patch that has done its work is refused by nobody, and makes the same of the record. -/
theorem leads_update_again (h : e.Amended p now previous next) (hs : e.asksStatus p = false)
    (hfound : desk.store.get? id = some next) (hvalid : Record.validate next = .ok ()) :
    Leads (update id p) desk
      (fun again desk' => again = Record.touch desk.host.nextTime next ∧
        Edited desk (.updated (some next) again) desk')
      (fun err desk' => err.IsPersistence ∧ Idle desk desk') := by
  obtain ⟨patched, hpatch, hvalidates, htouch⟩ := h.patch_again hs
  refine (leads_update_edited id p).mono (fun again desk₁ h₁ => ?_) fun err desk₁ h₁ => ?_
  · obtain ⟨previous', patched', hfound', hpatch', -, rfl, hedited⟩ := h₁
    obtain rfl := Option.some.inj (hfound.symm.trans hfound')
    obtain rfl := Except.ok.inj (hpatch.symm.trans hpatch')
    rw [htouch] at hedited ⊢
    exact ⟨rfl, hedited⟩
  · obtain ⟨hidle, hpersistence | hrefused⟩ := h₁
    · exact ⟨hpersistence, hidle⟩
    · rcases hrefused.veto_or_invalid hfound hpatch with hveto | ⟨v, -, hv⟩
      · cases hveto
      · rw [hvalidates, hvalid] at hv
        cases hv

/-- An accepted update leaves the record where it stands with every field that the patch does not
set, gives it the values that the patch sets and the time of the write, and announces the old and
the new value; no other record is touched. The same patch is accepted again where it sets no status,
unless the disk refuses the write, and then differs in nothing but the time. -/
theorem update_touches_what_it_names (e : Entity) {id : String} {p : Record.Patch e.Rec}
    {desk desk' : Desk e.Rec} {next : e.Rec} (hd : Distinct desk.store.records)
    (h : update id p desk = .ok next desk') :
    Record.id next = id ∧ ∃ previous, Replaced desk previous next desk' ∧
      (∀ r, e.Amended p desk.host.nextTime previous r ↔ r = next) ∧
      (e.asksStatus p = false → Leads (update id p) desk'
        (fun again desk'' => again = Record.touch desk'.host.nextTime next ∧
          Replaced desk' next again desk'')
        (fun err desk'' => err.IsPersistence ∧ Idle desk' desk'')) := by
  obtain ⟨previous, patched, hfound, hpatch, hvalid, rfl, hedited⟩ :=
    (leads_update_edited id p).of_ok h
  have hamended (r : e.Rec) : e.Amended p desk.host.nextTime previous r ↔
      r = Record.touch desk.host.nextTime patched := Entity.amended_iff_eq hpatch
  have hreplaced := hedited.replaced hd
  have hid : Record.id (Record.touch desk.host.nextTime patched) = id := by
    rw [← Record.id_of_find? hreplaced.found, Record.id_of_find? hfound]
  refine ⟨hid, previous, hreplaced, hamended, fun hs => ?_⟩
  have hd' := hedited.edit.distinct hd
  have hfound' := hedited.edit.find?_id hd
  have hagain := (hamended _).2 rfl
  refine (leads_update_again hagain hs (hid ▸ hfound') ?_).imp fun again desk₁ h₁ => ?_
  · rw [Entity.validate_touch, hvalid]
  · exact ⟨h₁.1, h₁.2.replaced hd'⟩

/-- A sub-item loses its parent and gets a new title, and the same again. -/
theorem update_touches_one_of_two : ∃ (p : Work.Patch) (desk desk' desk'' : Desk Work)
    (x y next again : Work), desk.store.records = [x, y] ∧ y.parentId = some x.id ∧
    update y.id p desk = .ok next desk' ∧ next.parentId = none ∧ next.title = "after" ∧
    desk'.store.records = [x, next] ∧ update y.id p desk' = .ok again desk'' ∧
    desk''.store.records = [x, again] ∧ again.updatedAt ≠ next.updatedAt ∧
    { again with updatedAt := next.updatedAt } = next := by
  let one : Time.Stamp := ⟨Time.Stamp.epoch.date, 1, 0, by decide, by decide⟩
  let two : Time.Stamp := ⟨Time.Stamp.epoch.date, 2, 0, by decide, by decide⟩
  let p : Work.Patch := { parentId := some "", title := some "after" }
  let x : Work := ⟨"x", .task, none, "first", "", .open, none, none, .zero, .epoch, .epoch⟩
  let y : Work := { x with id := "y", parentId := some "x", title := "before" }
  let next : Work := { y with parentId := none, title := "after", updatedAt := one }
  let again : Work := { next with updatedAt := two }
  let host : Host := { ids := fun _ => "z", times := fun n =>
    if n = 0 then ⟨one, by decide⟩ else ⟨two, by decide⟩ }
  let store : Store Work :=
    { index := Index.ofData Work ⟨["data"], "/data"⟩, records := [x, y], digest := none }
  let desk : Desk Work := ⟨store, host, []⟩
  have hrun : ((done? (update "y" p desk)).bind fun a =>
      (done? (update "y" p a.2)).map fun b => (a.1, b.1)) = some (next, again) := by
    decide +kernel
  simp only [Option.bind_eq_some_iff, Option.map_eq_some_iff, Prod.exists, Prod.mk.injEq,
    done?_eq_some] at hrun
  obtain ⟨_, desk', h, _, desk'', h', rfl, rfl⟩ := hrun
  have hd : Distinct desk.store.records := by decide
  obtain ⟨hid, previous, hreplaced, hamended, hagain⟩ := update_touches_what_it_names .work hd h
  obtain ⟨-, hreplaced'⟩ := (hagain rfl).of_ok h'
  have hrecords : desk'.store.records = [x, next] := hreplaced.records
  have hrecords' : desk''.store.records = [x, again] := by
    rw [hreplaced'.records, hrecords]
    rfl
  exact ⟨p, desk, desk', desk'', x, y, next, again, rfl, rfl, h, rfl, rfl, hrecords, h', hrecords',
    by decide, rfl⟩

end WorkQueue.Store
