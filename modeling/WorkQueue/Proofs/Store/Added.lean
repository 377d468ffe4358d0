import WorkQueue.Proofs.Change.Replay
import WorkQueue.Proofs.Store.Served

/-!
# The record that was made last

A record is made behind the others. As long as it is the last one, an update of it changes nothing
else, and deleting it gives the records back that were there before. Whether the disk takes a write
is asked each time anew: that the record could be made does not mean that it can be deleted. A
delete that fails leaves it there, and only the system makes it fail.
-/

namespace WorkQueue.Store

variable {R : Type} [Record R] {desk desk' : Desk R}

/-- The store has one record more, behind the others. -/
structure Added (s : Store R) (r : R) (desk : Desk R) : Prop where
  fresh : s.get? (Record.id r) = none
  records : desk.store.records = s.records ++ [r]

omit [Record R] in
theorem getElem?_append_singleton {xs : List R} {i : Nat} {x y : R} (h : (xs ++ [y])[i]? = some x)
    (hx : x ∉ xs) : i = xs.length ∧ x = y := by
  rcases Nat.lt_or_ge i xs.length with hlt | hge
  · rw [List.getElem?_append_left hlt] at h
    exact absurd (List.mem_of_getElem? h) hx
  · rw [List.getElem?_append_right hge, List.getElem?_singleton] at h
    split at h
    · next hi => exact ⟨by omega, (Option.some.inj h).symm⟩
    · cases h

theorem Added.last {s : Store R} {r x : R} {i : Nat} (h : Added s r desk)
    (found : desk.store.records[i]? = some x) (hid : Record.id x = Record.id r) :
    i = s.records.length ∧ x = r := by
  rw [h.records] at found
  apply getElem?_append_singleton found
  intro hx
  exact Record.find?_eq_none.1 h.fresh x hx hid

theorem Added.get?_eq {s : Store R} {r : R} (h : Added s r desk) :
    desk.store.get? (Record.id r) = some r := by
  rw [get?, h.records, Record.find?, List.find?_append, ← Record.find?]
  have hfresh : Record.find? s.records (Record.id r) = none := h.fresh
  rw [hfresh]
  simp

theorem Added.idle {s : Store R} {r : R} (h : Added s r desk) (hidle : Idle desk desk') :
    Added s r desk' :=
  ⟨h.fresh, hidle.store ▸ h.records⟩

variable [LawfulRecord R]

theorem leads_create_added (id : String) (draft : Record.Draft R) :
    Leads (create (R := R) id draft) desk
      (fun r desk' => (∃ t : Time.Instant, r = Record.ofDraft id t.toStamp draft) ∧
        Added desk.store r desk')
      (fun _ desk' => Idle desk desk') := by
  apply (leads_createWith id draft _).imp
  rintro r desk' ⟨fresh, ⟨t, hr⟩, -, hcommitted⟩
  obtain rfl := Except.ok.inj hr
  rw [← LawfulRecord.id_ofDraft id t.toStamp draft] at fresh
  exact ⟨⟨t, rfl⟩, fresh, hcommitted.records_eq⟩

theorem leads_updateWith_added {s : Store R} {r : R} (patch : Record.Patch R)
    (veto : List R → R → Except StoreError Unit) (h : Added s r desk) :
    Leads (updateWith (Record.id r) patch veto) desk
      (fun r' desk' => (∃ (patched : R) (t : Time.Instant), Record.patch patch r = .ok patched ∧
        r' = Record.touch t.toStamp patched) ∧ Added s r' desk')
      (fun _ desk' => Added s r desk') := by
  apply (leads_updateWith _ patch veto).mono
  · rintro r' desk' ⟨i, previous, found, hid, -, ⟨patched, t, hpatch, -, -, rfl⟩, hcommitted⟩
    obtain ⟨rfl, rfl⟩ := h.last found hid
    refine ⟨⟨patched, t, hpatch, rfl⟩, ?_, ?_⟩
    · rw [LawfulRecord.id_touch_patch hpatch]
      exact h.fresh
    · rw [hcommitted.records_eq, h.records]
      simp
  · rintro _ desk' ⟨hidle, -⟩
    exact h.idle hidle

/-- Deleting a record that is there fails only where the system refuses to write. -/
theorem leads_delete_of_found (id : String) (hfound : desk.store.get? id ≠ none) :
    Leads (delete (R := R) id) desk (fun _ _ => True) (fun e _ => e.IsIo) := by
  rw [delete, leads_get_bind, leads_bind]
  apply (leads_locate _ id).mono
  · rintro ⟨i, removed⟩ desk₁ -
    rw [leads_bind]
    apply (fails_commit _ _ _ desk₁).imp
    intro _ _ _
    exact (leads_pure _).2 trivial
  · rintro _ _ ⟨-, -, hnone⟩
    exact absurd hnone hfound

theorem leads_delete_added {s : Store R} {r : R} (h : Added s r desk) :
    Leads (delete (R := R) (Record.id r)) desk
      (fun _ desk' => desk'.store.records = s.records)
      (fun e desk' => e.IsIo ∧ Idle desk desk') := by
  have hfound : desk.store.get? (Record.id r) ≠ none := by
    rw [h.get?_eq]
    exact Option.some_ne_none r
  apply ((leads_delete _).and (leads_delete_of_found _ hfound)).mono
  · rintro removed desk' ⟨⟨i, found, hid, -, hcommitted⟩, -⟩
    obtain ⟨rfl, rfl⟩ := h.last found hid
    rw [hcommitted.records_eq, h.records, List.eraseIdx_append_of_length_le (Nat.le_refl _)]
    simp
  · rintro _ _ ⟨hidle, hio⟩
    exact ⟨hio, hidle⟩

end WorkQueue.Store
