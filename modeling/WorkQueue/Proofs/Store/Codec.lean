import WorkQueue.Proofs.Record.Laws
import WorkQueue.Proofs.Store.Index

/-!
# What an index holds

Records that obey the laws always have a written form, and reading that form gives them in the same
order, each as its kept form gives it. Records whose times are those of instants come back as they
were, and whatever is read has such times.
-/

namespace WorkQueue.Index

open Json

variable {R : Type} [Record R]

/-- The content that holds the records. -/
def written (records : List R) : ByteArray :=
  ((document (R := R) (records.map Record.toJson)).indented ++ "\n").toUTF8

theorem mapM_ok {α β ε : Type} {f : α → Except ε β} {g : α → β} (xs : List α)
    (h : ∀ x ∈ xs, f x = .ok (g x)) : xs.mapM f = .ok (xs.map g) := by
  induction xs with
  | nil => rfl
  | cons x xs ih =>
    rw [List.mapM_cons, h x List.mem_cons_self, ih fun y hy => h y (List.mem_cons_of_mem x hy)]
    rfl

theorem exists_of_mapM_ok {α β ε : Type} {f : α → Except ε β} {xs : List α} {ys : List β}
    (h : xs.mapM f = .ok ys) : ∀ y ∈ ys, ∃ x ∈ xs, f x = .ok y := by
  induction xs generalizing ys with
  | nil =>
    cases h
    exact List.forall_mem_nil _
  | cons x xs ih =>
    rw [List.mapM_cons] at h
    cases hx : f x with
    | error e =>
      rw [hx] at h
      cases h
    | ok y =>
      rw [hx] at h
      cases hxs : xs.mapM f with
      | error e =>
        simp only [bind, Except.bind, hxs] at h
        cases h
      | ok zs =>
        simp only [bind, Except.bind, hxs] at h
        cases h
        refine List.forall_mem_cons.2 ⟨⟨x, List.mem_cons_self, hx⟩, fun z hz => ?_⟩
        obtain ⟨x', hx', hz'⟩ := ih hxs z hz
        exact ⟨x', List.mem_cons_of_mem x hx', hz'⟩

theorem document_eq (items : List Json) :
    document (R := R) items = object [(Record.collection R, list items)] := rfl

/-- The written form starts with a brace. -/
theorem written_not_blank (records : List R) :
    ¬ ((written records).data.toList.all isAsciiBlank = true) := by
  intro h
  rw [List.all_eq_true] at h
  have hbrace : (0x7b : UInt8) ∈ (written records).data.toList := by
    rw [written, document_eq, String.toUTF8_eq_toByteArray, String.toByteArray_append,
      Json.indented, String.toByteArray_ofList, indentedChars, List.utf8Encode_cons]
    simp only [ByteArray.toList_data_append, List.mem_append]
    exact Or.inl (Or.inl (by decide))
  exact absurd (h _ hbrace) (by decide)

variable [LawfulRecord R]

theorem encode_eq_written (records : List R) : encode records = .ok (written records) := by
  have h := mapM_ok (g := Record.toJson) records fun r _ => LawfulRecord.encode_eq r
  rw [encode, h]
  rfl

theorem fits_document (records : List R) :
    Fits Reader.openLimit (document (R := R) (records.map Record.toJson)) := by
  have hitems : Fits 2 (list (records.map Record.toJson)) := by
    refine .list 1 _ fun j hj => ?_
    obtain ⟨r, -, rfl⟩ := List.mem_map.1 hj
    exact LawfulRecord.fits r
  have hdocument : Fits 3 (document (R := R) (records.map Record.toJson)) :=
    fits_ofFields (by simpa using hitems)
  exact hdocument.mono (by decide)

theorem decode_written_of {kept : R → R} {records : List R}
    (h : ∀ r ∈ records, Record.decode (Record.toJson r) = .ok (kept r)) :
    decode (written records) = .ok (records.map kept) := by
  have hitems : (records.map Record.toJson).mapM (Record.decode (R := R)) =
      .ok (records.map kept) := by
    rw [List.mapM_map]
    exact mapM_ok (f := Record.decode ∘ Record.toJson) records h
  rw [decode, if_neg (written_not_blank records), written,
    ofBytes?_indented (fits_document records), document_eq]
  change ofDocument _ = _
  rw [ofDocument, Keyed.lookup_cons_eq, if_pos rfl]
  exact hitems

/-- Records with the times of instants are read back from their written form. -/
theorem decode_written {records : List R} (h : Record.AllRegular records) :
    decode (written records) = .ok records := by
  have hkept : ∀ r ∈ records, Record.decode (Record.toJson r) = .ok (id r) :=
    fun r hr => LawfulRecord.decode_toJson (h r hr)
  rw [decode_written_of hkept, List.map_id]

theorem exists_decode_written (records : List R) :
    ∃ kept : List R, decode (written records) = .ok kept := by
  choose kept hkept using LawfulRecord.exists_decode_toJson (R := R)
  exact ⟨_, decode_written_of fun r _ => hkept r⟩

theorem decode_written_settled {e : Entity} (records : List e.Rec) :
    decode (written records) = .ok (records.map e.settled) :=
  decode_written_of fun r _ => e.decode_toJson r

theorem written_map_settled {e : Entity} (records : List e.Rec) :
    written (records.map e.settled) = written records := by
  have hjson : (records.map e.settled).map Record.toJson = records.map Record.toJson := by
    rw [List.map_map]
    exact List.map_congr_left fun r _ => e.toJson_settled r
  rw [written, written, hjson]

theorem regular_of_decode {content : ByteArray} {records : List R}
    (h : decode content = .ok records) : Record.AllRegular records := by
  unfold decode at h
  split at h
  · cases h
    exact List.forall_mem_nil _
  · split at h
    · unfold ofDocument at h
      split at h
      · split at h
        next j _ =>
          cases j with
          | list items =>
            intro r hr
            obtain ⟨j, -, hj⟩ := exists_of_mapM_ok h r hr
            exact LawfulRecord.regular_of_decode hj
          | _ => cases h
        next =>
          cases h
          exact List.forall_mem_nil _
      · cases h
    · cases h

theorem Holds.allRegular {i : Index} {d : Disk} {loaded : Loaded R} (h : i.Holds d loaded) :
    Record.AllRegular loaded.records := by
  unfold Holds at h
  split at h
  · rw [h.1]
    exact List.forall_mem_nil _
  · exact regular_of_decode h.1

end WorkQueue.Index
