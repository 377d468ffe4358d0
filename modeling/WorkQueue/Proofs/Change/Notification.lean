import WorkQueue.Change.Notification
import WorkQueue.Proofs.Record.Laws

/-!
# Notifications lose nothing

A notification is an object of the fields that its operation calls for. It is read back from that
object, and so are the record of a creation or an update, with the times that its form gives, and
the id of a deletion: an absent field comes back as absent, because no record has null as its form.
-/

namespace WorkQueue

open Json

namespace Json

theorem ofFields_presentFields {fs : List (String × Option Json)}
    (h : (fs.map Prod.fst).Pairwise (· < ·)) :
    ofFields (presentFields fs) = object (presentFields fs) := by
  have hkeys := h.sublist (presentFields_keys_sublist fs)
  rw [ofFields, Keyed.ofList_of_ascending hkeys]

end Json

theorem Operation.ofJson_toJson (o : Operation) : ofJson o.toJson = .ok o := by
  cases o <;> rfl

namespace Notification

variable {n : Notification}

/-- The fields in the order of declaration; one that does not belong to the operation is absent. -/
def entries (n : Notification) : List (String × Option Json) :=
  [("id", some (text n.id)), ("operation", some n.operation.toJson), ("record", n.record),
   ("recordId", n.recordId.map text)]

/-- The fields are declared in ascending order, so the object holds them as they stand. -/
theorem toJson_eq (n : Notification) : n.toJson = object (presentFields n.entries) := by
  have hkeys : fieldNames.Pairwise (· < ·) := by decide +kernel
  exact ofFields_presentFields hkeys

/-- Only a record that is null would be taken for one that is absent. -/
theorem ofJson_toJson (h : ∀ j ∈ n.record, j ≠ null) : ofJson n.toJson = .ok n := by
  have lookup := Row.lookup_kept n.entries (by simp [entries])
  have hread : read (.kept n.entries) = .value n := by
    rw [read, Row.required_asText (lookup "id"),
      Row.required_of_lookup (lookup "operation") (Operation.ofJson_toJson _),
      Row.optional_asAny (o := n.record) (lookup "record") h,
      Row.optional_asText (o := n.recordId) (lookup "recordId")]
    rfl
  exact asStruct_kept hread

theorem fits_toJson {k : Nat} (h : ∀ j ∈ n.record, Fits k j) : Fits (k + 1) n.toJson := by
  refine fits_presentFields ?_
  have hid : ∀ j ∈ n.recordId.map text, Fits k j := by
    intro j hj
    obtain ⟨key, -, rfl⟩ := Option.map_eq_some_iff.1 hj
    exact .text k key
  simp only [List.forall_mem_cons, Option.mem_some_iff, forall_eq']
  exact ⟨.text k _, .text k _, h, hid, by simp⟩

variable {R : Type} [Record R] [LawfulRecord R]

theorem encode_eq (subscription : String) (e : Event R) :
    encode subscription e = .ok (ofEvent subscription e) := by
  obtain ⟨c, revision⟩ := e
  cases c with
  | deleted r => rfl
  | created r | updated previous r =>
    simp only [encode, LawfulRecord.encode_eq]
    rfl

/-- The record of an event is an object that fits into any text, and never null. -/
theorem record_ofEvent (subscription : String) (e : Event R) :
    ∀ j ∈ (ofEvent subscription e).record, Fits 1 j ∧ j ≠ null := by
  intro j h
  obtain ⟨c, revision⟩ := e
  cases c with
  | deleted r => cases h
  | created r | updated previous r =>
    obtain rfl := Option.some.inj h
    exact ⟨LawfulRecord.fits r, nofun⟩

/-- Every event has a notification for every subscription. Its object has exactly the keys that
belong to the operation. The notification is read back from the object, and the object from its
text. The record that is read from the notification has the times of the instants that the event's
record is written with; it is the event's record just where that has such times. A deletion has the
record's id. -/
theorem payload_loses_nothing (e : Entity) (event : Event e.Rec) (subscription : String) :
    ∃ n, encode subscription event = .ok n ∧ ofJson n.toJson = .ok n ∧
      ofBytes? (n.toJson.indented ++ "\n").toUTF8 = some n.toJson ∧
      match event.change with
      | .created r | .updated _ r => ∃ j, Record.decode j = .ok (e.settled r) ∧
        (e.settled r = r ↔ Record.Regular r) ∧
        n = ⟨subscription, event.change.operation, some j, none⟩ ∧
        n.toJson = object [("id", text subscription),
          ("operation", event.change.operation.toJson), ("record", j)]
      | .deleted r => n = ⟨subscription, .delete, none, some (Record.id r)⟩ ∧
        n.toJson = object [("id", text subscription), ("operation", Operation.delete.toJson),
          ("recordId", text (Record.id r))] := by
  have hrecord := record_ofEvent subscription event
  have hread := ofJson_toJson fun j hj => (hrecord j hj).2
  have hfits := (fits_toJson fun j hj => (hrecord j hj).1).mono (n := Reader.openLimit) (by decide)
  refine ⟨ofEvent subscription event, encode_eq .., hread, ofBytes?_indented hfits, ?_⟩
  obtain ⟨c, revision⟩ := event
  cases c with
  | created r | updated previous r =>
    exact ⟨Record.toJson r, e.decode_toJson r, Entity.settled_eq_self_iff, rfl, toJson_eq _⟩
  | deleted r => exact ⟨rfl, toJson_eq _⟩

/-- The record of a notification is the event's record no more where its time of creation is a leap
second that does not end its minute: it was created a second later then. -/
theorem payload_moves_early_leap_second : ∃ (r later : Role) (n : Notification) (j : Json),
    r.createdAt.text = "2024-01-01T00:00:59Z" ∧ encode "s" ⟨.created r, 1⟩ = .ok n ∧
    n.record = some j ∧ Record.decode j = .ok later ∧
    r.createdAt.second = 58 ∧ later.createdAt.second = 59 ∧ later ≠ r := by
  let early : Time.Stamp :=
    ⟨⟨2024, 1, 1, by decide, by decide, by decide⟩, 58, 1000000000, by decide, by decide⟩
  let r : Role := ⟨"r", "Dev", "", early, .epoch⟩
  refine ⟨r, r.settled, ofEvent "s" ⟨.created r, 1⟩, Record.toJson r, by decide +kernel, rfl, rfl,
    r.decode_toJson, rfl, by decide, by decide⟩

end Notification

end WorkQueue
