import WorkQueue.Proofs.Change.Notification
import WorkQueue.Proofs.Change.Replay

/-!
# What a subscriber makes of a notification

A subscriber that keeps the records under their ids plays each notification on its map: it reads the
record of a creation or an update from its JSON form, and takes a deleted id out. Whoever was told
of changes that are legal gets to where the changes lead.
-/

namespace WorkQueue.Notification

variable {R : Type} [Record R]

/-- The map after a notification: the record of a creation has to be absent before, that of an
update or a deletion present. -/
def play (m : String → Option R) (n : Notification) : Option (String → Option R) :=
  match n.operation, n.record.map (Record.decode (R := R)), n.recordId with
  | .create, some (.ok r), _ =>
    if (m (Record.id r)).isSome then none else some (Function.update m (Record.id r) (some r))
  | .update, some (.ok r), _ =>
    if (m (Record.id r)).isSome then some (Function.update m (Record.id r) (some r)) else none
  | .delete, _, some key => if (m key).isSome then some (Function.update m key none) else none
  | _, _, _ => none

def replay (m : String → Option R) (ns : List Notification) : Option (String → Option R) :=
  ns.foldlM play m

variable [LawfulRecord R]

theorem play_ofEvent {m m' : String → Option R} {e : Event R} (h : e.change.play m = some m')
    (hr : ∀ r ∈ e.change.value?, Record.Regular r) (subscription : String) :
    (ofEvent subscription e).play m = some m' := by
  obtain ⟨c, revision⟩ := e
  have hlegal : c.Legal m := by
    by_contra hc
    simp [Change.play, hc] at h
  rw [Change.play, if_pos hlegal] at h
  rw [← h]
  cases c with
  | created r =>
    have hnone : m (Record.id r) = none := hlegal
    simp [play, ofEvent, LawfulRecord.decode_toJson (hr r rfl), hnone, Change.id, Change.record,
      Change.value?]
  | updated previous r =>
    have hsome : (m (Record.id r)).isSome = true := hlegal.2 ▸ hlegal.1
    simp [play, ofEvent, LawfulRecord.decode_toJson (hr r rfl), hsome, Change.id, Change.record,
      Change.value?]
  | deleted r =>
    have hsome : m (Record.id r) = some r := hlegal
    simp [play, ofEvent, hsome, Change.id, Change.record, Change.value?]

theorem replay_ofEvent {m m' : String → Option R} {events : List (Event R)}
    (h : Change.replay m (events.map Event.change) = some m')
    (hr : ∀ e ∈ events, ∀ r ∈ e.change.value?, Record.Regular r) (subscription : String) :
    replay m (events.map (ofEvent subscription)) = some m' := by
  induction events generalizing m with
  | nil => exact h
  | cons e events ih =>
    rw [List.map_cons, Change.replay, List.foldlM_cons] at h
    obtain ⟨m₁, hplay, hrest⟩ := Option.bind_eq_some_iff.1 h
    obtain ⟨hfirst, hlater⟩ := List.forall_mem_cons.1 hr
    rw [List.map_cons, replay, List.foldlM_cons, play_ofEvent hplay hfirst]
    exact ih hrest hlater

omit [LawfulRecord R] in
/-- What was played so far was legal. -/
theorem isSome_replay_of_append {m m' : String → Option R} {ns ns' : List Notification}
    (h : replay m (ns ++ ns') = some m') : (replay m ns).isSome := by
  rw [replay, List.foldlM_append] at h
  obtain ⟨m₁, hns, -⟩ := Option.bind_eq_some_iff.1 h
  exact Option.isSome_of_eq_some hns

end WorkQueue.Notification
