import WorkQueue.Notify.Notifier
import WorkQueue.Proofs.Keyed
import WorkQueue.Proofs.Notify.Payload

/-!
# What a notifier does to its subscriptions

An open sink keeps what it is offered, and each operation of a notifier is told by what is found
under an id afterwards. Work on one sink leaves the other subscriptions alone, and a removed
subscription is not registered any more.
-/

namespace WorkQueue

namespace Sink

def isOpen : Sink → Bool
  | mailbox m => m.isOpen
  | log => true

/-- An open sink keeps a notification unless it is full. -/
theorem deliver_of_isOpen (note : Notification) {sink : Sink} (hopen : sink.isOpen = true) :
    (sink.deliver note).1 = .lost ∨ (sink.deliver note).1 = .kept ∧
      ∀ m, (sink.deliver note).2 = .mailbox m →
        ∃ m₀, sink = .mailbox m₀ ∧ m.waiting = m₀.waiting ++ [note] := by
  cases sink with
  | log => exact Or.inr ⟨rfl, fun m hm => by cases hm⟩
  | mailbox m =>
    have hclosed : (!m.isOpen) = false := by simpa [isOpen] using hopen
    by_cases hroom : m.waiting.length < m.capacity
    · refine Or.inr ⟨by simp [deliver, Mailbox.deliver, hclosed, hroom], fun m' hm' => ?_⟩
      refine ⟨m, rfl, ?_⟩
      simp only [deliver, Mailbox.deliver, hclosed, hroom, if_true, mailbox.injEq] at hm'
      rw [← hm']
      rfl
    · exact Or.inl (by simp [deliver, Mailbox.deliver, hclosed, hroom])

theorem isOpen_of_deliver {note : Notification} {sink : Sink}
    (h : (sink.deliver note).2.isOpen = true) : sink.isOpen = true := by
  cases sink with
  | log => rfl
  | mailbox m =>
    simp only [deliver, Mailbox.deliver] at h
    split at h
    · exact h
    · split at h <;> exact h

end Sink

namespace Notifier

variable {R : Type}

/-- What every operation on subscriptions leaves alone. -/
structure Keeps (n n' : Notifier R) : Prop where
  queue : n'.queue = n.queue
  isAttached : n'.isAttached = n.isAttached
  ascending : n.subscriptions.Ascending → n'.subscriptions.Ascending

theorem Keeps.refl {n : Notifier R} : n.Keeps n := ⟨rfl, rfl, fun h => h⟩

theorem Keeps.trans {n n' n'' : Notifier R} (h : n.Keeps n') (h' : n'.Keeps n'') : n.Keeps n'' where
  queue := h'.queue.trans h.queue
  isAttached := h'.isAttached.trans h.isAttached
  ascending := fun ha => h'.ascending (h.ascending ha)

variable (n : Notifier R)

section OnSink

variable {α : Type} (id : String) (f : Sink → α × Sink)

theorem keeps_onSink : n.Keeps (n.onSink id f).2 := by
  unfold onSink
  split
  · exact ⟨rfl, rfl, fun h => h.insert _ _⟩
  · split
    · exact ⟨rfl, rfl, fun h => h⟩
    · exact .refl

theorem lookup_onSink (key : String) : (n.onSink id f).2.subscriptions.lookup key =
    if key = id then (n.subscriptions.lookup id).map fun s => { s with sink := (f s.sink).2 }
    else n.subscriptions.lookup key := by
  unfold onSink
  cases hs : n.subscriptions.lookup id with
  | some s => exact Keyed.lookup_insert ..
  | none =>
    have hnone : n.subscriptions.lookup key =
        if key = id then none else n.subscriptions.lookup key := by
      by_cases hk : key = id
      · rw [if_pos hk, hk, hs]
      · rw [if_neg hk]
    cases hf : n.former.lookup id with
    | some s => exact hnone
    | none => exact hnone

theorem onSink_fst {s : Subscription} (h : n.subscriptions.lookup id = some s) :
    (n.onSink id f).1 = some (f s.sink).1 := by
  unfold onSink
  rw [h]

end OnSink

/-- Every record has its JSON form, so no subscription is passed over. -/
theorem serve_eq {R : Type} [Record R] [LawfulRecord R] (n : Notifier R) (e : Event R)
    (id : String) : n.serve e id = n.onSink id (Sink.deliver (.ofEvent id e)) := by
  rw [serve, Notification.encode_eq]

theorem keeps_subscribe (id : String) (since : Nat) (sink : Sink) :
    n.Keeps (n.subscribe id since sink) := ⟨rfl, rfl, fun h => h.insert _ _⟩

theorem lookup_subscribe (id : String) (since : Nat) (sink : Sink) (key : String) :
    (n.subscribe id since sink).subscriptions.lookup key =
      if key = id then some ⟨sink, since⟩ else n.subscriptions.lookup key :=
  Keyed.lookup_insert ..

theorem keeps_unsubscribe (id : String) : n.Keeps (n.unsubscribe id).2 := by
  unfold unsubscribe
  split
  · exact .refl
  · exact ⟨rfl, rfl, fun h => h.erase id⟩

theorem lookup_unsubscribe (id key : String) : (n.unsubscribe id).2.subscriptions.lookup key =
    if key = id then none else n.subscriptions.lookup key := by
  unfold unsubscribe
  cases hs : n.subscriptions.lookup id with
  | some s => exact Keyed.lookup_erase ..
  | none =>
    by_cases hk : key = id
    · rw [if_pos hk, hk]
      exact hs
    · rw [if_neg hk]

theorem keeps_expel (ids : List String) : n.Keeps (n.expel ids) := by
  induction ids generalizing n with
  | nil => exact .refl
  | cons id ids ih => exact (n.keeps_unsubscribe id).trans (ih _)

theorem lookup_expel (ids : List String) (key : String) :
    (n.expel ids).subscriptions.lookup key =
      if key ∈ ids then none else n.subscriptions.lookup key := by
  induction ids generalizing n with
  | nil => exact (if_neg List.not_mem_nil).symm
  | cons id ids ih =>
    refine (ih (n.unsubscribe id).2).trans ?_
    rw [lookup_unsubscribe]
    by_cases hkey : key = id
    · simp [hkey]
    · simp [hkey]

variable {n}

theorem mem_targets (h : n.subscriptions.Ascending) {e : Event R} {id : String} :
    id ∈ n.targets e ↔ ∃ s, n.subscriptions.lookup id = some s ∧ s.since < e.revision := by
  simp only [targets, List.mem_map, List.mem_filter, decide_eq_true_eq, Prod.exists]
  constructor
  · rintro ⟨id, s, ⟨hmem, hlt⟩, rfl⟩
    exact ⟨s, Keyed.lookup_eq_some_of_mem h.nodup hmem, hlt⟩
  · rintro ⟨s, hs, hlt⟩
    exact ⟨id, s, ⟨Keyed.mem_of_lookup_eq_some hs, hlt⟩, rfl⟩

theorem nodup_targets (h : n.subscriptions.Ascending) (e : Event R) : (n.targets e).Nodup :=
  (h.filter _).nodup

end Notifier

end WorkQueue
