import WorkQueue.Proofs.Notify.Feed

/-!
# What is on its way to a subscriber

Each committed event is in one place at a time: with a writer that waits for its turn, in the turn
that is open, in the queue, with the dispatcher, or at the sink. Read from the last place to the
first, what a subscription has got and what is still to come are exactly the events since its
snapshot, in the order of the commits. This module says so and follows the events into the queue.
-/

namespace WorkQueue.Feed

open Store

variable {R : Type} [Record R]

/-- The events that have not reached the sink of a subscription, in the order of their commits. -/
def coming (f : Feed R) (n : Notifier R) (id : String) : List (Event R) :=
  f.round.elim [] (fun r => r.pending id) ++ n.queue ++ f.turnstile.ahead f.committed

/-- What a subscription that missed nothing has got, and what it has still to get. -/
structure Follows (committed coming : List (Event R)) (id : String) (s : Subscription)
    (w : Watch R) : Prop where
  stream : (news w.snapshot.revision committed).map (Notification.ofEvent id) =
    w.heard ++ (news w.snapshot.revision coming).map (Notification.ofEvent id)
  mailbox : ∀ m, s.sink = .mailbox m → w.heard = w.taken ++ m.waiting

structure Listening (f : Feed R) (n : Notifier R) (latest : Nat) : Prop where
  attached : n.isAttached = true
  ascending : n.subscriptions.Ascending
  watched : ∀ id s, n.subscriptions.lookup id = some s →
    ∃ w, f.watches id = some w ∧ s.since = w.snapshot.revision
  queue : ∀ e ∈ n.queue, e.revision ≤ latest
  round : ∀ r, f.round = some r → r.event.revision ≤ latest
  targets : ∀ r ids, f.round = some r → r.left = some ids → ids.Nodup ∧
    ∀ id ∈ ids, ∃ w, f.watches id = some w ∧ w.snapshot.revision < r.event.revision
  follows : ∀ id s w, n.subscriptions.lookup id = some s → s.sink.isOpen = true →
    f.watches id = some w → w.missed = false → Follows f.committed (f.coming n id) id s w

variable {f : Feed R} {n : Notifier R} {latest : Nat} {committed coming coming' : List (Event R)}
  {id : String} {s : Subscription} {w : Watch R}

theorem Follows.of_news_eq (h : Follows committed coming id s w)
    (he : news w.snapshot.revision coming' = news w.snapshot.revision coming) :
    Follows committed coming' id s w :=
  ⟨he ▸ h.stream, h.mailbox⟩

theorem Follows.append (h : Follows committed coming id s w) (events : List (Event R)) :
    Follows (committed ++ events) (coming ++ events) id s w := by
  refine ⟨?_, h.mailbox⟩
  rw [news_append, news_append, List.map_append, List.map_append, h.stream, List.append_assoc]

theorem Listening.coming_le (h : f.Listening n latest)
    (ho : f.turnstile.Ordered f.committed latest) (id : String) :
    ∀ e ∈ f.coming n id, e.revision ≤ latest := by
  intro e he
  rcases List.mem_append.1 he with he | he
  · rcases List.mem_append.1 he with he | he
    · cases hr : f.round with
      | none => simp [hr] at he
      | some r =>
        have hevent : e = r.event := by
          simp only [hr, Option.elim_some, Round.pending] at he
          split at he
          · exact List.mem_singleton.1 he
          · split at he
            · exact List.mem_singleton.1 he
            · exact absurd he List.not_mem_nil
        exact hevent ▸ h.round r hr
    · exact h.queue e he
  · exact ho.ahead_le e he

/-! ### Commits and turns -/

/-- A step that none of those on the way of an event has a part in. -/
theorem Listening.elsewhere (h : f.Listening n latest) (world : World R) :
    Listening { f with world } n latest :=
  ⟨h.attached, h.ascending, h.watched, h.queue, h.round, h.targets, h.follows⟩

theorem Listening.commit (h : f.Listening n latest)
    (ho : f.turnstile.Ordered f.committed latest) {c : Commit R}
    (hstamped : ∀ e ∈ c.events, e.revision = latest + 1) (world : World R) :
    Listening { f with
      world
      committed := f.committed ++ c.events
      turnstile := f.turnstile.join [c] } n (latest + 1) where
  attached := h.attached
  ascending := h.ascending
  watched := h.watched
  queue e he := Nat.le_succ_of_le (h.queue e he)
  round r hr := Nat.le_succ_of_le (h.round r hr)
  targets := h.targets
  follows id s w hs hopen hw hm := by
    have hfollows := (h.follows id s w hs hopen hw hm).append c.events
    have hahead := ho.ahead_join hstamped
    refine hfollows.of_news_eq (congrArg _ ?_)
    simp only [coming, hahead, List.append_assoc]

/-- A turn opens or ends. -/
theorem Listening.turn (h : f.Listening n latest) {t : Turnstile R}
    (hahead : t.ahead f.committed = f.turnstile.ahead f.committed) :
    Listening { f with turnstile := t } n latest where
  attached := h.attached
  ascending := h.ascending
  watched := h.watched
  queue := h.queue
  round := h.round
  targets := h.targets
  follows id s w hs hopen hw hm := by
    refine (h.follows id s w hs hopen hw hm).of_news_eq (congrArg _ ?_)
    simp only [coming, hahead]

/-- The listener puts an event into the queue, or finds it full. -/
theorem Listening.hear (h : f.Listening n latest) {t : Turnstile R} {e : Event R}
    (hahead : f.turnstile.ahead f.committed = e :: t.ahead f.committed)
    (hle : e.revision ≤ latest) :
    Listening { f with
      turnstile := t
      notifier := some (n.publish e)
      watches := if n.queue.length < n.capacity then f.watches
        else fun id => (f.watches id).map Watch.miss } (n.publish e) latest := by
  have hpublish : n.publish e = if n.queue.length < n.capacity
      then { n with queue := n.queue ++ [e] } else { n with dropped := n.dropped + 1 } := by
    simp [Notifier.publish, h.attached]
  by_cases hroom : n.queue.length < n.capacity
  · rw [if_pos hroom] at hpublish
    simp only [hpublish, if_pos hroom]
    refine ⟨h.attached, h.ascending, h.watched, ?_, h.round, h.targets, ?_⟩
    · intro e' he'
      rcases List.mem_append.1 he' with he' | he'
      · exact h.queue e' he'
      · exact List.mem_singleton.1 he' ▸ hle
    · intro id s w hs hopen hw hm
      refine (h.follows id s w hs hopen hw hm).of_news_eq (congrArg _ ?_)
      simp [coming, hahead]
  · rw [if_neg hroom] at hpublish
    simp only [hpublish, if_neg hroom]
    have hmissed {id : String} {w : Watch R}
        (hw : (f.watches id).map Watch.miss = some w) : w.missed = true := by
      obtain ⟨w, -, rfl⟩ := Option.map_eq_some_iff.1 hw
      rfl
    refine ⟨h.attached, h.ascending, ?_, h.queue, h.round, ?_, ?_⟩
    · intro id s hs
      obtain ⟨w, hw, hsince⟩ := h.watched id s hs
      exact ⟨w.miss, by simp [hw], hsince⟩
    · intro r ids hr hids
      obtain ⟨hnodup, hwatch⟩ := h.targets r ids hr hids
      refine ⟨hnodup, fun id hid => ?_⟩
      obtain ⟨w, hw, hlt⟩ := hwatch id hid
      exact ⟨w.miss, by simp [hw], hlt⟩
    · intro id s w hs hopen hw hm
      exact absurd (hmissed hw) (by simp [hm])

/-! ### Subscriptions -/

omit [Record R] in
theorem coming_congr {f' : Feed R} {n' : Notifier R} (hround : f'.round = f.round)
    (hqueue : n'.queue = n.queue) (hturnstile : f'.turnstile = f.turnstile)
    (hcommitted : f'.committed = f.committed) (id : String) : f'.coming n' id = f.coming n id := by
  simp only [coming, hround, hqueue, hturnstile, hcommitted]

theorem Listening.subscribe (h : f.Listening n latest)
    (ho : f.turnstile.Ordered f.committed latest) {snapshot : Store.Snapshot R}
    (hlatest : snapshot.revision = latest) {id : String} {sink : Sink} (hnew : f.watches id = none)
    (hempty : sink.waiting = []) :
    Listening { f with
      notifier := some (n.subscribe id snapshot.revision sink)
      watches := Function.update f.watches id (some { snapshot }) }
      (n.subscribe id snapshot.revision sink) latest := by
  have hkeeps := n.keeps_subscribe id snapshot.revision sink
  have hwatches {key : String} {w : Watch R} (hw : f.watches key = some w) :
      Function.update f.watches id (some { snapshot }) key = some w := by
    have hne : key ≠ id := fun he => by simp [he, hnew] at hw
    rwa [Function.update_of_ne hne]
  refine ⟨h.attached, hkeeps.ascending h.ascending, ?_, h.queue, h.round, ?_, ?_⟩
  · intro key s hs
    rw [Notifier.lookup_subscribe] at hs
    by_cases hkey : key = id
    · rw [if_pos hkey] at hs
      obtain rfl := Option.some.inj hs
      rw [hkey]
      exact ⟨{ snapshot }, Function.update_self .., rfl⟩
    · rw [if_neg hkey] at hs
      obtain ⟨w, hw, hsince⟩ := h.watched key s hs
      exact ⟨w, hwatches hw, hsince⟩
  · intro r ids hr hids
    obtain ⟨hnodup, hwatch⟩ := h.targets r ids hr hids
    refine ⟨hnodup, fun key hkey => ?_⟩
    obtain ⟨w, hw, hlt⟩ := hwatch key hkey
    exact ⟨w, hwatches hw, hlt⟩
  · intro key s w hs hopen hw hm
    change Function.update f.watches id (some { snapshot }) key = some w at hw
    rw [Notifier.lookup_subscribe] at hs
    by_cases hkey : key = id
    · rw [if_pos hkey] at hs
      rw [hkey, Function.update_self] at hw
      obtain rfl := Option.some.inj hs
      obtain rfl := Option.some.inj hw
      -- whatever was committed or is on its way is in the snapshot
      have hpast : news snapshot.revision f.committed = [] :=
        news_eq_nil fun e he => hlatest ▸ ho.bounded e he
      have hcoming : news snapshot.revision (f.coming n key) = [] :=
        news_eq_nil fun e he => hlatest ▸ h.coming_le ho key e he
      refine ⟨?_, ?_⟩
      · change (news snapshot.revision f.committed).map _ =
          [] ++ (news snapshot.revision (f.coming n key)).map _
        rw [hpast, hcoming]
        rfl
      · rintro m rfl
        exact hempty.symm
    · rw [if_neg hkey] at hs
      rw [Function.update_of_ne hkey] at hw
      exact h.follows key s w hs hopen hw hm

/-- A notifier that has lost subscriptions and nothing else. -/
theorem Listening.lose (h : f.Listening n latest) {n' : Notifier R} (hkeeps : n.Keeps n')
    (hlookup : ∀ key s, n'.subscriptions.lookup key = some s →
      n.subscriptions.lookup key = some s) :
    Listening { f with notifier := some n' } n' latest := by
  refine ⟨hkeeps.isAttached.trans h.attached, hkeeps.ascending h.ascending, ?_, ?_, h.round,
    h.targets, ?_⟩
  · exact fun key s hs => h.watched key s (hlookup key s hs)
  · exact fun e he => h.queue e (hkeeps.queue ▸ he)
  · intro key s w hs hopen hw hm
    refine (h.follows key s w (hlookup key s hs) hopen hw hm).of_news_eq (congrArg _ ?_)
    exact coming_congr rfl hkeeps.queue rfl rfl key

end WorkQueue.Feed
