import WorkQueue.Proofs.Notify.Listening

/-!
# From the queue to the sinks

The dispatcher takes one event at a time, looks up who is to be told of it, and offers it to one
sink after another. The round under way only ever owes the event to fewer subscriptions, and a sink
that has taken a notification keeps it until its subscriber reads it. With that, every step of a
feed is seen to keep what is known of the events on their way.
-/

namespace WorkQueue.Feed

open Store

variable {R : Type} [Record R] {f : Feed R} {n : Notifier R} {latest : Nat}

/-! ### The dispatcher -/

theorem Listening.take (h : f.Listening n latest) {e : Event R} {queue : List (Event R)}
    (hfirst : n.queue = e :: queue) (hidle : f.round = none) :
    Listening { f with notifier := some { n with queue }, round := some { event := e } }
      { n with queue } latest := by
  have hle : ∀ e' ∈ e :: queue, e'.revision ≤ latest := hfirst ▸ h.queue
  refine ⟨h.attached, h.ascending, h.watched, ?_, ?_, ?_, ?_⟩
  · exact fun e' he' => hle e' (List.mem_cons_of_mem e he')
  · intro r hr
    obtain rfl := Option.some.inj hr
    exact hle e List.mem_cons_self
  · intro r ids hr hids
    obtain rfl := Option.some.inj hr
    cases hids
  · intro key s w hs hopen hw hm
    refine (h.follows key s w hs hopen hw hm).of_news_eq (congrArg _ ?_)
    simp [coming, hidle, hfirst, Round.pending]

theorem Listening.look (h : f.Listening n latest) {r : Round R} (hbusy : f.round = some r)
    (hunlooked : r.left = none) :
    Listening { f with
      notifier := some n
      round := some { r with left := some (n.targets r.event) } } n latest := by
  refine ⟨h.attached, h.ascending, h.watched, h.queue, ?_, ?_, ?_⟩
  · intro r' hr'
    obtain rfl := Option.some.inj hr'
    exact h.round r hbusy
  · intro r' ids hr' hids
    obtain rfl := Option.some.inj hr'
    obtain rfl := Option.some.inj hids
    refine ⟨Notifier.nodup_targets h.ascending _, fun id hid => ?_⟩
    obtain ⟨s, hs, hlt⟩ := (Notifier.mem_targets h.ascending).1 hid
    obtain ⟨w, hw, hsince⟩ := h.watched id s hs
    exact ⟨w, hw, hsince ▸ hlt⟩
  · intro key s w hs hopen hw hm
    refine (h.follows key s w hs hopen hw hm).of_news_eq ?_
    obtain ⟨w', hw', hsince⟩ := h.watched key s hs
    obtain rfl := Option.some.inj (hw.symm.trans hw')
    simp only [coming, hbusy, Option.elim_some, Round.pending, hunlooked, news_append]
    by_cases hnew : w.snapshot.revision < r.event.revision
    · have hmem : key ∈ n.targets r.event :=
        (Notifier.mem_targets h.ascending).2 ⟨s, hs, hsince ▸ hnew⟩
      rw [if_pos hmem]
    · have hold : news w.snapshot.revision [r.event] = [] :=
        news_eq_nil fun e he => List.mem_singleton.1 he ▸ not_lt.1 hnew
      split
      · rfl
      · rw [hold]
        rfl

/-- Work on the sink of one subscription. The round that may be under way goes on to fewer
subscriptions, and none but this one leaves it. -/
theorem Listening.sink (h : f.Listening n latest) {α : Type} {id : String} {op : Sink → α × Sink}
    {g : Watch R → Watch R} {round : Option (Round R)}
    (hsnapshot : ∀ w, (g w).snapshot = w.snapshot)
    (hmissed : ∀ w, (g w).missed = false → w.missed = false)
    (hopen : ∀ s, (op s).2.isOpen = true → s.isOpen = true)
    (hround : ∀ r', round = some r' → ∃ r, f.round = some r ∧ r'.event = r.event ∧
      ∀ ids', r'.left = some ids' → ∃ ids, r.left = some ids ∧ ids'.Sublist ids)
    (hothers : ∀ key, key ≠ id → round.elim [] (fun r => r.pending key) =
      f.round.elim [] fun r => r.pending key)
    (hself : ∀ s w, n.subscriptions.lookup id = some s → f.watches id = some w →
      (op s.sink).2.isOpen = true → (g w).missed = false →
      Follows f.committed (f.coming n id) id s w →
      Follows f.committed
        (round.elim [] (fun r => r.pending id) ++ n.queue ++ f.turnstile.ahead f.committed) id
        { s with sink := (op s.sink).2 } (g w)) :
    Listening { f with
      notifier := some (n.onSink id op).2
      round
      watches := f.watching id g } (n.onSink id op).2 latest := by
  have hkeeps := n.keeps_onSink id op
  have hwatches {key : String} {w : Watch R} (hw : f.watches key = some w) :
      ∃ w', f.watching id g key = some w' ∧ w'.snapshot = w.snapshot := by
    by_cases hkey : key = id
    · subst hkey
      exact ⟨g w, by rw [watching, Function.update_self, hw]; rfl, hsnapshot w⟩
    · exact ⟨w, by rw [watching, Function.update_of_ne hkey, hw], rfl⟩
  refine ⟨hkeeps.isAttached.trans h.attached, hkeeps.ascending h.ascending, ?_, ?_, ?_, ?_, ?_⟩
  · intro key s hs
    rw [Notifier.lookup_onSink] at hs
    have hold : ∃ s', n.subscriptions.lookup key = some s' ∧ s.since = s'.since := by
      by_cases hkey : key = id
      · rw [if_pos hkey] at hs
        obtain ⟨s', hs', rfl⟩ := Option.map_eq_some_iff.1 hs
        exact ⟨s', hkey ▸ hs', rfl⟩
      · rw [if_neg hkey] at hs
        exact ⟨s, hs, rfl⟩
    obtain ⟨s', hs', hsame⟩ := hold
    obtain ⟨w, hw, hsince⟩ := h.watched key s' hs'
    obtain ⟨w', hw', he⟩ := hwatches hw
    exact ⟨w', hw', by rw [hsame, hsince, he]⟩
  · exact fun e he => h.queue e (hkeeps.queue ▸ he)
  · intro r' hr'
    obtain ⟨r, hr, hevent, -⟩ := hround r' hr'
    exact hevent ▸ h.round r hr
  · intro r' ids' hr' hids'
    obtain ⟨r, hr, hevent, hleft⟩ := hround r' hr'
    obtain ⟨ids, hids, hsub⟩ := hleft ids' hids'
    obtain ⟨hnodup, hwatch⟩ := h.targets r ids hr hids
    refine ⟨hnodup.sublist hsub, fun key hkey => ?_⟩
    obtain ⟨w, hw, hlt⟩ := hwatch key (hsub.subset hkey)
    obtain ⟨w', hw', he⟩ := hwatches hw
    exact ⟨w', hw', by rwa [he, hevent]⟩
  · intro key s w hs hs' hw hm
    change f.watching id g key = some w at hw
    rw [Notifier.lookup_onSink] at hs
    by_cases hkey : key = id
    · subst hkey
      rw [if_pos rfl] at hs
      rw [watching, Function.update_self] at hw
      obtain ⟨s, hold, rfl⟩ := Option.map_eq_some_iff.1 hs
      obtain ⟨w, hwold, rfl⟩ := Option.map_eq_some_iff.1 hw
      have hfollows := h.follows key s w hold (hopen _ hs') hwold (hmissed w hm)
      simp only [coming, hkeeps.queue]
      exact hself s w hold hwold hs' hm hfollows
    · rw [if_neg hkey] at hs
      rw [watching, Function.update_of_ne hkey] at hw
      refine (h.follows key s w hs hs' hw hm).of_news_eq (congrArg _ ?_)
      simp only [coming, hkeeps.queue, hothers key hkey]

theorem Listening.serve [LawfulRecord R] (h : f.Listening n latest) {r : Round R} {id : String}
    {ids : List String} {outcome : Option Mailbox.Delivery} {n' : Notifier R}
    {refused : List String} (hbusy : f.round = some r) (hnext : r.left = some (id :: ids))
    (hserve : n.serve r.event id = (outcome, n')) :
    Listening { f with
      notifier := some n'
      round := some { r with left := some ids, refused }
      watches := f.watching id (.hear (.ofEvent id r.event) outcome) } n' latest := by
  rw [Notifier.serve_eq] at hserve
  obtain rfl : n' = (n.onSink id (Sink.deliver (.ofEvent id r.event))).2 :=
    (congrArg Prod.snd hserve).symm
  have houtcome : outcome = (n.onSink id (Sink.deliver (.ofEvent id r.event))).1 :=
    (congrArg Prod.fst hserve).symm
  obtain ⟨hnodup, hwatch⟩ := h.targets r (id :: ids) hbusy hnext
  refine h.sink (fun w => ?_) (fun w hm => ?_) (fun s => Sink.isOpen_of_deliver) ?_ ?_ ?_
  · unfold Watch.hear
    split <;> rfl
  · unfold Watch.hear at hm
    split at hm
    · exact hm
    · cases hm
    · exact hm
  · intro r' hr'
    obtain rfl := Option.some.inj hr'
    refine ⟨r, hbusy, rfl, fun ids' hids' => ⟨id :: ids, hnext, ?_⟩⟩
    obtain rfl := Option.some.inj hids'
    exact List.sublist_cons_self id ids
  · intro key hkey
    simp [hbusy, hnext, Round.pending, hkey]
  · intro s w hs hw hopen hm hfollows
    rw [n.onSink_fst id _ hs] at houtcome
    subst houtcome
    rcases Sink.deliver_of_isOpen (.ofEvent id r.event) (Sink.isOpen_of_deliver hopen) with
      hlost | ⟨hkept, hmailbox⟩
    · simp [Watch.hear, hlost, Watch.miss] at hm
    · obtain ⟨w', hw', hlt⟩ := hwatch id List.mem_cons_self
      obtain rfl := Option.some.inj (hw.symm.trans hw')
      have hnew : news w.snapshot.revision [r.event] = [r.event] :=
        news_eq_self fun e he => List.mem_singleton.1 he ▸ hlt
      have hout : id ∉ ids := (List.nodup_cons.1 hnodup).1
      obtain ⟨hstream, hbox⟩ := hfollows
      rw [hkept]
      refine ⟨?_, fun m hm' => ?_⟩
      · simp only [coming, hbusy, hnext, Option.elim_some, Round.pending, List.mem_cons_self,
          if_true, news_append, hnew] at hstream
        simp only [Watch.hear, Option.elim_some, Round.pending, hout, if_false, news_append]
        simpa [news] using hstream
      · obtain ⟨m₀, hm₀, hwaiting⟩ := hmailbox m hm'
        change w.heard ++ _ = w.taken ++ m.waiting
        rw [hbox m₀ hm₀, hwaiting, List.append_assoc]

theorem Listening.finish (h : f.Listening n latest) {r : Round R} (hbusy : f.round = some r)
    (hdone : r.left = some []) :
    Listening { f with notifier := some (n.expel r.refused), round := none } (n.expel r.refused)
      latest := by
  have hlookup (key : String) (s : Subscription)
      (hs : (n.expel r.refused).subscriptions.lookup key = some s) :
      n.subscriptions.lookup key = some s := by
    rw [Notifier.lookup_expel] at hs
    split at hs
    · cases hs
    · exact hs
  have hlose := h.lose (n.keeps_expel r.refused) hlookup
  refine ⟨hlose.attached, hlose.ascending, hlose.watched, hlose.queue, fun _ hr => (nomatch hr),
    fun _ _ hr => (nomatch hr), fun key s w hs hopen hw hm => ?_⟩
  refine (hlose.follows key s w hs hopen hw hm).of_news_eq (congrArg _ ?_)
  simp [coming, hbusy, hdone, Round.pending]

/-! ### Subscribers -/

theorem Listening.receive (h : f.Listening n latest) {id : String} {count : Nat}
    {notes : List Notification} {n' : Notifier R} (hreceive : n.receive id count = (notes, n')) :
    Listening { f with notifier := some n', watches := f.watching id (.read notes) } n' latest := by
  obtain rfl : n' = (n.onSink id (Sink.take count)).2 := (congrArg Prod.snd hreceive).symm
  have hnotes : notes = (n.onSink id (Sink.take count)).1.getD [] :=
    (congrArg Prod.fst hreceive).symm
  refine h.sink (fun w => rfl) (fun w hm => hm) (fun s hs => ?_)
    (fun r hr => ⟨r, hr, rfl, fun ids hids => ⟨ids, hids, .refl ids⟩⟩) (fun _ _ => rfl) ?_
  · cases s with
    | log => rfl
    | mailbox m => exact hs
  · intro s w hs hw hopen hm hfollows
    rw [n.onSink_fst id _ hs] at hnotes
    refine ⟨hfollows.stream, fun m' hm' => ?_⟩
    cases hsink : s.sink with
    | log => simp [hsink, Sink.take] at hm'
    | mailbox m =>
      have hm' : Sink.mailbox { m with waiting := m.waiting.drop count } = .mailbox m' := by
        simpa [hsink, Sink.take, Mailbox.take] using hm'
      obtain rfl := Sink.mailbox.inj hm'
      have hnotes : notes = m.waiting.take count := by
        simpa [hsink, Sink.take, Mailbox.take] using hnotes
      change w.heard = (w.taken ++ notes) ++ m.waiting.drop count
      rw [hnotes, List.append_assoc, List.take_append_drop]
      exact hfollows.mailbox m hsink

theorem Listening.close (h : f.Listening n latest) (id : String) :
    Listening { f with notifier := some (n.closeReceiver id) } (n.closeReceiver id) latest := by
  have hwatches : f.watching id (fun w => w) = f.watches := by
    rw [watching, Option.map_id', Function.update_eq_self]
  have hsink : Listening { f with
      notifier := some (n.closeReceiver id)
      watches := f.watching id fun w => w } (n.closeReceiver id) latest := by
    refine h.sink (fun w => rfl) (fun w hm => hm) (fun s hs => ?_)
      (fun r hr => ⟨r, hr, rfl, fun ids hids => ⟨ids, hids, .refl ids⟩⟩) (fun _ _ => rfl) ?_
    · cases s with
      | log => rfl
      | mailbox m => exact absurd hs Bool.false_ne_true
    · intro s w hs hw hopen hm hfollows
      cases hsink : s.sink with
      | log => exact ⟨hfollows.stream, fun m hm' => by cases hm'⟩
      | mailbox m =>
        rw [hsink] at hopen
        exact absurd hopen Bool.false_ne_true
  rwa [hwatches] at hsink

/-! ### Every step -/

/-- What is so of a feed at all times, whether the ids of its records are distinct or not. -/
structure Invariant (own : Nat) (f : Feed R) (p : Process R) : Prop where
  found : f.world.processes own = some p
  ordered : f.turnstile.Ordered f.committed p.store.revision
  listening : ∀ n, f.notifier = some n → f.Listening n p.store.revision
  idle : f.notifier = none → f.round = none

section Steps

variable {data : Location} {own : Nat} {allowed : Disk → Prop} {f' : Feed R} {p : Process R}

theorem Invariant.attach (h : f.Invariant own p) (capacity : Nat)
    (hunattached : f.notifier = none) :
    Invariant own { f with notifier := some (.withCapacity capacity) } p := by
  refine ⟨h.found, h.ordered, fun n hn => ?_, fun hn => by cases hn⟩
  obtain rfl := Option.some.inj hn
  have hidle := h.idle hunattached
  refine ⟨rfl, Keyed.ascending_nil, ?_, ?_, ?_, ?_, ?_⟩
  · exact fun id s hs => by cases hs
  · exact fun e he => by cases he
  · exact fun r hr => by simp [hidle] at hr
  · exact fun r ids hr => by simp [hidle] at hr
  · exact fun id s w hs => by cases hs

/-- A turn opens or ends. -/
theorem Invariant.turn (h : f.Invariant own p) {act : Turnstile.Act R} {t : Turnstile R}
    (hs : f.turnstile.Step f.notifier.isSome act t) (hact : act ≠ .abandoned)
    (hquiet : act.events = []) : Invariant own { f with turnstile := t } p := by
  refine ⟨h.found, hs.ordered h.ordered, fun n hn => ?_, h.idle⟩
  have hn : f.notifier = some n := hn
  rw [hn] at hs
  have hahead := Turnstile.Step.ahead_eq hs h.ordered hact
  rw [hquiet, List.nil_append] at hahead
  exact (h.listening n hn).turn hahead.symm

theorem Invariant.hear (h : f.Invariant own p) {t : Turnstile R} {e : Event R}
    (hn : f.notifier = some n) (hs : f.turnstile.Step true (.heard e) t) :
    Invariant own { f with
      turnstile := t
      notifier := some (n.publish e)
      watches := if n.queue.length < n.capacity then f.watches
        else fun id => (f.watches id).map Watch.miss } p := by
  have hahead := hs.ahead_eq h.ordered (by simp)
  have hle : e.revision ≤ p.store.revision :=
    h.ordered.ahead_le e (hahead ▸ List.mem_append_left _ List.mem_cons_self)
  refine ⟨h.found, hs.ordered h.ordered, fun n' hn' => ?_, fun hnone => by cases hnone⟩
  obtain rfl := Option.some.inj hn'
  exact (h.listening n hn).hear hahead hle

/-- Whatever a notifier and those who listen to it do, the store has no part in it. -/
theorem Invariant.notify (h : f.Invariant own p) {n' : Notifier R} {round : Option (Round R)}
    {watches : String → Option (Watch R)}
    (hl : Listening { f with notifier := some n', round, watches } n' p.store.revision) :
    Invariant own { f with notifier := some n', round, watches } p := by
  refine ⟨h.found, h.ordered, fun n hn => ?_, fun hn => by cases hn⟩
  obtain rfl := Option.some.inj hn
  exact hl

variable [LawfulRecord R]

theorem Invariant.commit (h : f.Invariant own p) {p' : Process R} {a : Option (Answer R)}
    {commits : List (Commit R)} {host : Host} (hs : p.Step f.world.host a commits p' host) :
    Invariant own { f with
      world := f.world.acted own a p' host
      committed := f.committed ++ commits.flatMap Commit.events
      turnstile := f.turnstile.join commits } p' := by
  have hfound : (f.world.acted own a p' host).processes own = some p' := Function.update_self ..
  rcases hs.numbered with ⟨rfl, hrevision⟩ | ⟨c, rfl, hrevision, hc, hstamped⟩
  · have hjoin : f.turnstile.join ([] : List (Commit R)) = f.turnstile := by
      simp [Turnstile.join]
    rw [hjoin, List.flatMap_nil, List.append_nil]
    refine ⟨hfound, hrevision ▸ h.ordered, fun n hn => ?_, h.idle⟩
    have hl := h.listening n hn
    rw [← hrevision] at hl
    exact hl.elsewhere _
  · have hjoined := h.ordered.join hc hstamped
    rw [List.flatMap_singleton]
    refine ⟨hfound, hrevision ▸ hjoined, fun n hn => ?_, h.idle⟩
    exact hrevision ▸ (h.listening n hn).commit h.ordered hstamped _

theorem Invariant.step (h : f.Invariant own p) (hs : Step data own allowed f f') :
    ∃ p', f'.Invariant own p' := by
  cases hs with
  | others step same =>
    exact ⟨p, same.trans h.found, h.ordered, fun n hn => (h.listening n hn).elsewhere _, h.idle⟩
  | edited edit =>
    exact ⟨p, h.found, h.ordered, fun n hn => (h.listening n hn).elsewhere _, h.idle⟩
  | committed found step =>
    obtain rfl := Option.some.inj (found.symm.trans h.found)
    exact ⟨_, h.commit step⟩
  | attached capacity unattached => exact ⟨p, h.attach capacity unattached⟩
  | entered step => exact ⟨p, h.turn step (by simp) rfl⟩
  | heard listening step => exact ⟨p, h.hear listening step⟩
  | left step => exact ⟨p, h.turn step (by simp) rfl⟩
  | subscribed found listening new empty =>
    obtain rfl := Option.some.inj (found.symm.trans h.found)
    exact ⟨_, h.notify ((h.listening _ listening).subscribe h.ordered rfl new empty)⟩
  | unsubscribed listening id =>
    refine ⟨p, h.notify ((h.listening _ listening).lose (Notifier.keeps_unsubscribe ..)
      fun key s hs => ?_)⟩
    rw [Notifier.lookup_unsubscribe] at hs
    split at hs
    · cases hs
    · exact hs
  | taken listening first idle =>
    exact ⟨p, h.notify ((h.listening _ listening).take first idle)⟩
  | looked listening busy unlooked =>
    have hlooked := h.notify ((h.listening _ listening).look busy unlooked)
    rw [← listening] at hlooked
    exact ⟨p, hlooked⟩
  | served listening busy next serve =>
    exact ⟨p, h.notify ((h.listening _ listening).serve busy next serve)⟩
  | finished listening busy done =>
    exact ⟨p, h.notify ((h.listening _ listening).finish busy done)⟩
  | received listening id count receive =>
    exact ⟨p, h.notify ((h.listening _ listening).receive receive)⟩
  | closed listening id => exact ⟨p, h.notify ((h.listening _ listening).close id)⟩

theorem Reachable.invariant (hr : Reachable data own allowed f) : ∃ p, f.Invariant own p := by
  induction hr with
  | opened found world free run =>
    obtain ⟨loaded, disk, -, rfl, -⟩ := eq_of_open run
    exact ⟨_, Function.update_self .., Turnstile.ordered_empty, fun n hn => (nomatch hn),
      fun _ => rfl⟩
  | step _ hs ih =>
    obtain ⟨p, hp⟩ := ih
    exact hp.step hs

end Steps

end WorkQueue.Feed
