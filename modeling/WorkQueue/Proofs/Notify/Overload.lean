import WorkQueue.Proofs.Notify.Ledger

/-!
# Overload drops the newest

However slow dispatcher and subscribers are, the only events that do not get through are those that
find the queue full when the listener is called, and those that a subscription's own sink is too
full for. A subscription stays registered until it is unsubscribed or its sink reports that it is
closed, and as long as its sink is open it is offered every event that is dispatched and news to it.
-/

namespace WorkQueue

open Store

namespace Sink

variable {sink : Sink} (note : Notification)

theorem deliver_of_full (hopen : sink.isOpen = true) (hfull : sink.isFull = true) :
    sink.deliver note = (.lost, sink) := by
  cases sink with
  | log => cases hfull
  | mailbox m =>
    have hclosed : (!m.isOpen) = false := by simpa [isOpen] using hopen
    have hroom : ¬ m.waiting.length < m.capacity := by simpa [isFull] using hfull
    simp [deliver, Mailbox.deliver, hclosed, hroom]

theorem deliver_of_room (hopen : sink.isOpen = true) (hroom : sink.isFull = false) :
    (sink.deliver note).1 = .kept ∧ ∀ m, (sink.deliver note).2 = .mailbox m →
      ∃ m₀, sink = .mailbox m₀ ∧ m.waiting = m₀.waiting ++ [note] := by
  rcases deliver_of_isOpen note hopen with hlost | hkept
  · cases sink with
    | log => cases hlost
    | mailbox m =>
      have hclosed : (!m.isOpen) = false := by simpa [isOpen] using hopen
      have hroom : m.waiting.length < m.capacity := by simpa [isFull] using hroom
      simp [deliver, Mailbox.deliver, hclosed, hroom] at hlost
  · exact hkept

end Sink

namespace Ledger

variable {R : Type} [Record R] {data : Location} {own capacity : Nat} {l l' : Ledger R}
  {n : Notifier R} {p : Process R} {id : String} {s : Subscription} {w : Watch R}

/-- The event under way, where it has still to be offered to the subscription. -/
def pending (l : Ledger R) (id : String) : List (Event R) :=
  l.feed.round.elim [] fun r => r.pending id

/-- A subscription was offered what was dispatched and is news to it, and its sink took what it had
room for. -/
structure Serves (l : Ledger R) (id : String) (s : Subscription) (w : Watch R) : Prop where
  offered : news w.snapshot.revision l.dispatched =
    (l.offers id).map Offer.event ++ news w.snapshot.revision (l.pending id)
  heard : w.heard =
    ((l.offers id).filter fun o => !o.full).map fun o => Notification.ofEvent id o.event
  mailbox : ∀ m, s.sink = .mailbox m → w.heard = w.taken ++ m.waiting

structure Serving (l : Ledger R) (n : Notifier R) : Prop where
  fresh : ∀ id, l.feed.watches id = none → l.offers id = []
  serves : ∀ id s w, n.subscriptions.lookup id = some s → s.sink.isOpen = true →
    l.feed.watches id = some w → Serves l id s w

theorem Serves.miss (h : Serves l id s w) : Serves l id s w.miss :=
  ⟨h.offered, h.heard, h.mailbox⟩

theorem pending_le (h : l.feed.Invariant own p) (hn : l.feed.notifier = some n) (id : String) :
    ∀ e ∈ l.pending id, e.revision ≤ p.store.revision := fun e he =>
  (h.listening n hn).coming_le h.ordered id e
    (List.mem_append_left _ (List.mem_append_left _ he))

/-! ### Steps that offer nothing -/

/-- Nothing is dispatched or offered, and no subscription comes. -/
theorem Serving.keep (h : l.Serving n) {n' : Notifier R} (hoffers : l'.offers = l.offers)
    (hdispatched : l'.dispatched = l.dispatched)
    (hlookup : ∀ id s, n'.subscriptions.lookup id = some s → n.subscriptions.lookup id = some s)
    (hwatches : l'.feed.watches = l.feed.watches ∨
      l'.feed.watches = fun id => (l.feed.watches id).map Watch.miss)
    (hpending : ∀ id s w, n.subscriptions.lookup id = some s → l.feed.watches id = some w →
      news w.snapshot.revision (l'.pending id) = news w.snapshot.revision (l.pending id)) :
    l'.Serving n' := by
  have hserves (id : String) (s : Subscription) (w : Watch R)
      (hs : n'.subscriptions.lookup id = some s) (hopen : s.sink.isOpen = true)
      (hw : l.feed.watches id = some w) : Serves l' id s w := by
    obtain ⟨hoffered, hheard, hmailbox⟩ := h.serves id s w (hlookup id s hs) hopen hw
    refine ⟨?_, hoffers ▸ hheard, hmailbox⟩
    rw [hdispatched, hoffers, hpending id s w (hlookup id s hs) hw, hoffered]
  rcases hwatches with hwatches | hwatches
  · refine ⟨fun id hw => ?_, fun id s w hs hopen hw => ?_⟩
    · rw [hwatches] at hw
      rw [hoffers, h.fresh id hw]
    · exact hserves id s w hs hopen (hwatches ▸ hw)
  · refine ⟨fun id hw => ?_, fun id s w hs hopen hw => ?_⟩
    · rw [hwatches, Option.map_eq_none_iff] at hw
      rw [hoffers, h.fresh id hw]
    · rw [hwatches] at hw
      obtain ⟨w, hold, rfl⟩ := Option.map_eq_some_iff.1 hw
      exact (hserves id s w hs hopen hold).miss

/-- The dispatcher takes an event out of the queue. -/
theorem Serving.take (h : l.Serving n) {n' : Notifier R} {e : Event R}
    (hoffers : l'.offers = l.offers) (hdispatched : l'.dispatched = l.dispatched ++ [e])
    (hsubscriptions : n'.subscriptions = n.subscriptions)
    (hwatches : l'.feed.watches = l.feed.watches) (hidle : l.feed.round = none)
    (hround : l'.feed.round = some { event := e }) : l'.Serving n' := by
  refine ⟨fun id hw => ?_, fun id s w hs hopen hw => ?_⟩
  · rw [hoffers]
    exact h.fresh id (hwatches ▸ hw)
  · obtain ⟨hoffered, hheard, hmailbox⟩ :=
      h.serves id s w (hsubscriptions ▸ hs) hopen (hwatches ▸ hw)
    refine ⟨?_, hoffers ▸ hheard, hmailbox⟩
    have hbefore : l.pending id = [] := by rw [pending, hidle]; rfl
    have hafter : l'.pending id = [e] := by rw [pending, hround]; rfl
    rw [hbefore] at hoffered
    rw [hdispatched, hoffers, news_append, hoffered, hafter]
    exact congrArg (· ++ _) (List.append_nil _)

/-- The dispatcher looks up those to whom the event is news. -/
theorem news_pending_look (hl : l.feed.Listening n p.store.revision) {r : Round R}
    (hbusy : l.feed.round = some r) (hunlooked : r.left = none)
    (hround : l'.feed.round = some { r with left := some (n.targets r.event) })
    (hs : n.subscriptions.lookup id = some s) (hw : l.feed.watches id = some w) :
    news w.snapshot.revision (l'.pending id) = news w.snapshot.revision (l.pending id) := by
  obtain ⟨w', hw', hsince⟩ := hl.watched id s hs
  obtain rfl := Option.some.inj (hw.symm.trans hw')
  have hbefore : l.pending id = [r.event] := by
    rw [pending, hbusy, Option.elim_some, Round.pending, hunlooked]
  have hafter : l'.pending id = if id ∈ n.targets r.event then [r.event] else [] := by
    rw [pending, hround, Option.elim_some, Round.pending]
  rw [hbefore, hafter]
  split
  · rfl
  case isFalse hmem =>
    have hold : ¬ w.snapshot.revision < r.event.revision := fun hlt =>
      hmem ((Notifier.mem_targets hl.ascending).2 ⟨s, hs, hsince ▸ hlt⟩)
    exact (news_eq_nil fun e he => List.mem_singleton.1 he ▸ Nat.not_lt.1 hold).symm

/-- A subscription that comes has everything in its snapshot that was dispatched before. -/
theorem Serving.subscribe (h : l.Serving n) (hinv : l.feed.Invariant own p)
    (hn : l.feed.notifier = some n) (hbelow : l.dispatched.Sublist l.feed.committed) {sink : Sink}
    (hnew : l.feed.watches id = none) (hempty : sink.waiting = [])
    (hoffers : l'.offers = l.offers) (hdispatched : l'.dispatched = l.dispatched)
    (hround : l'.feed.round = l.feed.round)
    (hwatches : l'.feed.watches =
      Function.update l.feed.watches id (some { snapshot := p.store.snapshot })) :
    l'.Serving (n.subscribe id p.store.snapshot.revision sink) := by
  have hpending (key : String) : l'.pending key = l.pending key := by
    rw [pending, hround, pending]
  refine ⟨fun key hw => ?_, fun key s w hs hopen hw => ?_⟩
  · rw [hoffers]
    by_cases hkey : key = id
    · rw [hkey, hwatches, Function.update_self] at hw
      cases hw
    · rw [hwatches, Function.update_of_ne hkey] at hw
      exact h.fresh key hw
  · rw [Notifier.lookup_subscribe] at hs
    by_cases hkey : key = id
    · rw [if_pos hkey] at hs
      rw [hwatches, hkey, Function.update_self] at hw
      obtain rfl := Option.some.inj hs
      obtain rfl := Option.some.inj hw
      have hpast : news p.store.revision l.dispatched = [] :=
        news_eq_nil fun e he => hinv.ordered.bounded e (hbelow.subset he)
      have hcoming : news p.store.revision (l.pending key) = [] :=
        news_eq_nil (pending_le hinv hn key)
      have hnone : l'.offers key = [] := by rw [hoffers, hkey, h.fresh id hnew]
      refine ⟨?_, by rw [hnone]; rfl, ?_⟩
      · rw [hnone, hdispatched, hpending]
        exact hpast.trans hcoming.symm
      · rintro m rfl
        exact hempty.symm
    · rw [if_neg hkey] at hs
      rw [hwatches, Function.update_of_ne hkey] at hw
      obtain ⟨hoffered, hheard, hmailbox⟩ := h.serves key s w hs hopen hw
      exact ⟨by rw [hdispatched, hoffers, hpending, hoffered], hoffers ▸ hheard, hmailbox⟩

/-! ### Work on a sink -/

/-- Work on the sink of one subscription leaves the others alone. -/
theorem Serving.sink (h : l.Serving n) {α : Type} {op : Sink → α × Sink} {g : Watch R → Watch R}
    (hdispatched : l'.dispatched = l.dispatched) (hwatches : l'.feed.watches = l.feed.watching id g)
    (hothers : ∀ key, key ≠ id → l'.offers key = l.offers key ∧ l'.pending key = l.pending key)
    (hfresh : l.feed.watches id = none → l'.offers id = l.offers id)
    (hself : ∀ s w, n.subscriptions.lookup id = some s → l.feed.watches id = some w →
      (op s.sink).2.isOpen = true →
      s.sink.isOpen = true ∧
        (Serves l id s w → Serves l' id { s with sink := (op s.sink).2 } (g w))) :
    l'.Serving (n.onSink id op).2 := by
  refine ⟨fun key hw => ?_, fun key s w hs hopen hw => ?_⟩
  · by_cases hkey : key = id
    · subst hkey
      rw [hwatches, Feed.watching, Function.update_self, Option.map_eq_none_iff] at hw
      rw [hfresh hw, h.fresh key hw]
    · rw [hwatches, Feed.watching, Function.update_of_ne hkey] at hw
      rw [(hothers key hkey).1, h.fresh key hw]
  · rw [Notifier.lookup_onSink] at hs
    by_cases hkey : key = id
    · subst hkey
      rw [if_pos rfl] at hs
      rw [hwatches, Feed.watching, Function.update_self] at hw
      obtain ⟨s, hold, rfl⟩ := Option.map_eq_some_iff.1 hs
      obtain ⟨w, hwold, rfl⟩ := Option.map_eq_some_iff.1 hw
      obtain ⟨hopen', hserves⟩ := hself s w hold hwold hopen
      exact hserves (h.serves key s w hold hopen' hwold)
    · obtain ⟨hoffers, hpending⟩ := hothers key hkey
      rw [if_neg hkey] at hs
      rw [hwatches, Feed.watching, Function.update_of_ne hkey] at hw
      obtain ⟨hoffered, hheard, hmailbox⟩ := h.serves key s w hs hopen hw
      exact ⟨by rw [hdispatched, hoffers, hpending, hoffered], hoffers ▸ hheard, hmailbox⟩

/-- A subscription is offered the event that is pending for it, and its sink takes it if it has
room. -/
theorem Serves.deliver (h : Serves l id s w) {e : Event R} (hopen : s.sink.isOpen = true)
    (hnews : w.snapshot.revision < e.revision) (hdispatched : l'.dispatched = l.dispatched)
    (hpending : l.pending id = [e]) (hnone : l'.pending id = [])
    (hoffers : l'.offers id = l.offers id ++ [⟨e, s.sink.isFull⟩]) :
    Serves l' id { s with sink := (s.sink.deliver (.ofEvent id e)).2 }
      (w.hear (.ofEvent id e) (some (s.sink.deliver (.ofEvent id e)).1)) := by
  obtain ⟨hoffered, hheard, hmailbox⟩ := h
  have hnew : news w.snapshot.revision [e] = [e] :=
    news_eq_self fun e' he => List.mem_singleton.1 he ▸ hnews
  rw [hpending, hnew] at hoffered
  have hstream : news w.snapshot.revision l'.dispatched = (l'.offers id).map Offer.event ++
      news w.snapshot.revision (l'.pending id) := by
    rw [hdispatched, hoffered, hoffers, hnone, List.map_append]
    exact (List.append_nil _).symm
  cases hroom : s.sink.isFull with
  | true =>
    rw [Sink.deliver_of_full _ hopen hroom]
    refine ⟨hstream, ?_, hmailbox⟩
    change w.heard = _
    rw [hoffers, hroom, List.filter_append, hheard]
    simp
  | false =>
    obtain ⟨hkept, hbox⟩ := Sink.deliver_of_room (.ofEvent id e) hopen hroom
    rw [hkept]
    refine ⟨hstream, ?_, fun m hm => ?_⟩
    · change w.heard ++ _ = _
      rw [hoffers, hroom, List.filter_append, hheard]
      simp
    · obtain ⟨m₀, hm₀, hwaiting⟩ := hbox m hm
      change w.heard ++ _ = w.taken ++ m.waiting
      rw [hmailbox m₀ hm₀, hwaiting, List.append_assoc]

theorem Serving.serve [LawfulRecord R] (h : l.Serving n)
    (hl : l.feed.Listening n p.store.revision) {r : Round R} {ids : List String}
    {refused : List String} (hbusy : l.feed.round = some r)
    (hnext : r.left = some (id :: ids)) (hdispatched : l'.dispatched = l.dispatched)
    (hround : l'.feed.round = some { r with left := some ids, refused })
    (hwatches : l'.feed.watches =
      l.feed.watching id (.hear (.ofEvent id r.event) (n.serve r.event id).1))
    (hoffers : l'.offers =
      Function.update l.offers id (l.offers id ++ [⟨r.event, n.isSinkFull id⟩])) :
    l'.Serving (n.serve r.event id).2 := by
  rw [Notifier.serve_eq] at hwatches ⊢
  obtain ⟨hnodup, hwatch⟩ := hl.targets r (id :: ids) hbusy hnext
  obtain ⟨w₀, hw₀, hnews⟩ := hwatch id List.mem_cons_self
  have hbefore (key : String) :
      l.pending key = if key ∈ id :: ids then [r.event] else [] := by
    rw [pending, hbusy, Option.elim_some, Round.pending, hnext]
  have hafter (key : String) : l'.pending key = if key ∈ ids then [r.event] else [] := by
    rw [pending, hround, Option.elim_some, Round.pending]
  apply h.sink hdispatched hwatches
  · intro key hkey
    refine ⟨by rw [hoffers, Function.update_of_ne hkey], ?_⟩
    rw [hbefore, hafter]
    simp [hkey]
  · intro hnone
    rw [hw₀] at hnone
    cases hnone
  · intro s w hs hw hopen
    have hopen := Sink.isOpen_of_deliver hopen
    refine ⟨hopen, fun hserves => ?_⟩
    obtain rfl := Option.some.inj (hw.symm.trans hw₀)
    have hout := n.onSink_fst id (Sink.deliver (.ofEvent id r.event)) hs
    have hfull : n.isSinkFull id = s.sink.isFull := by rw [Notifier.isSinkFull, hs]; rfl
    rw [hout]
    apply hserves.deliver hopen hnews hdispatched
    · rw [hbefore, if_pos List.mem_cons_self]
    · rw [hafter, if_neg (List.nodup_cons.1 hnodup).1]
    · rw [hoffers, Function.update_self, hfull]

/-- The subscriber reads: what it reads leaves its mailbox. -/
theorem Serving.receive (h : l.Serving n) {count : Nat} (hdispatched : l'.dispatched = l.dispatched)
    (hoffers : l'.offers = l.offers) (hround : l'.feed.round = l.feed.round)
    (hwatches : l'.feed.watches = l.feed.watching id (.read (n.receive id count).1)) :
    l'.Serving (n.receive id count).2 := by
  have hpending (key : String) : l'.pending key = l.pending key := by
    rw [pending, hround, pending]
  change l'.Serving (n.onSink id (Sink.take count)).2
  apply h.sink hdispatched hwatches
  · exact fun key _ => ⟨by rw [hoffers], hpending key⟩
  · exact fun _ => by rw [hoffers]
  · intro s w hs hw hopen
    have hnotes : (n.receive id count).1 = (s.sink.take count).1 :=
      congrArg (Option.getD · []) (n.onSink_fst id (Sink.take count) hs)
    rw [hnotes]
    refine ⟨?_, fun ⟨hoffered, hheard, hmailbox⟩ => ?_⟩
    · cases hsink : s.sink with
      | log => rfl
      | mailbox m =>
        rw [hsink] at hopen
        exact hopen
    · refine ⟨?_, hoffers ▸ hheard, fun m' hm' => ?_⟩
      · rw [hdispatched, hoffers, hpending]
        exact hoffered
      · cases hsink : s.sink with
        | log => simp [hsink, Sink.take] at hm'
        | mailbox m =>
          have hm' : Sink.mailbox { m with waiting := m.waiting.drop count } = .mailbox m' := by
            simpa [hsink, Sink.take, Mailbox.take] using hm'
          obtain rfl := Sink.mailbox.inj hm'
          change w.heard = (w.taken ++ m.waiting.take count) ++ m.waiting.drop count
          rw [List.append_assoc, List.take_append_drop]
          exact hmailbox m hsink

theorem Serving.close (h : l.Serving n) (hdispatched : l'.dispatched = l.dispatched)
    (hoffers : l'.offers = l.offers) (hround : l'.feed.round = l.feed.round)
    (hwatches : l'.feed.watches = l.feed.watches) : l'.Serving (n.closeReceiver id) := by
  have hpending (key : String) : l'.pending key = l.pending key := by
    rw [pending, hround, pending]
  have hsame : l'.feed.watches = l.feed.watching id (fun w => w) := by
    rw [hwatches, Feed.watching, Option.map_id', Function.update_eq_self]
  apply h.sink hdispatched hsame
  · exact fun key _ => ⟨by rw [hoffers], hpending key⟩
  · exact fun _ => by rw [hoffers]
  · intro s w hs hw hopen
    cases hsink : s.sink with
    | mailbox m =>
      rw [hsink] at hopen
      cases hopen
    | log =>
      refine ⟨rfl, ?_⟩
      rintro ⟨hoffered, hheard, -⟩
      refine ⟨?_, hoffers ▸ hheard, fun m hm => by cases hm⟩
      rw [hdispatched, hoffers, hpending]
      exact hoffered

/-! ### Every step -/

theorem Serving.step [LawfulRecord R] (h : l.Serving n) (hinv : l.feed.Invariant own p)
    (hn : l.feed.notifier = some n) (hbelow : l.dispatched.Sublist l.feed.committed)
    (hs : l.Step data own l') : ∃ n', l'.feed.notifier = some n' ∧ l'.Serving n' := by
  have hself {n' : Notifier R} (hn' : l.feed.notifier = some n') : n' = n :=
    Option.some.inj (hn'.symm.trans hn)
  have hl := hinv.listening n hn
  cases hs with
  | aside step notifier round watches =>
    refine ⟨n, notifier.trans hn, h.keep rfl rfl (fun _ _ hs => hs) (.inl watches) ?_⟩
    intro id s w _ _
    rw [pending, round, pending]
  | @heard t e n' listening =>
    obtain rfl := hself listening
    refine ⟨_, rfl, h.keep rfl rfl (fun id s hs => ?_) ?_ fun _ _ _ _ _ => rfl⟩
    · rw [Notifier.publish_eq hl.attached] at hs
      split at hs <;> exact hs
    · dsimp only
      split
      · exact .inl rfl
      · exact .inr rfl
  | subscribed found listening new empty =>
    obtain rfl := hself listening
    obtain rfl := Option.some.inj (found.symm.trans hinv.found)
    exact ⟨_, rfl, h.subscribe hinv hn hbelow new empty rfl rfl rfl rfl⟩
  | unsubscribed listening id =>
    obtain rfl := hself listening
    refine ⟨_, rfl, h.keep rfl rfl (fun key s hs => ?_) (.inl rfl) fun _ _ _ _ _ => rfl⟩
    rw [Notifier.lookup_unsubscribe] at hs
    split at hs
    · cases hs
    · exact hs
  | taken listening first idle =>
    obtain rfl := hself listening
    exact ⟨_, rfl, h.take rfl rfl rfl rfl idle rfl⟩
  | looked listening busy unlooked =>
    obtain rfl := hself listening
    exact ⟨_, hn, h.keep rfl rfl (fun _ _ hs => hs) (.inl rfl)
      fun _ _ _ hs hw => news_pending_look hl busy unlooked rfl hs hw⟩
  | served listening busy next serve =>
    obtain rfl := hself listening
    obtain rfl := congrArg Prod.snd serve
    obtain rfl := congrArg Prod.fst serve
    exact ⟨_, rfl, h.serve hl busy next rfl rfl rfl rfl⟩
  | @finished n' r listening busy done =>
    obtain rfl := hself listening
    refine ⟨_, rfl, h.keep rfl rfl (fun key s hs => ?_) (.inl rfl) fun id _ _ _ _ => ?_⟩
    · rw [Notifier.lookup_expel] at hs
      split at hs
      · cases hs
      · exact hs
    · have hnone : l.pending id = [] := by
        rw [pending, busy, Option.elim_some, Round.pending, done]
        exact if_neg List.not_mem_nil
      rw [hnone]
      rfl
  | received listening id count receive =>
    obtain rfl := hself listening
    obtain rfl := congrArg Prod.snd receive
    obtain rfl := congrArg Prod.fst receive
    exact ⟨_, rfl, h.receive rfl rfl rfl rfl⟩
  | closed listening id =>
    obtain rfl := hself listening
    exact ⟨_, rfl, h.close rfl rfl rfl rfl⟩

/-! ### Subscriptions that are gone -/

/-- A subscription that is not registered any more was unsubscribed, or its sink reported that it is
closed. -/
structure Accounted (l : Ledger R) (n : Notifier R) : Prop where
  registered : ∀ id, (l.feed.watches id).isSome = true →
    (n.subscriptions.lookup id).isSome = true ∨ id ∈ l.unsubscribed ∨ id ∈ l.reported
  refused : ∀ r, l.feed.round = some r → ∀ id ∈ r.refused, id ∈ l.reported

omit [Record R] in
theorem isSome_lookup_onSink {α : Type} (f : Sink → α × Sink) (key : String) :
    ((n.onSink id f).2.subscriptions.lookup key).isSome = (n.subscriptions.lookup key).isSome := by
  rw [Notifier.lookup_onSink]
  split
  case isTrue hkey => rw [Option.isSome_map, hkey]
  case isFalse => rfl

omit [Record R] in
theorem isSome_watching (f : Feed R) (g : Watch R → Watch R) (key : String) :
    (f.watching id g key).isSome = (f.watches key).isSome := by
  rw [Feed.watching, Function.update_apply]
  split
  case isTrue hkey => rw [Option.isSome_map, hkey]
  case isFalse => rfl

omit [Record R] in
/-- No subscription comes or goes, and no sink reports. -/
theorem Accounted.keep (h : l.Accounted n) {n' : Notifier R}
    (hwatches : ∀ key, (l'.feed.watches key).isSome = (l.feed.watches key).isSome)
    (hlookup : ∀ key,
      (n'.subscriptions.lookup key).isSome = (n.subscriptions.lookup key).isSome)
    (hunsubscribed : l'.unsubscribed = l.unsubscribed) (hreported : l'.reported = l.reported)
    (hround : ∀ r', l'.feed.round = some r' →
      r'.refused = [] ∨ ∃ r, l.feed.round = some r ∧ r'.refused = r.refused) :
    l'.Accounted n' := by
  refine ⟨fun id hid => ?_, fun r' hr' id hid => ?_⟩
  · rw [hlookup, hunsubscribed, hreported]
    exact h.registered id (hwatches id ▸ hid)
  · rw [hreported]
    rcases hround r' hr' with hnone | ⟨r, hr, hsame⟩
    · rw [hnone] at hid
      cases hid
    · exact h.refused r hr id (hsame ▸ hid)

/-- A sink that reports that it is closed is on record from then on. -/
theorem Accounted.serve [LawfulRecord R] (h : l.Accounted n) {r : Round R} {ids : List String}
    (hbusy : l.feed.round = some r)
    (hwatches : ∀ key, (l'.feed.watches key).isSome = (l.feed.watches key).isSome)
    (hunsubscribed : l'.unsubscribed = l.unsubscribed)
    (hreported : l'.reported = if (n.serve r.event id).1 = some .refused then l.reported ++ [id]
      else l.reported)
    (hround : l'.feed.round = some { r with
      left := some ids
      refused := if (n.serve r.event id).1 = some .refused then r.refused ++ [id]
        else r.refused }) :
    l'.Accounted (n.serve r.event id).2 := by
  rw [Notifier.serve_eq] at hreported hround ⊢
  have hgrown {key : String} (hkey : key ∈ l.reported) : key ∈ l'.reported := by
    rw [hreported]
    split
    · exact List.mem_append_left _ hkey
    · exact hkey
  refine ⟨fun key hkey => ?_, fun r' hr' key hkey => ?_⟩
  · have hlookup := @isSome_lookup_onSink R n id _ (Sink.deliver (.ofEvent id r.event)) key
    rw [hwatches] at hkey
    rw [hunsubscribed]
    exact (h.registered key hkey).imp hlookup.trans (.imp_right hgrown)
  · obtain rfl := Option.some.inj (hr'.symm.trans hround)
    dsimp only at hkey
    split at hkey
    case isTrue hrefused =>
      rw [hreported, if_pos hrefused]
      rcases List.mem_append.1 hkey with hkey | hkey
      · exact List.mem_append_left _ (h.refused r hbusy key hkey)
      · exact List.mem_append_right _ hkey
    case isFalse => exact hgrown (h.refused r hbusy key hkey)

theorem Accounted.step [LawfulRecord R] (h : l.Accounted n) (hn : l.feed.notifier = some n)
    (hattached : n.isAttached = true) (hs : l.Step data own l') :
    ∃ n', l'.feed.notifier = some n' ∧ l'.Accounted n' := by
  have hself {n' : Notifier R} (hn' : l.feed.notifier = some n') : n' = n :=
    Option.some.inj (hn'.symm.trans hn)
  have hsame (r' : Round R) (hr' : l.feed.round = some r') :
      r'.refused = [] ∨ ∃ r, l.feed.round = some r ∧ r'.refused = r.refused := .inr ⟨r', hr', rfl⟩
  cases hs with
  | aside step notifier round watches =>
    refine ⟨n, notifier.trans hn, h.keep (fun key => ?_) (fun _ => rfl) rfl rfl ?_⟩
    · rw [show _ = _ from watches]
    · exact fun r' hr' => hsame r' (round ▸ hr')
  | @heard t e n' listening =>
    obtain rfl := hself listening
    refine ⟨_, rfl, h.keep (fun key => ?_) (fun key => ?_) rfl rfl hsame⟩
    · dsimp only
      split
      · rfl
      · exact Option.isSome_map
    · rw [Notifier.publish_eq hattached]
      split <;> rfl
  | @subscribed p' n' id sink found listening new empty =>
    obtain rfl := hself listening
    refine ⟨_, rfl, fun key hkey => ?_, h.refused⟩
    rw [Notifier.lookup_subscribe]
    split
    case isTrue => exact .inl rfl
    case isFalse hne =>
      have hkey : (Function.update l.feed.watches id (some { snapshot := p'.store.snapshot })
          key).isSome = true := hkey
      rw [Function.update_of_ne hne] at hkey
      exact h.registered key hkey
  | @unsubscribed n' listening id =>
    obtain rfl := hself listening
    refine ⟨_, rfl, fun key hkey => ?_, h.refused⟩
    rw [Notifier.lookup_unsubscribe]
    split
    case isTrue hid => exact .inr (.inl (hid ▸ List.mem_append_right _ List.mem_cons_self))
    case isFalse =>
      exact (h.registered key hkey).imp_right (.imp_left (List.mem_append_left _))
  | taken listening first idle =>
    obtain rfl := hself listening
    refine ⟨_, rfl, h.keep (fun _ => rfl) (fun _ => rfl) rfl rfl fun r' hr' => .inl ?_⟩
    rw [← Option.some.inj hr']
  | looked listening busy unlooked =>
    obtain rfl := hself listening
    refine ⟨_, hn, h.keep (fun _ => rfl) (fun _ => rfl) rfl rfl fun r' hr' => .inr ⟨_, busy, ?_⟩⟩
    rw [← Option.some.inj hr']
  | served listening busy next serve =>
    obtain rfl := hself listening
    obtain rfl := congrArg Prod.snd serve
    obtain rfl := congrArg Prod.fst serve
    exact ⟨_, rfl, h.serve busy (isSome_watching _ _) rfl rfl rfl⟩
  | @finished n' r listening busy done =>
    obtain rfl := hself listening
    refine ⟨_, rfl, fun key hkey => ?_, fun r' hr' => nomatch hr'⟩
    rw [Notifier.lookup_expel]
    split
    case isTrue hrefused => exact .inr (.inr (h.refused r busy key hrefused))
    case isFalse => exact h.registered key hkey
  | @received n' _ notes listening id count receive =>
    obtain rfl := hself listening
    obtain rfl := congrArg Prod.snd receive
    have hlookup := @isSome_lookup_onSink R n' id _ (Sink.take count)
    exact ⟨_, rfl, h.keep (isSome_watching _ _) hlookup rfl rfl hsame⟩
  | closed listening id =>
    obtain rfl := hself listening
    exact ⟨_, rfl, h.keep (fun _ => rfl) (isSome_lookup_onSink _) rfl rfl hsame⟩

/-! ### Whole runs -/

structure Sound (capacity : Nat) (l : Ledger R) (n : Notifier R) : Prop where
  tallied : Tallied capacity l n
  ordered : l.InOrder
  serving : l.Serving n
  accounted : l.Accounted n

theorem sound_attached [LawfulRecord R] {f : Feed R}
    (hr : Feed.Reachable data own (fun _ => True) f) (hn : f.notifier = none) :
    Sound capacity { feed := { f with notifier := some (.withCapacity capacity) } }
      (.withCapacity capacity) := by
  obtain ⟨p, hinv⟩ := hr.invariant
  have hround := hinv.idle hn
  obtain ⟨hwatches, hturns⟩ := hr.unheard hn
  obtain ⟨past, hpast⟩ := hinv.ordered.exists_eq_append_ahead hturns
  refine ⟨⟨rfl, Nat.zero_le _, rfl, rfl⟩, ⟨past, ?_⟩, ⟨fun _ _ => rfl, nofun⟩, fun id hid => ?_, ?_⟩
  · rw [List.map_nil, List.append_nil]
    exact hpast
  · have hid : (f.watches id).isSome = true := hid
    rw [hwatches id] at hid
    cases hid
  · intro r hr
    rw [hround] at hr
    cases hr

theorem Sound.step [LawfulRecord R] (h : Sound capacity l n)
    (hr : Feed.Reachable data own (fun _ => True) l.feed) (hn : l.feed.notifier = some n)
    (hs : l.Step data own l') :
    ∃ n', l'.feed.notifier = some n' ∧ Sound capacity l' n' := by
  obtain ⟨p, hinv⟩ := hr.invariant
  have hattached := (hinv.listening n hn).attached
  have hbelow : l.dispatched.Sublist l.feed.committed :=
    (List.sublist_append_left _ _).trans (h.ordered.sublist h.tallied)
  obtain ⟨n', hn', htallied⟩ := h.tallied.step hn hattached hs
  obtain ⟨n₁, hn₁, hserving⟩ := h.serving.step hinv hn hbelow hs
  obtain ⟨n₂, hn₂, haccounted⟩ := h.accounted.step hn hattached hs
  obtain rfl := Option.some.inj (hn'.symm.trans hn₁)
  obtain rfl := Option.some.inj (hn'.symm.trans hn₂)
  exact ⟨n', hn', htallied, h.ordered.step hinv hn hs, hserving, haccounted⟩

theorem Reachable.sound [LawfulRecord R] (hr : Reachable data own capacity l) :
    ∃ n, l.feed.notifier = some n ∧ Sound capacity l n := by
  induction hr with
  | attached reached unattached => exact ⟨_, rfl, sound_attached reached unattached⟩
  | step reached step ih =>
    obtain ⟨n, hn, hsound⟩ := ih
    exact hsound.step reached.feed hn step

/-- The queue never holds more than it may, and an event is dropped if it is full when the listener
is called. So what the listener was called with was dispatched, is in the queue or was dropped, and
what was dispatched stays in the order of the commits. A registered subscription with an open sink
is offered every event that is dispatched and news to it, one after the other, and gets those for
which its sink has room. A subscription is gone only if it was unsubscribed or its sink has reported
that it is closed. -/
theorem overload_drops_newest (e : Entity) {data : Location} {own capacity : Nat}
    {l : Ledger e.Rec} (hr : Reachable data own capacity l) :
    ∃ n, l.feed.notifier = some n ∧ n.capacity = max capacity 1 ∧
      n.queue.length ≤ max capacity 1 ∧
      n.dropped = l.calls.countP Offer.full ∧
      (l.calls.filter fun c => !c.full).map Offer.event = l.dispatched ++ n.queue ∧
      l.calls.length = n.queue.length + l.dispatched.length + n.dropped ∧
      (∃ past, l.feed.committed = past ++ l.calls.map Offer.event ++
        l.feed.turnstile.ahead l.feed.committed) ∧
      l.dispatched.Sublist l.feed.committed ∧
      (∀ id s, n.subscriptions.lookup id = some s → s.sink.isOpen = true →
        ∃ w, l.feed.watches id = some w ∧ s.since = w.snapshot.revision ∧ Serves l id s w) ∧
      (∀ id, (l.feed.watches id).isSome = true →
        (n.subscriptions.lookup id).isSome = true ∨ id ∈ l.unsubscribed ∨ id ∈ l.reported) ∧
      ∀ f, Feed.Step data own (fun _ => True) l.feed f →
        ∃ l', l.Step data own l' ∧ l'.feed = f := by
  obtain ⟨n, hn, htallied, hordered, hserving, haccounted⟩ := hr.sound
  obtain ⟨p, hinv⟩ := hr.feed.invariant
  have hbelow := hordered.sublist htallied
  refine ⟨n, hn, htallied.capacity, htallied.capacity ▸ htallied.room, htallied.dropped,
    htallied.kept, ?_, hordered, (List.sublist_append_left _ _).trans hbelow,
    fun id s hs hopen => ?_, haccounted.registered, fun f hf => exists_step (by rw [hn]; nofun) hf⟩
  · have hkept := congrArg List.length htallied.kept
    have hsplit := List.length_eq_countP_add_countP Offer.full (l := l.calls)
    rw [List.length_map, List.length_append, ← List.countP_eq_length_filter] at hkept
    have hrest : (l.calls.countP fun c => !c.full) = l.calls.countP fun c => ¬ c.full = true := by
      congr 1
      funext c
      cases c.full <;> rfl
    rw [htallied.dropped]
    omega
  · obtain ⟨w, hw, hsince⟩ := (hinv.listening n hn).watched id s hs
    exact ⟨w, hw, hsince, hserving.serves id s w hs hopen hw⟩

/-- Two roles are made, and the queue has room for one event. A subscriber hears of the first, and
the event of the second is dropped. -/
theorem overload_drops_newest_of_two : ∃ (data : Location) (l : Ledger Role) (n : Notifier Role)
    (e₁ e₂ : Event Role) (s : Subscription) (w : Watch Role), Reachable data 0 0 l ∧
    l.feed.notifier = some n ∧ l.feed.committed = [e₁, e₂] ∧
    l.calls = [⟨e₁, false⟩, ⟨e₂, true⟩] ∧ l.dispatched = [e₁] ∧ n.dropped = 1 ∧ n.queue = [] ∧
    n.subscriptions.lookup "s" = some s ∧ s.sink.isOpen = true ∧
    l.feed.watches "s" = some w ∧ w.heard = [.ofEvent "s" e₁] := by
  let data : Location := ⟨["data"], "/data"⟩
  let host : Host := { ids := fun n => if n = 0 then "x" else "y", times := fun _ => .epoch }
  let request (name : String) : Request Role := .create ({ name } : Role.Draft)
  let x : Role := ⟨"x", "first", "", .epoch, .epoch⟩
  let y : Role := ⟨"y", "second", "", .epoch, .epoch⟩
  let e₁ : Event Role := ⟨.created x, 1⟩
  let e₂ : Event Role := ⟨.created y, 2⟩
  have hrun : ((done? (Store.open (R := Role) data host)).bind fun a =>
      (done? ((request "first").run ⟨a.1, a.2, []⟩)).bind fun b =>
      (done? ((request "second").run ⟨b.2.store, b.2.host, []⟩)).map fun c =>
        ([b.1, c.1], [b.2, c.2].map fun desk =>
          desk.commits.map fun k => Ticket.mk k.store.revision k.events)) =
      some ([.created x, .created y], [[⟨1, [e₁]⟩], [⟨2, [e₂]⟩]]) := by
    decide +kernel
  simp only [Option.bind_eq_some_iff, Option.map_eq_some_iff, Prod.exists, Prod.mk.injEq,
    List.map_cons, List.map_nil, List.cons.injEq, and_true, done?_eq_some] at hrun
  obtain ⟨a, h, hopen, _, b, hx, _, c, hy, ⟨rfl, rfl⟩, hfirst, hsecond⟩ := hrun
  obtain ⟨loaded, disk, -, rfl, -⟩ := eq_of_open hopen
  let a : Store Role :=
    { index := Index.ofData Role data, records := loaded.records, digest := loaded.digest }
  let w₁ : World Role :=
    { host := h, processes := Function.update (fun _ => none) 0 (some ⟨a, []⟩) }
  let w₂ := w₁.acted 0 (some (.created x)) ⟨b.store, []⟩ b.host
  let w₃ := w₂.acted 0 (some (.created y)) ⟨c.store, []⟩ c.host
  let n₀ : Notifier Role := .withCapacity 0
  let n₁ := n₀.subscribe "s" a.snapshot.revision (.mailbox { capacity := 1 })
  let n₂ := n₁.publish e₁
  let n₃ := n₂.publish e₂
  let n₄ : Notifier Role := { n₃ with queue := [] }
  let n₅ := (n₄.serve e₁ "s").2
  let watch : Watch Role := { snapshot := a.snapshot }
  let watches : String → Option (Watch Role) := Function.update (fun _ => none) "s" (some watch)
  let missed : String → Option (Watch Role) := fun id => (watches id).map Watch.miss
  let heard : String → Option (Watch Role) :=
    Function.update missed "s" ((missed "s").map (.hear (.ofEvent "s" e₁) (some .kept)))
  let es₁ := b.commits.flatMap Commit.events
  let es₂ := es₁ ++ c.commits.flatMap Commit.events
  let t₀ : Turnstile Role := {}
  let t₁ : Turnstile Role := ⟨[], [], 1⟩
  let t₂ : Turnstile Role := ⟨[], [], 2⟩
  let l₀ : Ledger Role := { feed := ⟨w₁, [], t₀, some n₀, none, fun _ => none⟩ }
  let l₁ : Ledger Role := { feed := ⟨w₁, [], t₀, some n₁, none, watches⟩ }
  let l₂ : Ledger Role := { feed := ⟨w₂, es₁, t₀.join b.commits, some n₁, none, watches⟩ }
  let l₃ : Ledger Role :=
    { feed := ⟨w₂, es₁, t₁, some n₂, none, watches⟩, calls := [⟨e₁, false⟩] }
  let l₄ : Ledger Role :=
    { l₃ with feed := ⟨w₃, es₂, t₁.join c.commits, some n₂, none, watches⟩ }
  let l₅ : Ledger Role :=
    { feed := ⟨w₃, es₂, t₂, some n₃, none, missed⟩, calls := [⟨e₁, false⟩, ⟨e₂, true⟩] }
  let l₆ : Ledger Role :=
    { l₅ with feed := ⟨w₃, es₂, t₂, some n₄, some ⟨e₁, none, []⟩, missed⟩, dispatched := [e₁] }
  let l₇ : Ledger Role :=
    { l₆ with feed := ⟨w₃, es₂, t₂, some n₄, some ⟨e₁, some (n₄.targets e₁), []⟩, missed⟩ }
  let l₈ : Ledger Role := { l₇ with
    feed := ⟨w₃, es₂, t₂, some n₅, some ⟨e₁, some [], []⟩, heard⟩
    offers := Function.update (fun _ => []) "s" [⟨e₁, false⟩] }
  have hr₀ : Reachable data 0 0 l₀ := .attached (.opened trivial .refl rfl hopen) rfl
  have hs₁ : Step data 0 l₀ l₁ := .subscribed (p := ⟨a, []⟩) rfl rfl rfl rfl
  have hs₂ : Step data 0 l₁ l₂ :=
    .aside (.committed (p := ⟨a, []⟩) rfl (.answered hx)) rfl rfl rfl
  have hwaiting₁ : l₂.feed.turnstile = ⟨[⟨1, [e₁]⟩], [], 0⟩ :=
    congrArg (Turnstile.mk · [] 0) hfirst
  have hr₃ : Reachable data 0 0 l₃ := ((hr₀.step hs₁).step hs₂).published rfl hwaiting₁
  have hs₄ : Step data 0 l₃ l₄ :=
    .aside (.committed (p := ⟨b.store, []⟩) rfl (.answered hy)) rfl rfl rfl
  have hwaiting₂ : l₄.feed.turnstile = ⟨[⟨2, [e₂]⟩], [], 1⟩ :=
    congrArg (Turnstile.mk · [] 1) hsecond
  have hr₅ : Reachable data 0 0 l₅ := (hr₃.step hs₄).published rfl hwaiting₂
  have hs₆ : Step data 0 l₅ l₆ := .taken (n := n₃) rfl rfl rfl
  have hs₇ : Step data 0 l₆ l₇ := .looked (n := n₄) (r := ⟨e₁, none, []⟩) rfl rfl rfl
  have htargets : some (n₄.targets e₁) = some ("s" :: []) := rfl
  have hserve : n₄.serve e₁ "s" = (some .kept, n₅) := rfl
  have hs₈ : Step data 0 l₇ l₈ :=
    .served (n := n₄) (r := ⟨e₁, some (n₄.targets e₁), []⟩) rfl rfl htargets hserve
  have hr : Reachable data 0 0 l₈ := ((hr₅.step hs₆).step hs₇).step hs₈
  let mailbox : Mailbox := { capacity := 1, waiting := [.ofEvent "s" e₁] }
  let sub : Subscription := { sink := .mailbox mailbox, since := 0 }
  have hsub : n₅.subscriptions.lookup "s" = some sub := rfl
  obtain ⟨n, hn, -, -, hdropped, -, -, -, -, hserves, -, -⟩ := overload_drops_newest .role hr
  obtain rfl : n₅ = n := Option.some.inj hn
  obtain ⟨w, hw, -, hserved⟩ := hserves "s" sub hsub rfl
  have hes : es₂ = [e₁, e₂] := by
    have hevents (ks : List (Commit Role)) : ks.flatMap Commit.events =
        (ks.map fun k => Ticket.mk k.store.revision k.events).flatMap Ticket.events := by
      rw [List.flatMap_map]
    change b.commits.flatMap Commit.events ++ c.commits.flatMap Commit.events = _
    rw [hevents, hevents, hfirst, hsecond]
    rfl
  exact ⟨data, l₈, n₅, e₁, e₂, sub, w, hr, rfl, hes, rfl, rfl, hdropped, rfl, hsub, rfl, hw,
    hserved.heard⟩

end Ledger

end WorkQueue
