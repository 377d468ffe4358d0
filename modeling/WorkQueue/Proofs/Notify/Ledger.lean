import WorkQueue.Proofs.Notify.Dispatch

/-!
# What a notifier was called with, and what became of it

Beside a feed whose notifier listens, a ledger keeps what the listener was called with, what the
dispatcher has taken out of the queue, and what each sink was offered, each time with whether there
was room. The queue holds no more than it may, and what the listener was called with while it was
full was dropped and counted. The rest went through the queue in the order of the commits.
-/

namespace WorkQueue

open Store

/-- An event as it was offered, and whether there was no room for it. -/
structure Offer (R : Type) where
  event : Event R
  full : Bool

structure Ledger (R : Type) where
  feed : Feed R
  /-- what the listener was called with since it was attached -/
  calls : List (Offer R) := []
  /-- what the dispatcher has taken out of the queue -/
  dispatched : List (Event R) := []
  /-- what the sink of each subscription was offered -/
  offers : String → List (Offer R) := fun _ => []
  /-- the ids that were to be unsubscribed -/
  unsubscribed : List String := []
  /-- the subscriptions whose sinks have reported that they are closed -/
  reported : List String := []

namespace Sink

def isFull : Sink → Bool
  | mailbox m => m.capacity ≤ m.waiting.length
  | log => false

end Sink

namespace Notifier

variable {R : Type}

/-- What the queue is about. -/
def flow (n : Notifier R) : Nat × List (Event R) × Nat := (n.capacity, n.queue, n.dropped)

def isFull (n : Notifier R) : Bool := n.capacity ≤ n.queue.length

/-- Whether the sink of a subscription is full. -/
def isSinkFull (n : Notifier R) (id : String) : Bool :=
  (n.subscriptions.lookup id).any (·.sink.isFull)

theorem flow_onSink {α : Type} (n : Notifier R) (id : String) (f : Sink → α × Sink) :
    (n.onSink id f).2.flow = n.flow := by
  unfold onSink
  split
  · rfl
  · split <;> rfl

theorem flow_receive (n : Notifier R) (id : String) (count : Nat) :
    (n.receive id count).2.flow = n.flow := n.flow_onSink id (Sink.take count)

theorem flow_unsubscribe (n : Notifier R) (id : String) : (n.unsubscribe id).2.flow = n.flow := by
  unfold unsubscribe
  split <;> rfl

theorem flow_expel (n : Notifier R) (ids : List String) : (n.expel ids).flow = n.flow := by
  induction ids generalizing n with
  | nil => rfl
  | cons id ids ih => exact (ih _).trans (n.flow_unsubscribe id)

theorem publish_eq {n : Notifier R} (h : n.isAttached = true) (e : Event R) :
    n.publish e = if n.isFull then { n with dropped := n.dropped + 1 }
      else { n with queue := n.queue ++ [e] } := by
  by_cases hroom : n.queue.length < n.capacity
  · simp [publish, h, isFull, hroom]
  · simp [publish, h, isFull, hroom]

/-- A notifier that listens does not stay as it is when it is called. -/
theorem publish_ne {n : Notifier R} (h : n.isAttached = true) (e : Event R) : n.publish e ≠ n := by
  intro hsame
  have hsize := congrArg (fun n => n.queue.length + n.dropped) hsame
  rw [publish_eq h] at hsize
  split at hsize <;> simp at hsize

end Notifier

namespace Ledger

variable {R : Type} [Record R]

/-- One step of anyone, and what is noted of it. Others may do anything to the data directory, also
bring an id into the index twice. -/
inductive Step (data : Location) (own : Nat) (l : Ledger R) : Ledger R → Prop where
  /-- a step in which the notifier and those who listen to it have no part -/
  | aside {f : Feed R} (step : Feed.Step data own (fun _ => True) l.feed f)
      (notifier : f.notifier = l.feed.notifier) (round : f.round = l.feed.round)
      (watches : f.watches = l.feed.watches) : Step data own l { l with feed := f }
  | heard {t : Turnstile R} {e : Event R} {n : Notifier R} (listening : l.feed.notifier = some n)
      (step : l.feed.turnstile.Step true (.heard e) t) :
      Step data own l { l with
        feed := { l.feed with
          turnstile := t
          notifier := some (n.publish e)
          watches := if n.queue.length < n.capacity then l.feed.watches
            else fun id => (l.feed.watches id).map Watch.miss }
        calls := l.calls ++ [⟨e, n.isFull⟩] }
  | subscribed {p : Process R} {n : Notifier R} {id : String} {sink : Sink}
      (found : l.feed.world.processes own = some p) (listening : l.feed.notifier = some n)
      (new : l.feed.watches id = none) (empty : sink.waiting = []) :
      Step data own l { l with
        feed := { l.feed with
          notifier := some (n.subscribe id p.store.snapshot.revision sink)
          watches := Function.update l.feed.watches id (some { snapshot := p.store.snapshot }) } }
  | unsubscribed {n : Notifier R} (listening : l.feed.notifier = some n) (id : String) :
      Step data own l { l with
        feed := { l.feed with notifier := some (n.unsubscribe id).2 }
        unsubscribed := l.unsubscribed ++ [id] }
  | taken {n : Notifier R} {e : Event R} {queue : List (Event R)}
      (listening : l.feed.notifier = some n) (first : n.queue = e :: queue)
      (idle : l.feed.round = none) :
      Step data own l { l with
        feed := { l.feed with notifier := some { n with queue }, round := some { event := e } }
        dispatched := l.dispatched ++ [e] }
  | looked {n : Notifier R} {r : Round R} (listening : l.feed.notifier = some n)
      (busy : l.feed.round = some r) (unlooked : r.left = none) :
      Step data own l { l with
        feed := { l.feed with round := some { r with left := some (n.targets r.event) } } }
  | served {n n' : Notifier R} {r : Round R} {id : String} {ids : List String}
      {outcome : Option Mailbox.Delivery} (listening : l.feed.notifier = some n)
      (busy : l.feed.round = some r) (next : r.left = some (id :: ids))
      (serve : n.serve r.event id = (outcome, n')) :
      Step data own l { l with
        feed := { l.feed with
          notifier := some n'
          round := some { r with
            left := some ids
            refused := if outcome = some .refused then r.refused ++ [id] else r.refused }
          watches := l.feed.watching id (.hear (.ofEvent id r.event) outcome) }
        offers := Function.update l.offers id (l.offers id ++ [⟨r.event, n.isSinkFull id⟩])
        reported := if outcome = some .refused then l.reported ++ [id] else l.reported }
  | finished {n : Notifier R} {r : Round R} (listening : l.feed.notifier = some n)
      (busy : l.feed.round = some r) (done : r.left = some []) :
      Step data own l { l with
        feed := { l.feed with notifier := some (n.expel r.refused), round := none } }
  | received {n n' : Notifier R} {notes : List Notification} (listening : l.feed.notifier = some n)
      (id : String) (count : Nat) (receive : n.receive id count = (notes, n')) :
      Step data own l { l with
        feed := { l.feed with notifier := some n', watches := l.feed.watching id (.read notes) } }
  | closed {n : Notifier R} (listening : l.feed.notifier = some n) (id : String) :
      Step data own l { l with feed := { l.feed with notifier := some (n.closeReceiver id) } }

variable {data : Location} {own capacity : Nat} {l l' : Ledger R} {n : Notifier R} {p : Process R}

/-- Nothing but steps of the feed is noted. -/
theorem Step.feed (h : l.Step data own l') :
    Feed.Step data own (fun _ => True) l.feed l'.feed := by
  cases h with
  | aside step => exact step
  | heard listening step => exact .heard listening step
  | subscribed found listening new empty => exact .subscribed found listening new empty
  | unsubscribed listening id => exact .unsubscribed listening id
  | taken listening first idle => exact .taken listening first idle
  | looked listening busy unlooked => exact .looked listening busy unlooked
  | served listening busy next serve => exact .served listening busy next serve
  | finished listening busy done => exact .finished listening busy done
  | received listening id count receive => exact .received listening id count receive
  | closed listening id => exact .closed listening id

/-- No step of the feed is left out. -/
theorem exists_step {f : Feed R} (hn : l.feed.notifier ≠ none)
    (h : Feed.Step data own (fun _ => True) l.feed f) :
    ∃ l', l.Step data own l' ∧ l'.feed = f := by
  have haside {f : Feed R} (step : Feed.Step data own (fun _ => True) l.feed f)
      (notifier : f.notifier = l.feed.notifier) (round : f.round = l.feed.round)
      (watches : f.watches = l.feed.watches) : ∃ l', l.Step data own l' ∧ l'.feed = f :=
    ⟨_, .aside step notifier round watches, rfl⟩
  cases h with
  | others step same => exact haside (.others step same) rfl rfl rfl
  | edited edit => exact haside (.edited edit) rfl rfl rfl
  | committed found step => exact haside (.committed found step) rfl rfl rfl
  | attached _ unattached => exact absurd unattached hn
  | entered step => exact haside (.entered step) rfl rfl rfl
  | heard listening step => exact ⟨_, .heard listening step, rfl⟩
  | left step => exact haside (.left step) rfl rfl rfl
  | subscribed found listening new empty => exact ⟨_, .subscribed found listening new empty, rfl⟩
  | unsubscribed listening id => exact ⟨_, .unsubscribed listening id, rfl⟩
  | taken listening first idle => exact ⟨_, .taken listening first idle, rfl⟩
  | looked listening busy unlooked => exact ⟨_, .looked listening busy unlooked, rfl⟩
  | served listening busy next serve => exact ⟨_, .served listening busy next serve, rfl⟩
  | finished listening busy done => exact ⟨_, .finished listening busy done, rfl⟩
  | received listening id count receive => exact ⟨_, .received listening id count receive, rfl⟩
  | closed listening id => exact ⟨_, .closed listening id, rfl⟩

/-- The ledger of a notifier from when it was attached. -/
inductive Reachable (data : Location) (own capacity : Nat) : Ledger R → Prop where
  | attached {f : Feed R} (reached : Feed.Reachable data own (fun _ => True) f)
      (unattached : f.notifier = none) :
      Reachable data own capacity { feed := { f with notifier := some (.withCapacity capacity) } }
  | step {l l' : Ledger R} (reached : Reachable data own capacity l) (step : l.Step data own l') :
      Reachable data own capacity l'

theorem Reachable.feed (h : Reachable data own capacity l) :
    Feed.Reachable data own (fun _ => True) l.feed := by
  induction h with
  | attached reached unattached => exact .step reached (.attached capacity unattached)
  | step _ step ih => exact .step ih step.feed

/-- The writer of the only event that waits goes through its turn. -/
theorem Reachable.published {e : Event R} {k : Nat} (hr : Reachable data own capacity l)
    (hn : l.feed.notifier = some n) (hwaiting : l.feed.turnstile = ⟨[⟨k + 1, [e]⟩], [], k⟩) :
    Reachable data own capacity { l with
      feed := { l.feed with
        turnstile := ⟨[], [], k + 1⟩
        notifier := some (n.publish e)
        watches := if n.queue.length < n.capacity then l.feed.watches
          else fun id => (l.feed.watches id).map Watch.miss }
      calls := l.calls ++ [⟨e, n.isFull⟩] } := by
  obtain ⟨⟨world, committed, t, notifier, round, watches⟩, calls, dispatched, offers⟩ := l
  obtain rfl : notifier = some n := hn
  obtain rfl : t = ⟨[⟨k + 1, [e]⟩], [], k⟩ := hwaiting
  have honly (ticket : Ticket R) : [ticket] = [] ++ ticket :: [] := rfl
  have hentered := hr.step (.aside (.entered (.enter (honly _) (Nat.lt_irrefl _))) rfl rfl rfl)
  have hheard := hentered.step (.heard rfl (.hear (honly _)))
  have hleft := hheard.step (.aside (.left (.leave (honly _))) rfl rfl rfl)
  have hmax : max k (k + 1) = k + 1 := Nat.max_eq_right (Nat.le_succ k)
  rw [hmax] at hleft
  exact hleft

/-! ### The queue -/

/-- What the listener was called with is in the queue, was dispatched, or found the queue full. -/
structure Tallied (capacity : Nat) (l : Ledger R) (n : Notifier R) : Prop where
  capacity : n.capacity = max capacity 1
  room : n.queue.length ≤ n.capacity
  kept : (l.calls.filter fun c => !c.full).map Offer.event = l.dispatched ++ n.queue
  dropped : n.dropped = l.calls.countP Offer.full

omit [Record R] in
theorem Tallied.of_flow (h : Tallied capacity l n) {n' : Notifier R} (hflow : n'.flow = n.flow)
    (hcalls : l'.calls = l.calls) (hdispatched : l'.dispatched = l.dispatched) :
    Tallied capacity l' n' := by
  obtain ⟨hcapacity, hqueue, hdropped⟩ := by
    simpa only [Notifier.flow, Prod.mk.injEq] using hflow
  exact ⟨hcapacity.trans h.capacity, hqueue ▸ hcapacity ▸ h.room,
    by rw [hcalls, hdispatched, hqueue, h.kept], by rw [hcalls, hdropped, h.dropped]⟩

theorem Tallied.step [LawfulRecord R] (h : Tallied capacity l n)
    (hn : l.feed.notifier = some n) (hattached : n.isAttached = true) (hs : l.Step data own l') :
    ∃ n', l'.feed.notifier = some n' ∧ Tallied capacity l' n' := by
  have hself {n' : Notifier R} (hn' : l.feed.notifier = some n') : n' = n :=
    Option.some.inj (hn'.symm.trans hn)
  cases hs with
  | aside _ notifier => exact ⟨n, notifier.trans hn, h.of_flow rfl rfl rfl⟩
  | @heard t e n' listening =>
    obtain rfl := hself listening
    refine ⟨_, rfl, ?_⟩
    rw [Notifier.publish_eq hattached]
    by_cases hfull : n'.isFull = true
    · rw [if_pos hfull, hfull]
      refine ⟨h.capacity, h.room, ?_, ?_⟩
      · simpa using h.kept
      · simp [h.dropped]
    · have hroom : n'.queue.length < n'.capacity := by simpa [Notifier.isFull] using hfull
      rw [if_neg hfull, Bool.eq_false_iff.2 hfull]
      refine ⟨h.capacity, by simpa [Nat.succ_le_iff] using hroom, ?_, ?_⟩
      · simp [h.kept]
      · simp [h.dropped]
  | subscribed _ listening => exact ⟨_, rfl, hself listening ▸ h.of_flow rfl rfl rfl⟩
  | unsubscribed listening id =>
    obtain rfl := hself listening
    exact ⟨_, rfl, h.of_flow (Notifier.flow_unsubscribe ..) rfl rfl⟩
  | taken listening first =>
    obtain rfl := hself listening
    refine ⟨_, rfl, h.capacity, ?_, ?_, h.dropped⟩
    · have hroom := h.room
      rw [first] at hroom
      exact Nat.le_of_succ_le hroom
    · rw [h.kept, first]
      exact List.append_cons ..
  | looked => exact ⟨n, hn, h.of_flow rfl rfl rfl⟩
  | served listening _ _ serve =>
    obtain rfl := hself listening
    rw [Notifier.serve_eq] at serve
    obtain rfl := congrArg Prod.snd serve
    exact ⟨_, rfl, h.of_flow (Notifier.flow_onSink ..) rfl rfl⟩
  | finished listening =>
    obtain rfl := hself listening
    exact ⟨_, rfl, h.of_flow (Notifier.flow_expel ..) rfl rfl⟩
  | received listening _ _ receive =>
    obtain rfl := hself listening
    obtain rfl := congrArg Prod.snd receive
    exact ⟨_, rfl, h.of_flow (Notifier.flow_receive ..) rfl rfl⟩
  | closed listening id =>
    obtain rfl := hself listening
    exact ⟨_, rfl, h.of_flow (Notifier.flow_onSink ..) rfl rfl⟩

/-! ### The order of the commits -/

/-- What the listener was called with since it was attached, and what it will be called with yet,
come one after the other among the committed events. -/
def InOrder (l : Ledger R) : Prop :=
  ∃ past, l.feed.committed =
    past ++ l.calls.map Offer.event ++ l.feed.turnstile.ahead l.feed.committed

end Ledger

namespace Store.Turnstile

variable {R : Type} {t : Turnstile R} {committed : List (Event R)} {latest : Nat}

/-- A history that is sorted by revisions is cut in two at any of them. -/
theorem filter_le_append_filter_lt (h : committed.Pairwise fun e e' => e.revision ≤ e'.revision)
    (r : Nat) :
    (committed.filter fun e => e.revision ≤ r) ++ (committed.filter fun e => r < e.revision) =
      committed := by
  induction committed with
  | nil => rfl
  | cons e committed ih =>
    obtain ⟨hle, hrest⟩ := List.pairwise_cons.1 h
    by_cases hr : e.revision ≤ r
    · simpa [hr, Nat.not_lt.2 hr] using ih hrest
    · have hlater : ∀ e' ∈ committed, r < e'.revision :=
        fun e' he' => Nat.lt_of_lt_of_le (Nat.not_le.1 hr) (hle e' he')
      have hnone : (committed.filter fun e' => e'.revision ≤ r) = [] :=
        List.filter_eq_nil_iff.2 fun e' he' => by simpa using hlater e' he'
      have hall : (committed.filter fun e' => r < e'.revision) = committed :=
        List.filter_eq_self.2 fun e' he' => by simpa using hlater e' he'
      simp [hr, Nat.not_le.1 hr, hnone, hall]

/-- Where no turn has events left, listeners will be called with the last of the commits. -/
theorem Ordered.exists_eq_append_ahead (h : t.Ordered committed latest)
    (hquiet : ∀ turn ∈ t.turns, turn.events = []) :
    ∃ past, committed = past ++ t.ahead committed := by
  have hnone : t.turns.flatMap Ticket.events = [] := List.flatMap_eq_nil_iff.2 hquiet
  rw [ahead, hnone, List.nil_append]
  exact ⟨_, (filter_le_append_filter_lt h.sorted _).symm⟩

end Store.Turnstile

namespace Feed

variable {R : Type} [Record R] {data : Location} {own : Nat} {allowed : Disk → Prop}
  {f f' : Feed R} {p : Process R}

/-- While nobody listens there is no subscriber, and a turn that is open has no events. -/
def Unheard (f : Feed R) : Prop :=
  f.notifier = none →
    (∀ id, f.watches id = none) ∧ ∀ turn ∈ f.turnstile.turns, turn.events = []

theorem Reachable.unheard (h : Reachable data own allowed f) : f.Unheard := by
  induction h with
  | opened => exact fun _ => ⟨fun _ => rfl, fun _ hturn => absurd hturn List.not_mem_nil⟩
  | @step f f' _ hs ih =>
    cases hs with
    | others | edited | committed => exact ih
    | @entered t step =>
      intro hn
      refine ⟨(ih hn).1, fun turn hturn => ?_⟩
      rw [show f.notifier.isSome = false by rw [show f.notifier = none from hn]; rfl] at step
      cases step with
      | enter =>
        rcases List.mem_append.1 hturn with hturn | hturn
        · exact (ih hn).2 turn hturn
        · rw [List.mem_singleton.1 hturn]
          rfl
    | @left t step =>
      intro hn
      refine ⟨(ih hn).1, fun turn hturn => ?_⟩
      cases step with
      | leave turns =>
        apply (ih hn).2 turn
        rw [turns]
        rcases List.mem_append.1 hturn with hturn | hturn
        · exact List.mem_append_left _ hturn
        · exact List.mem_append_right _ (List.mem_cons_of_mem _ hturn)
    | looked listening => exact fun hn => absurd (listening.symm.trans hn) nofun
    | _ => exact fun hn => nomatch hn

/-- Where the notifier is left alone, what is committed is what the listener will be called with
beyond what it will be called with anyway. -/
theorem Invariant.ahead_of_aside [LawfulRecord R] (h : f.Invariant own p) {n : Notifier R}
    (hn : f.notifier = some n) (hs : Step data own allowed f f')
    (hsame : f'.notifier = f.notifier) :
    ∃ events, f'.committed = f.committed ++ events ∧
      f'.turnstile.ahead f'.committed = f.turnstile.ahead f.committed ++ events := by
  have hkept {t : Turnstile R} (ht : f.turnstile.ahead f.committed = t.ahead f.committed) :
      ∃ events, f.committed = f.committed ++ events ∧
        t.ahead f.committed = f.turnstile.ahead f.committed ++ events :=
    ⟨[], (List.append_nil _).symm, by rw [ht, List.append_nil]⟩
  have hlistening : f.notifier.isSome = true := by rw [hn]; rfl
  cases hs with
  | @committed p' p'' a commits host found step =>
    obtain rfl := Option.some.inj (found.symm.trans h.found)
    rcases step.numbered with ⟨rfl, -⟩ | ⟨c, rfl, -, -, hstamped⟩
    · have hjoin : f.turnstile.join ([] : List (Commit R)) = f.turnstile := by
        simp [Turnstile.join]
      rw [List.flatMap_nil, List.append_nil, hjoin]
      exact hkept rfl
    · rw [List.flatMap_singleton]
      exact ⟨c.events, rfl, h.ordered.ahead_join hstamped⟩
  | attached _ unattached => cases unattached.symm.trans hn
  | entered step =>
    rw [hlistening] at step
    exact hkept (step.ahead_eq h.ordered (by simp))
  | left step =>
    rw [hlistening] at step
    exact hkept (step.ahead_eq h.ordered (by simp))
  | heard listening =>
    have hpublish := Option.some.inj (hsame.trans listening)
    exact absurd hpublish (Notifier.publish_ne (h.listening _ listening).attached _)
  | _ => exact hkept rfl

end Feed

namespace Ledger

variable {R : Type} [Record R] {data : Location} {own capacity : Nat} {l l' : Ledger R}
  {n : Notifier R} {p : Process R}

theorem InOrder.step [LawfulRecord R] (h : l.InOrder) (hinv : l.feed.Invariant own p)
    (hn : l.feed.notifier = some n) (hs : l.Step data own l') : l'.InOrder := by
  obtain ⟨past, hpast⟩ := h
  cases hs with
  | aside step notifier =>
    obtain ⟨events, hcommitted, hahead⟩ := hinv.ahead_of_aside hn step notifier
    refine ⟨past, ?_⟩
    rw [hahead, ← List.append_assoc, ← hpast, hcommitted]
  | heard listening step =>
    have hahead := step.ahead_eq hinv.ordered nofun
    refine ⟨past, hpast.trans ?_⟩
    rw [hahead]
    simp [Turnstile.Act.events]
  | _ => exact ⟨past, hpast⟩

omit [Record R] in
theorem InOrder.sublist (h : l.InOrder) (ht : Tallied capacity l n) :
    (l.dispatched ++ n.queue).Sublist l.feed.committed := by
  obtain ⟨past, hpast⟩ := h
  have hcalls : (l.dispatched ++ n.queue).Sublist (l.calls.map Offer.event) := by
    rw [← ht.kept]
    exact List.filter_sublist.map _
  rw [hpast]
  exact (hcalls.trans (List.sublist_append_right past _)).trans (List.sublist_append_left _ _)

end Ledger

end WorkQueue
