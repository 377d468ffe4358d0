import WorkQueue.Proofs.Notify.Dispatch

/-!
# Subscribers mirror the store

Whatever the order of the steps, what a subscription has got and what is on its way to it are the
events since its snapshot. Those lead from the records of the snapshot to the records of the store,
one legal change after another, and so do the notifications that tell of them.
-/

namespace WorkQueue.Feed

open Store

variable {R : Type} [Record R]

/-- The events since a snapshot lead from its records to those of the store, and tell of records
that are read back from their notifications. -/
structure Mirrors (committed : List (Event R)) (p : Process R) (snapshot : Store.Snapshot R) :
    Prop where
  past : snapshot.revision ≤ p.store.revision
  replay : Change.replay (Record.find? snapshot.records)
    ((news snapshot.revision committed).map Event.change) = some (Record.find? p.store.records)
  regular : ∀ e ∈ news snapshot.revision committed, ∀ r ∈ e.change.value?, Record.Regular r

/-- While every index that is found has distinct ids, each subscriber can follow the store. -/
structure Mirrored (data : Location) (own : Nat) (f : Feed R) (p : Process R) : Prop
    extends f.Invariant own p where
  world : f.world.Sound data
  mirrors : ∀ id w, f.watches id = some w → Mirrors f.committed p w.snapshot

variable {f : Feed R} {n : Notifier R} {committed : List (Event R)}

theorem Mirrors.append {p p' : Process R} {snapshot : Store.Snapshot R} {events : List (Event R)}
    (h : Mirrors committed p snapshot) (hle : p.store.revision ≤ p'.store.revision)
    (hnew : ∀ e ∈ events, p.store.revision < e.revision)
    (hreplay : Change.replay (Record.find? p.store.records) (events.map Event.change) =
      some (Record.find? p'.store.records))
    (hregular : ∀ e ∈ events, ∀ r ∈ e.change.value?, Record.Regular r) :
    Mirrors (committed ++ events) p' snapshot := by
  have hself : news snapshot.revision events = events :=
    news_eq_self fun e he => lt_of_le_of_lt h.past (hnew e he)
  refine ⟨h.past.trans hle, ?_, ?_⟩
  · rw [news_append, hself, List.map_append, Change.replay_append h.replay, hreplay]
  · rw [news_append, hself]
    exact List.forall_mem_append.2 ⟨h.regular, hregular⟩

theorem mirrors_snapshot [LawfulRecord R] {p : Process R} (h : Record.Distinct p.store.records)
    (hbounded : ∀ e ∈ committed, e.revision ≤ p.store.revision) :
    Mirrors committed p p.store.snapshot := by
  have hnone : news p.store.snapshot.revision committed = [] := news_eq_nil hbounded
  refine ⟨Nat.le_refl _, ?_, hnone ▸ List.forall_mem_nil _⟩
  rw [hnone]
  exact congrArg some (h.find?_perm (LawfulRecord.order_perm p.store.records))

/-! ### Every step -/

section Steps

variable {data : Location} {own : Nat} {f' : Feed R} {p : Process R}

omit [Record R] in
/-- What a subscriber was given stays. -/
theorem exists_of_watching {id key : String} {g : Watch R → Watch R} {w : Watch R}
    (hg : ∀ w, (g w).snapshot = w.snapshot) (hw : f.watching id g key = some w) :
    ∃ old, f.watches key = some old ∧ w.snapshot = old.snapshot := by
  by_cases hkey : key = id
  · rw [watching, hkey, Function.update_self] at hw
    obtain ⟨old, hold, rfl⟩ := Option.map_eq_some_iff.1 hw
    exact ⟨old, hkey ▸ hold, hg old⟩
  · rw [watching, Function.update_of_ne hkey] at hw
    exact ⟨w, hw, rfl⟩

/-- A step leaves the store and what was committed alone, and gives nobody another snapshot than the
store's own; or the store takes it. -/
theorem Step.apart_or_commits {allowed : Disk → Prop} (hs : Step data own allowed f f')
    (hfound : f.world.processes own = some p) :
    (f'.world.processes own = some p ∧ f'.committed = f.committed ∧
      ∀ id w, f'.watches id = some w →
        (∃ old, f.watches id = some old ∧ w.snapshot = old.snapshot) ∨
          w.snapshot = p.store.snapshot) ∨
    ∃ p' a commits host, p.Step f.world.host a commits p' host ∧
      f'.world.processes own = some p' ∧
      f'.committed = f.committed ++ commits.flatMap Commit.events ∧ f'.watches = f.watches := by
  cases hs with
  | others step same => exact .inl ⟨same.trans hfound, rfl, fun _ w hw => .inl ⟨w, hw, rfl⟩⟩
  | committed found step =>
    obtain rfl := Option.some.inj (found.symm.trans hfound)
    exact .inr ⟨_, _, _, _, step, Function.update_self .., rfl, rfl⟩
  | heard listening step =>
    refine .inl ⟨hfound, rfl, fun id w hw => .inl ?_⟩
    dsimp only at hw
    split at hw
    · exact ⟨w, hw, rfl⟩
    · obtain ⟨old, hold, rfl⟩ := Option.map_eq_some_iff.1 hw
      exact ⟨old, hold, rfl⟩
  | subscribed found listening new empty =>
    obtain rfl := Option.some.inj (found.symm.trans hfound)
    refine .inl ⟨hfound, rfl, fun id w hw => ?_⟩
    dsimp only at hw
    rw [Function.update_apply] at hw
    split at hw
    · exact .inr (Option.some.inj hw ▸ rfl)
    · exact .inl ⟨w, hw, rfl⟩
  | served listening busy next serve =>
    refine .inl ⟨hfound, rfl, fun id w hw => .inl (exists_of_watching (fun w => ?_) hw)⟩
    unfold Watch.hear
    split <;> rfl
  | received listening id count receive =>
    refine .inl ⟨hfound, rfl, fun id w hw => .inl ?_⟩
    exact exists_of_watching (g := .read _) (fun _ => rfl) hw
  | _ => exact .inl ⟨hfound, rfl, fun _ w hw => .inl ⟨w, hw, rfl⟩⟩

variable [LawfulRecord R]

theorem Step.world_sound (hs : Step data own (Clean R (Index.ofData R data)) f f')
    (h : f.world.Sound data) : f'.world.Sound data := by
  cases hs with
  | others step => exact step.sound h
  | edited clean => exact ⟨h.shared, h.processes, clean⟩
  | committed found step => exact (World.Step.acted found step).sound h
  | _ => exact h

theorem Mirrored.commit (h : f.Mirrored data own p) {p' : Process R} {a : Option (Answer R)}
    {commits : List (Commit R)} {host : Host} {snapshot : Store.Snapshot R}
    (hs : p.Step f.world.host a commits p' host) (hregular : p'.Regular)
    (hmirrors : Mirrors f.committed p snapshot) :
    Mirrors (f.committed ++ commits.flatMap Commit.events) p' snapshot := by
  obtain ⟨hindex, -⟩ := h.world.shared own p h.found
  cases hs.tells (h.world.processes own p h.found) (hindex ▸ h.world.disk) with
  | nothing same revision =>
    have hreplay : Change.replay (Record.find? p.store.records) [] =
        some (Record.find? p'.store.records) := by
      rw [same]
      rfl
    rw [List.flatMap_nil]
    exact hmirrors.append revision.ge (by simp) hreplay (List.forall_mem_nil _)
  | @commit _ c revision stamped store replay present =>
    have hnew : ∀ e ∈ c.events, p.store.revision < e.revision := fun e he => by
      rw [stamped e he]
      exact Nat.lt_succ_self _
    have hle : p.store.revision ≤ p'.store.revision := by
      rw [revision]
      exact Nat.le_succ _
    rw [List.flatMap_singleton]
    exact hmirrors.append hle hnew replay fun e he r hr =>
      hregular.records r (present e he r hr)

theorem Mirrored.step (h : f.Mirrored data own p)
    (hs : Step data own (Clean R (Index.ofData R data)) f f') :
    ∃ p', f'.Mirrored data own p' := by
  obtain ⟨p', hinv⟩ := h.toInvariant.step hs
  have hworld := hs.world_sound h.world
  refine ⟨p', hinv, hworld, fun id w hw => ?_⟩
  rcases hs.apart_or_commits h.found with
    ⟨hfound, hcommitted, hwatches⟩ | ⟨_, a, commits, host, step, hfound, hcommitted, hwatches⟩
  · obtain rfl := Option.some.inj (hfound.symm.trans hinv.found)
    rw [hcommitted]
    rcases hwatches id w hw with ⟨old, hold, hsnapshot⟩ | hsnapshot
    · exact hsnapshot ▸ h.mirrors id old hold
    · have hdistinct := (h.world.processes own p h.found).records
      exact hsnapshot ▸ mirrors_snapshot hdistinct h.ordered.bounded
  · obtain rfl := Option.some.inj (hfound.symm.trans hinv.found)
    obtain ⟨-, hregular⟩ := hworld.shared own _ hinv.found
    rw [hcommitted]
    exact h.commit step hregular (h.mirrors id w (hwatches ▸ hw))

theorem Reachable.mirrored (hr : Reachable data own (Clean R (Index.ofData R data)) f) :
    ∃ p, f.Mirrored data own p := by
  induction hr with
  | @opened host host' w s clean world free run =>
    obtain ⟨p, hinv⟩ := Reachable.invariant (.opened clean world free run)
    have hsound := (World.Step.opened free run).sound (world.sound clean)
    exact ⟨p, hinv, hsound, fun _ _ hw => (nomatch hw)⟩
  | step _ hs ih =>
    obtain ⟨p, hp⟩ := ih
    exact hp.step hs

end Steps

theorem Settled.coming_eq_nil {own : Nat} {p : Process R} (hf : f.Settled)
    (h : f.Invariant own p) (hn : f.notifier = some n) (id : String) :
    f.coming n id = [] := by
  rw [coming, hf.round, hf.queue n hn, h.ordered.ahead_eq_nil hf.waiting hf.turns]
  rfl

/-- A registered subscription whose sink is open, and for which neither the queue nor the sink was
found full, has got one notification for each event since its snapshot, in the order of the commits,
except for those that are still on their way to it. On the map of the snapshot its notifications are
legal one after another. Once everything has been delivered it has got them all, and they lead to
the map of the store. -/
theorem subscribers_mirror_store (e : Entity) {data : Location} {own : Nat} {f : Feed e.Rec}
    {n : Notifier e.Rec} {id : String} {s : Subscription}
    (hr : Reachable data own (Clean e.Rec (Index.ofData e.Rec data)) f)
    (hn : f.notifier = some n) (hs : n.subscriptions.lookup id = some s)
    (hopen : s.sink.isOpen = true) :
    ∃ p w, f.world.processes own = some p ∧ f.watches id = some w ∧
      s.since = w.snapshot.revision ∧ (w.missed = false →
        (news w.snapshot.revision f.committed).map (Notification.ofEvent id) =
          w.heard ++ (news w.snapshot.revision (f.coming n id)).map (Notification.ofEvent id) ∧
        (∀ m, s.sink = .mailbox m → w.heard = w.taken ++ m.waiting) ∧
        (Notification.replay (Record.find? w.snapshot.records) w.heard).isSome ∧
        (f.Settled →
          w.heard = (news w.snapshot.revision f.committed).map (Notification.ofEvent id) ∧
          Notification.replay (Record.find? w.snapshot.records) w.heard =
            some (Record.find? p.store.records))) := by
  obtain ⟨p, h⟩ := hr.mirrored
  have hl := h.listening n hn
  obtain ⟨w, hw, hsince⟩ := hl.watched id s hs
  refine ⟨p, w, h.found, hw, hsince, fun hm => ?_⟩
  obtain ⟨hstream, hmailbox⟩ := hl.follows id s w hs hopen hw hm
  have hmirrors := h.mirrors id w hw
  have hreplay := Notification.replay_ofEvent hmirrors.replay hmirrors.regular id
  have hlegal := hreplay
  rw [hstream] at hlegal
  refine ⟨hstream, hmailbox, Notification.isSome_replay_of_append hlegal, fun hsettled => ?_⟩
  have hall : (news w.snapshot.revision f.committed).map (Notification.ofEvent id) = w.heard := by
    rw [hstream, hsettled.coming_eq_nil h.toInvariant hn id]
    exact List.append_nil _
  exact ⟨hall.symm, hall ▸ hreplay⟩

/-- A subscriber that hears of a role that is made after its snapshot. -/
theorem subscribers_mirror_created : ∃ (data : Location) (f : Feed Role) (n : Notifier Role)
    (s : Subscription) (p : Process Role) (w : Watch Role),
    Reachable data 0 (Clean Role (Index.ofData Role data)) f ∧
    f.notifier = some n ∧ n.subscriptions.lookup "s" = some s ∧ s.sink.isOpen = true ∧ f.Settled ∧
    f.watches "s" = some w ∧ w.missed = false ∧ w.heard.length = 1 ∧ w.snapshot.records = [] ∧
    Notification.replay (Record.find? w.snapshot.records) w.heard =
      some (Record.find? p.store.records) := by
  let data : Location := ⟨["data"], "/data"⟩
  let host : Host := { ids := fun _ => "x", times := fun _ => .epoch }
  let request : Request Role := .create ({ name := "first" } : Role.Draft)
  let x : Role := ⟨"x", "first", "", .epoch, .epoch⟩
  let e : Event Role := ⟨.created x, 1⟩
  have hrun : ((done? (Store.open (R := Role) data host)).bind fun a =>
      (done? (request.run ⟨a.1, a.2, []⟩)).map fun c =>
        (a.1.records, c.1, c.2.commits.map fun c => Ticket.mk c.store.revision c.events)) =
      some ([], .created x, [⟨1, [e]⟩]) := by
    decide +kernel
  simp only [Option.bind_eq_some_iff, Option.map_eq_some_iff, Prod.exists, Prod.mk.injEq,
    done?_eq_some] at hrun
  obtain ⟨a, h₁, hopen, _, desk, hx, hnone, rfl, hticket⟩ := hrun
  obtain ⟨loaded, disk, -, rfl, -⟩ := eq_of_open hopen
  let a : Store Role :=
    { index := Index.ofData Role data, records := loaded.records, digest := loaded.digest }
  let w₁ : World Role :=
    { host := h₁, processes := Function.update (fun _ => none) 0 (some ⟨a, []⟩) }
  let w₂ := w₁.acted 0 (some (.created x)) ⟨desk.store, []⟩ desk.host
  let t : Turnstile Role := {}
  let n₀ : Notifier Role := .withCapacity 1
  let n₁ := n₀.subscribe "s" a.snapshot.revision (.mailbox { capacity := 1 })
  let n₂ := n₁.publish e
  let n₃ : Notifier Role := { n₂ with queue := [] }
  let n₄ := (n₃.serve e "s").2
  let watch : Watch Role := { snapshot := a.snapshot }
  let watches : String → Option (Watch Role) := Function.update (fun _ => none) "s" (some watch)
  let heard : String → Option (Watch Role) :=
    Function.update watches "s" ((watches "s").map (.hear (.ofEvent "s" e) (some .kept)))
  let es := desk.commits.flatMap Commit.events
  let f₀ : Feed Role := ⟨w₁, [], t, none, none, fun _ => none⟩
  let f₁ : Feed Role := ⟨w₁, [], t, some n₀, none, fun _ => none⟩
  let f₂ : Feed Role := ⟨w₁, [], t, some n₁, none, watches⟩
  let f₃ : Feed Role := ⟨w₂, es, t.join desk.commits, some n₁, none, watches⟩
  let f₄ : Feed Role := ⟨w₂, es, ⟨[], [⟨1, [e]⟩], 0⟩, some n₁, none, watches⟩
  let f₅ : Feed Role := ⟨w₂, es, ⟨[], [⟨1, []⟩], 0⟩, some n₂, none, watches⟩
  let f₆ : Feed Role := ⟨w₂, es, ⟨[], [], 1⟩, some n₂, none, watches⟩
  let f₇ : Feed Role := ⟨w₂, es, ⟨[], [], 1⟩, some n₃, some ⟨e, none, []⟩, watches⟩
  let f₈ : Feed Role := ⟨w₂, es, ⟨[], [], 1⟩, some n₃, some ⟨e, some (n₃.targets e), []⟩, watches⟩
  let f₉ : Feed Role := ⟨w₂, es, ⟨[], [], 1⟩, some n₄, some ⟨e, some [], []⟩, heard⟩
  let f : Feed Role := ⟨w₂, es, ⟨[], [], 1⟩, some n₄, none, heard⟩
  let allowed : Disk → Prop := Clean Role (Index.ofData Role data)
  have hclean : allowed host.disk := fun loaded h => by
    have hempty : loaded.records = [] ∧ _ := h
    rw [hempty.1]
    exact List.nodup_nil
  have hr₀ : Reachable data 0 allowed f₀ := .opened hclean .refl rfl hopen
  have hr₁ : Reachable data 0 allowed f₁ := .step hr₀ (.attached 1 rfl)
  have hs₂ : Step data 0 allowed f₁ f₂ := .subscribed (p := ⟨a, []⟩) (n := n₀) rfl rfl rfl rfl
  have hs₃ : Step data 0 allowed f₂ f₃ := .committed (p := ⟨a, []⟩) rfl (.answered hx)
  have hwaiting : f₃.turnstile.waiting = [] ++ ⟨1, [e]⟩ :: [] := hticket
  have hs₄ : Step data 0 allowed f₃ f₄ := .entered (.enter hwaiting (Nat.lt_irrefl 1))
  have hturn : f₄.turnstile.turns = [] ++ ⟨1, e :: []⟩ :: [] := rfl
  have hs₅ : Step data 0 allowed f₄ f₅ := .heard (n := n₁) rfl (.hear hturn)
  have hended : f₅.turnstile.turns = [] ++ ⟨1, []⟩ :: [] := rfl
  have hs₆ : Step data 0 allowed f₅ f₆ := .left (.leave hended)
  have hs₇ : Step data 0 allowed f₆ f₇ := .taken (n := n₂) rfl rfl rfl
  have hs₈ : Step data 0 allowed f₇ f₈ := .looked (r := ⟨e, none, []⟩) rfl rfl rfl
  have htargets : some (n₃.targets e) = some ("s" :: []) := rfl
  have hserve : n₃.serve e "s" = (some .kept, n₄) := rfl
  have hs₉ : Step data 0 allowed f₈ f₉ :=
    .served (r := ⟨e, some (n₃.targets e), []⟩) rfl rfl htargets hserve
  have hs : Step data 0 allowed f₉ f := .finished (r := ⟨e, some [], []⟩) rfl rfl rfl
  have hr : Reachable data 0 allowed f := by
    have hr₃ := Reachable.step (.step hr₁ hs₂) hs₃
    have hr₆ := Reachable.step (.step (.step hr₃ hs₄) hs₅) hs₆
    exact .step (.step (.step (.step hr₆ hs₇) hs₈) hs₉) hs
  have hsettled : f.Settled := ⟨rfl, rfl, fun n hn => Option.some.inj hn ▸ rfl, rfl⟩
  let mailbox : Mailbox := { capacity := 1, waiting := [.ofEvent "s" e] }
  let sub : Subscription := { sink := .mailbox mailbox, since := 0 }
  have hsub : n₄.subscriptions.lookup "s" = some sub := rfl
  obtain ⟨p, w, -, hw, -, hmirror⟩ := subscribers_mirror_store .role hr rfl hsub rfl
  obtain rfl : watch.hear (.ofEvent "s" e) (some .kept) = w := Option.some.inj hw
  obtain ⟨-, -, -, hall⟩ := hmirror rfl
  have hrecords : watch.snapshot.records = [] := by
    change Record.order loaded.records = []
    rw [show loaded.records = [] from hnone]
    rfl
  exact ⟨data, f, n₄, sub, p, _, hr, rfl, rfl, rfl, hsettled, hw, rfl, rfl, hrecords,
    (hall hsettled).2⟩

end WorkQueue.Feed
