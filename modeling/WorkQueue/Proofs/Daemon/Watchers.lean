import Mathlib.Data.Finset.Basic
import Mathlib.Data.Finset.Lattice.Lemmas
import Mathlib.Logic.Relation
import WorkQueue.Daemon.Watching
import WorkQueue.Proofs.Daemon.Shared
import WorkQueue.Proofs.Keyed

/-!
# All watchers or none

The watchers of a daemon are started one after another, and each may be refused. A watcher that is
watching already refuses to be started, so those that were started before the refused one were not
watching before the call, and stopping them leaves what was there. From a daemon that was just
opened, starting and shutting down therefore never leave some of the watchers watching and others
not, whatever else happens to the fleet in between.
-/

namespace WorkQueue

open Watch

theorem Entity.mem_all (e : Entity) : e ∈ all := by
  cases e <;> decide

/-- These are the entities whose watchers are watching. -/
def Daemon.Watches (d : Daemon) (v : Finset Entity) : Prop :=
  ∀ e, (d.watchers.get e).any (·.isWatching) = decide (e ∈ v)

namespace Fleet

/-- Asked for each entity, the watchers of a daemon answer that these are watched. -/
def Watches (i : Nat) (v : Finset Entity) (fleet : Fleet) : Prop :=
  ∀ e, isWatching i e fleet = .ok (decide (e ∈ v)) fleet

variable {fleet fleet' : Fleet} {i j : Nat} {e : Entity} {v : Finset Entity}
  {failed : Interrupted → Fleet → Prop}

theorem watcher_eq (i : Nat) (e : Entity) : watcher i e =
    daemon i >>= fun d => pure ((d.watchers.get e).getD (.withWindow defaultWindow)) := by
  rw [watcher]
  refine bind_congr fun d => ?_
  cases d.watchers.get e <;> rfl

theorem isWatching_getD (w : Option Watcher) :
    (w.getD (.withWindow defaultWindow)).isWatching = w.any (·.isWatching) := by
  cases w <;> rfl

theorem leads_isWatching : Leads (isWatching i e) fleet
    (fun b fleet' => fleet' = fleet ∧ ∃ d, fleet.daemons[i]? = some d ∧
      b = (d.watchers.get e).any (·.isWatching))
    (fun _ _ => fleet.daemons[i]? = none) := by
  rw [isWatching, watcher_eq, bind_assoc]
  apply leads_daemon_bind_of id
  intro d hd
  exact ⟨rfl, d, hd, isWatching_getD _⟩

theorem watches_iff :
    Watches i v fleet ↔ ∃ d, fleet.daemons[i]? = some d ∧ d.Watches v := by
  constructor
  · intro h
    obtain ⟨-, d, hd, -⟩ := leads_isWatching.of_ok (h .work)
    refine ⟨d, hd, fun e => ?_⟩
    obtain ⟨-, d', hd', hv⟩ := leads_isWatching.of_ok (h e)
    obtain rfl := Option.some.inj (hd.symm.trans hd')
    exact hv.symm
  · rintro ⟨d, hd, hv⟩ e
    have hasked : Leads (isWatching i e) fleet
        (fun b fleet' => b = decide (e ∈ v) ∧ fleet' = fleet) fun _ _ => False := by
      refine leads_isWatching.mono ?_ fun _ _ hnone => by simp [hd] at hnone
      rintro b fleet' ⟨rfl, d', hd', rfl⟩
      obtain rfl := Option.some.inj (hd.symm.trans hd')
      exact ⟨hv e, rfl⟩
    obtain ⟨_, _, hrun, rfl, rfl⟩ := hasked.exists_ok
    exact hrun

/-! ### One watcher -/

namespace Watches

theorem unique {v' : Finset Entity} (h : Watches i v fleet) (h' : Watches i v' fleet) :
    v = v' := by
  ext e
  have hsame := (h e).symm.trans (h' e)
  rw [EStateM.Result.ok.injEq, decide_eq_decide] at hsame
  exact hsame.1

theorem of_daemons_eq (h : Watches i v fleet) (hd : fleet'.daemons = fleet.daemons) :
    Watches i v fleet' := by
  rw [watches_iff, hd]
  exact watches_iff.1 h

theorem modifyDaemon (h : Watches i v fleet) {f : Daemon → Daemon}
    (hf : ∀ d, fleet.daemons[j]? = some d → d.Watches v → (f d).Watches v) :
    Watches i v { fleet with daemons := fleet.daemons.modify j f } := by
  obtain ⟨d, hd, hv⟩ := watches_iff.1 h
  apply watches_iff.2
  by_cases hj : j = i
  · subst hj
    exact ⟨f d, by simp [hd], hf d hd hv⟩
  · exact ⟨d, by simp [hj, hd], hv⟩

theorem leads_watcher (h : Watches i v fleet) : Leads (watcher i e) fleet
    (fun w fleet' => fleet' = fleet ∧ w.isWatching = decide (e ∈ v)) failed := by
  obtain ⟨d, hd, hv⟩ := watches_iff.1 h
  rw [watcher_eq, leads_daemon_bind hd]
  exact ⟨rfl, (isWatching_getD _).trans (hv e)⟩

theorem leads_setWatcher (h : Watches i v fleet) {w : Watcher} {v' : Finset Entity}
    (hself : w.isWatching = decide (e ∈ v')) (hothers : ∀ e', e' ≠ e → (e' ∈ v ↔ e' ∈ v')) :
    Leads (setWatcher i e w) fleet (fun _ => Watches i v') failed := by
  obtain ⟨d, hd, hv⟩ := watches_iff.1 h
  apply (leads_modify _).2
  refine watches_iff.2 ⟨{ d with watchers := d.watchers.set e (some w) }, by simp [hd], ?_⟩
  intro e'
  by_cases he : e' = e
  · subst he
    rw [PerEntity.get_set]
    exact hself
  · rw [PerEntity.get_set_of_ne _ _ he, hv, decide_eq_decide]
    exact hothers e' he

/-- A call that only looks at the disk or changes it announces nothing, so that no listener can
interrupt it. -/
theorem leads_onDisk (h : Watches i v fleet) (a : Index.Act Unit) :
    Leads (perform i e (Store.onDisk a)) fleet (fun _ => Watches i v) failed := by
  obtain ⟨d, hd, -⟩ := watches_iff.1 h
  have hend (x : Except StoreError Unit) (disk : Disk) : Leads (conclude i e
      ⟨d.stores.get e, { fleet.host with disk }, []⟩ x) fleet (fun _ => Watches i v) failed := by
    change Leads (replace i e _ x) fleet _ _
    apply (leads_bind _ _).2
    apply (leads_modify _).2
    refine Watches.of_daemons_eq (h.modifyDaemon ?_) rfl
    exact fun _ _ hv => hv
  apply leads_perform_of
  · intro hnone
    simp [hd] at hnone
  intro d' hd'
  obtain rfl := Option.some.inj (hd.symm.trans hd')
  -- nothing was committed, so that the call ends with what it left on the desk
  rw [Store.leads_onDisk]
  exact leads_iff.2 ⟨fun _ disk _ => hend _ disk, fun _ disk _ => hend _ disk⟩

/-- A watcher that is watching refuses to be started, and nothing happens. -/
theorem startWatcher_eq_of_mem (h : Watches i v fleet) (he : e ∈ v) :
    startWatcher i e fleet = .ok (.error (.alreadyWatching e.name)) fleet := by
  have hrefused : Leads (startWatcher i e) fleet (fun result fleet' =>
      result = .error (.alreadyWatching e.name) ∧ fleet' = fleet) fun _ _ => False := by
    rw [startWatcher]
    apply h.leads_watcher.bind
    rintro w _ ⟨rfl, hw⟩
    rw [if_pos (hw.trans (decide_eq_true he))]
    exact (leads_pure _).2 ⟨rfl, rfl⟩
  obtain ⟨_, _, hrun, rfl, rfl⟩ := hrefused.exists_ok
  exact hrun

/-- A watcher that is not watching is started, or it is refused and stays as it was. -/
theorem leads_startWatcher (h : Watches i v fleet) : Leads (startWatcher i e) fleet
    (fun result fleet' => (result = .ok () ∧ e ∉ v ∧ Watches i (insert e v) fleet') ∨
      (∃ err, result = .error err) ∧ Watches i v fleet') failed := by
  by_cases he : e ∈ v
  · rw [leads_of_ok (h.startWatcher_eq_of_mem he)]
    exact Or.inr ⟨⟨_, rfl⟩, h⟩
  rw [startWatcher]
  apply h.leads_watcher.bind
  rintro w _ ⟨rfl, hw⟩
  rw [if_neg (by simp [hw, he])]
  obtain ⟨d, hd, -⟩ := watches_iff.1 h
  rw [leads_daemon_bind hd]
  apply (h.leads_onDisk _).bind
  intro result fleet₁ h₁
  cases result with
  | error err => exact (leads_pure _).2 (Or.inr ⟨⟨_, rfl⟩, h₁⟩)
  | ok _ =>
    rw [leads_bind, leads_get]
    cases fleet₁.host.disk.watchRefusal? (d.stores.get e).index.dir with
    | some err => exact (leads_pure _).2 (Or.inr ⟨⟨_, rfl⟩, h₁⟩)
    | none =>
      have hset : Leads (setWatcher i e (w.start fleet₁.host.disk)) fleet₁
          (fun _ => Watches i (insert e v)) failed :=
        h₁.leads_setWatcher (decide_eq_true (Finset.mem_insert_self e v)).symm
          fun e' hne => by simp [hne]
      dsimp only
      rw [leads_bind, leads_get]
      apply hset.bind
      intro _ fleet₂ h₂
      exact (leads_pure _).2 (Or.inl ⟨rfl, he, h₂⟩)

theorem leads_stopWatcher (h : Watches i v fleet) :
    Leads (stopWatcher i e) fleet (fun _ => Watches i (v.erase e)) failed := by
  rw [stopWatcher]
  apply h.leads_watcher.bind
  rintro w _ ⟨rfl, -⟩
  have hself : e ∉ v.erase e := Finset.notMem_erase e v
  exact h.leads_setWatcher (decide_eq_false hself).symm fun e' hne => by simp [hne]

/-! ### All of them -/

theorem leads_stopWatchers (h : Watches i v fleet) (es : List Entity) :
    Leads (forM es (stopWatcher i)) fleet (fun _ => Watches i (v \ es.toFinset)) failed := by
  induction es generalizing fleet v with
  | nil =>
    rw [List.toFinset_nil, Finset.sdiff_empty]
    exact (leads_pure _).2 h
  | cons e es ih =>
    rw [List.forM_cons]
    apply h.leads_stopWatcher.bind
    intro _ fleet₁ h₁
    have hrest : v.erase e \ es.toFinset = v \ (e :: es).toFinset := by
      rw [List.toFinset_cons, Finset.sdiff_insert, Finset.erase_sdiff_comm]
    exact hrest ▸ ih h₁

theorem leads_stopStarted {started : List Entity} (h : Watches i (v ∪ started.toFinset) fleet)
    (hnew : Disjoint v started.toFinset) :
    Leads (forM started (stopWatcher i)) fleet (fun _ => Watches i v) failed := by
  have hrest : (v ∪ started.toFinset) \ started.toFinset = v :=
    Finset.union_sdiff_cancel_right hnew
  exact hrest ▸ h.leads_stopWatchers started

/-- Those that were started in the call were not watching before it, so that stopping them when
another one is refused leaves those that were. -/
theorem leads_startWatchers {started rest : List Entity}
    (h : Watches i (v ∪ started.toFinset) fleet) (hnew : Disjoint v started.toFinset) :
    Leads (startWatchers i started rest) fleet (fun result fleet' =>
      (result = .ok () ∧ Disjoint v (started ++ rest).toFinset ∧
        Watches i (v ∪ (started ++ rest).toFinset) fleet') ∨
      (∃ err, result = .error err) ∧ Watches i v fleet') failed := by
  -- `v` stays what was watching before the call, and those of the call move to `started` one by one
  induction rest generalizing fleet started with
  | nil =>
    rw [startWatchers, List.append_nil]
    exact (leads_pure _).2 (Or.inl ⟨rfl, hnew, h⟩)
  | cons e rest ih =>
    rw [startWatchers]
    apply h.leads_startWatcher.bind
    rintro _ fleet₁ (⟨rfl, he, h₁⟩ | ⟨⟨err, rfl⟩, h₁⟩)
    · have hmore : (started ++ [e]).toFinset = insert e started.toFinset := by
        ext
        simp
      change Leads (startWatchers i (started ++ [e]) rest) fleet₁ _ _
      rw [List.append_cons started e rest]
      apply ih
      · rw [hmore, Finset.union_insert]
        exact h₁
      · rw [hmore, Finset.disjoint_insert_right]
        exact ⟨fun hv => he (Finset.mem_union_left _ hv), hnew⟩
    · apply (h₁.leads_stopStarted hnew).bind
      intro _ fleet₂ h₂
      exact (leads_pure _).2 (Or.inr ⟨⟨err, rfl⟩, h₂⟩)

/-- The watchers are started if none of them was watching, and otherwise the same ones are watching
afterwards. -/
theorem leads_startWatching (h : Watches i v fleet) : Leads (startWatching i) fleet
    (fun result fleet' =>
      (result = .ok () ∧ v = ∅ ∧ Watches i Entity.all.toFinset fleet') ∨
      (∃ err, result = .error err) ∧ Watches i v fleet') fun _ _ => False := by
  have hstart : Watches i (v ∪ [].toFinset) fleet := by
    rwa [List.toFinset_nil, Finset.union_empty]
  refine (hstart.leads_startWatchers (Finset.disjoint_empty_right v)).imp ?_
  rintro result fleet' (⟨rfl, hnew, h'⟩ | hrefused)
  · have hnone : v = ∅ := by
      apply Finset.eq_empty_of_forall_notMem
      intro e he
      exact Finset.disjoint_left.1 hnew he (List.mem_toFinset.2 e.mem_all)
    rw [hnone, Finset.empty_union] at h'
    exact Or.inl ⟨rfl, hnone, h'⟩
  · exact Or.inr hrefused

/-- A daemon that watches everything refuses to start, and nothing happens. -/
theorem startWatching_eq_of_all (h : Watches i Entity.all.toFinset fleet) : startWatching i fleet =
    .ok (.error (.alreadyWatching Entity.work.name)) fleet :=
  bind_of_ok (h.startWatcher_eq_of_mem (List.mem_toFinset.2 Entity.work.mem_all)) _

theorem leads_shutdown (h : Watches i v fleet) :
    Leads (shutdown i) fleet (fun _ => Watches i ∅) fun _ _ => False := by
  have hnone : v \ Entity.all.toFinset = ∅ :=
    Finset.sdiff_eq_empty_iff_subset.2 fun e _ => List.mem_toFinset.2 e.mem_all
  exact hnone ▸ h.leads_stopWatchers Entity.all

end Watches

/-! ### Passes -/

theorem keeps_modifyDaemon_watches {f : Daemon → Daemon} (hf : ∀ d, (f d).watchers = d.watchers) :
    Keeps (Watches i v) (modifyDaemon j f) := by
  apply keeps_modify
  intro fleet h
  apply h.modifyDaemon
  intro d _ hv
  exact fun e => (hf d).symm ▸ hv e

/-- A call on a store and all that listens to it leave the watchers alone. -/
theorem keeps_perform_watches {α : Type} (call : StoreM e.Rec α) :
    Keeps (Watches i v) (perform j e call) := by
  have hstore (s : Store e.Rec) : Keeps (Watches i v)
      (modifyDaemon j fun d => { d with stores := d.stores.set e s }) :=
    keeps_modifyDaemon_watches fun _ => rfl
  have hhost (host : Host) : Keeps (Watches i v)
      (modify fun fleet : Fleet => { fleet with host } : FleetM Unit) :=
    keeps_modify fun _ h => h.of_daemons_eq rfl
  have hlistener (event : Event e.Rec) (l : Listener) :
      Keeps (Watches i v) (callListener j e event l) := by
    apply keeps_callListener_of
    · intro f _ hwatchers
      exact keeps_modifyDaemon_watches hwatchers
    · intro fleet h journal tasks
      exact h.of_daemons_eq rfl
  apply keeps_perform_of
  · intro cm
    exact keeps_announce_of (hstore cm.store) (hhost cm.host) hlistener
  · intro desk x
    exact keeps_replace (hstore desk.store) (hhost desk.host) x

theorem isWatching_settle (w : Watcher) (d : Disk) (file : Path) :
    (w.settle d file).2.isWatching = w.isWatching := by
  unfold Watcher.settle
  cases hw : w.running with
  | none => rfl
  | some _ => simp [Watcher.isWatching, hw]

/-- The loop of a watcher goes on watching after a pass, whether the pass succeeds or fails. -/
theorem keeps_follow_watches (j : Nat) (e : Entity) : Keeps (Watches i v) (follow j e) := by
  intro fleet h
  rw [follow]
  apply leads_daemon_bind_of fun _ => h
  intro d hd
  cases hw : d.watchers.get e with
  | none => exact (leads_pure _).2 h
  | some w =>
    have hset (disk : Disk) (file : Path) : Leads (setWatcher j e (w.settle disk file).2) fleet
        (fun _ => Watches i v) fun _ => Watches i v := by
      refine (leads_modify _).2 (h.modifyDaemon fun d' hd' hv e' => ?_)
      obtain rfl := Option.some.inj (hd.symm.trans hd')
      by_cases he : e' = e
      · subst he
        rw [PerEntity.get_set, ← hv, hw]
        exact isWatching_settle w disk file
      · rw [PerEntity.get_set_of_ne _ _ he, hv]
    dsimp only
    rw [leads_bind, leads_get]
    apply (hset _ _).bind
    intro _ fleet₁ h₁
    split
    · have hreconcile : Keeps (Watches i v) (discard (reconcile j e)) := fun fleet h =>
        (leads_discard _).2 (keeps_perform_watches Store.reconcile fleet h)
      exact (hreconcile.tryCatch fun _ => keeps_pure _) fleet₁ h₁
    · exact (leads_pure _).2 h₁

/-! ### A daemon that is opened -/

/-- The name belongs to a daemon none of whose watchers is watching. -/
def Unwatched (name : String) (i : Nat) (fleet : Fleet) : Prop :=
  fleet.names.lookup name = some i ∧ Watches i ∅ fleet

variable {name : String}

theorem keeps_modifyDaemon_unwatched {f : Daemon → Daemon}
    (hf : ∀ d, d.Watches ∅ → (f d).Watches ∅) : Keeps (Unwatched name i) (modifyDaemon j f) :=
  keeps_modify fun _ h => ⟨h.1, h.2.modifyDaemon fun d _ => hf d⟩

theorem keeps_listen_unwatched (j : Nat) (e : Entity) (l : Listener) :
    Keeps (Unwatched name i) (listen j e l) :=
  keeps_modifyDaemon_unwatched fun _ h => h

theorem keeps_attach_unwatched (j : Nat) (e : Entity) (capacity : Nat) :
    Keeps (Unwatched name i) (attach j e capacity) := by
  have hdetach : Keeps (Unwatched name i) (detach j e) := by
    apply (keeps_daemon j).bind
    intro d
    apply Keeps.bind
    · exact keeps_modifyDaemon_unwatched fun _ h => h
    intro _
    exact keeps_pure _
  apply Keeps.bind
  · exact fun fleet h => (leads_discard _).2 (hdetach fleet h)
  intro _
  apply (keeps_daemon j).bind
  intro d
  apply Keeps.bind
  · exact keeps_modifyDaemon_unwatched fun _ h => h
  intro _
  apply (keeps_listen_unwatched j e _).bind
  intro _
  exact keeps_modify fun _ h => ⟨h.1, h.2.of_daemons_eq rfl⟩

/-- A daemon that was opened to serve others has a watcher of each entity, and none is watching. -/
theorem secures_open_unwatched (name : String) (data : Location) (config : Config) (fleet : Fleet) :
    Secures («open» name data (some config)) fleet
      (fun result fleet' => result = .ok () → ∃ i, Unwatched name i fleet') := by
  rw [«open»]
  apply secures_any.bind
  intro _ fleet₁ _
  apply (leads_bind _ _).2
  rw [leads_get]
  cases openStores data fleet₁.host with
  | error err host =>
    apply secures_any.bind
    intro _ fleet₂ _
    exact (leads_pure _).2 fun hok => by cases hok
  | ok stores host =>
    dsimp only
    rw [leads_bind, leads_modify]
    have hattach : Keeps (Unwatched name fleet₁.daemons.length) (forM [Entity.work, .role, .command]
        fun e => attach fleet₁.daemons.length e config.queueCapacity) :=
      keeps_forM fun e _ => keeps_attach_unwatched _ e _
    have hlisten : Keeps (Unwatched name fleet₁.daemons.length) (forM Entity.all
        fun e => listen fleet₁.daemons.length e .journal) :=
      keeps_forM fun e _ => keeps_listen_unwatched _ e _
    have hwatchers (d : Daemon) : Daemon.Watches { d with
        watchers := .const fun _ => some (.withWindow config.debounceMs) } ∅ := by
      intro e
      cases e <;> rfl
    refine (hattach _ ⟨?_, ?_⟩).secures.bind ?_
    · rw [Keyed.lookup_insert, if_pos rfl]
    · refine watches_iff.2 ⟨_, List.getElem?_concat_length, fun e => ?_⟩
      cases e <;> rfl
    intro _ fleet₂ h₂
    refine Secures.bind (keeps_modifyDaemon_unwatched ?_ fleet₂ h₂).secures ?_
    · exact fun d _ => hwatchers d
    intro _ fleet₃ h₃
    apply (hlisten fleet₃ h₃).secures.bind
    intro _ fleet₄ h₄
    exact (leads_pure _).2 fun _ => ⟨_, h₄⟩

/-! ### Whatever happens in between -/

/-- The watchers of a daemon are started or shut down, the loop of a watcher goes on, or anything
else happens to the fleet that neither starts nor stops one of them. -/
inductive WatchStep (i : Nat) (fleet : Fleet) : Fleet → Prop where
  | started {result : Except WatchError Unit} {fleet' : Fleet}
      (run : startWatching i fleet = .ok result fleet') : WatchStep i fleet fleet'
  | shutDown {fleet' : Fleet} (run : shutdown i fleet = .ok () fleet') : WatchStep i fleet fleet'
  | followed {j : Nat} {e : Entity} {fleet' : Fleet} (ends : Ends (follow j e) fleet fleet') :
      WatchStep i fleet fleet'
  | elsewhere {v : Finset Entity} {fleet' : Fleet} (before : Watches i v fleet)
      (after : Watches i v fleet') : WatchStep i fleet fleet'

/-- All the watchers of a daemon are watching, or none is. -/
def AllOrNone (i : Nat) (fleet : Fleet) : Prop :=
  Watches i Entity.all.toFinset fleet ∨ Watches i ∅ fleet

/-- A step leaves those watching that were, or afterwards all are watching or none is. -/
theorem WatchStep.watches (hstep : WatchStep i fleet fleet') (h : Watches i v fleet) :
    Watches i v fleet' ∨ AllOrNone i fleet' := by
  cases hstep with
  | started run =>
    obtain ⟨-, -, hall⟩ | ⟨-, hsame⟩ := h.leads_startWatching.of_ok run
    · exact Or.inr (Or.inl hall)
    · exact Or.inl hsame
  | shutDown run => exact Or.inr (Or.inr (h.leads_shutdown.of_ok run))
  | followed ends => exact Or.inl ((keeps_follow_watches _ _ fleet h).of_ends ends)
  | elsewhere before after => exact Or.inl (before.unique h ▸ after)

theorem WatchStep.allOrNone (hstep : WatchStep i fleet fleet') (h : AllOrNone i fleet) :
    AllOrNone i fleet' := by
  rcases h with hall | hnone
  · exact (hstep.watches hall).elim Or.inl id
  · exact (hstep.watches hnone).elim Or.inr id

theorem allOrNone_of_run (hrun : Relation.ReflTransGen (WatchStep i) fleet fleet')
    (h : AllOrNone i fleet) : AllOrNone i fleet' := by
  induction hrun with
  | refl => exact h
  | tail _ hstep ih => exact hstep.allOrNone ih

/-- However often a daemon that was opened is told to watch and to shut down, and whatever else
happens in between, all its watchers are watching or none is. A call to watch that is refused leaves
those watching that were, and where all of them are it changes nothing; none is watching after a
shutdown. No call is interrupted. -/
theorem watching_all_or_none {data : Location} {config : Config} {before opened : Fleet}
    (hopen : «open» name data (some config) before = .ok (.ok ()) opened)
    (hname : opened.names.lookup name = some i)
    (hrun : Relation.ReflTransGen (WatchStep i) opened fleet) :
    AllOrNone i fleet ∧
    Leads (startWatching i) fleet (fun result fleet' =>
      (result = .ok () ∧ Watches i ∅ fleet ∧ Watches i Entity.all.toFinset fleet') ∨
      (∃ err, result = .error err) ∧ ∀ v, Watches i v fleet → Watches i v fleet')
      (fun _ _ => False) ∧
    (Watches i Entity.all.toFinset fleet → startWatching i fleet =
      .ok (.error (.alreadyWatching Entity.work.name)) fleet) ∧
    Leads (shutdown i) fleet (fun _ => Watches i ∅) fun _ _ => False := by
  obtain ⟨i', hname', hrest⟩ := (secures_open_unwatched name data config before).of_ok hopen rfl
  obtain rfl := Option.some.inj (hname.symm.trans hname')
  have hall := allOrNone_of_run hrun (Or.inr hrest)
  obtain ⟨v, hv⟩ : ∃ v, Watches i v fleet := hall.elim (fun h => ⟨_, h⟩) fun h => ⟨_, h⟩
  refine ⟨hall, ?_, Watches.startWatching_eq_of_all, hv.leads_shutdown⟩
  apply hv.leads_startWatching.imp
  rintro result fleet' (⟨rfl, rfl, hstarted⟩ | ⟨hrefused, hsame⟩)
  · exact Or.inl ⟨rfl, hv, hstarted⟩
  · exact Or.inr ⟨hrefused, fun v' hv' => hv.unique hv' ▸ hsame⟩

/-- The system refuses to watch the directory of one entity, and none is watched. When it does not
refuse any more all are watched, and starting them again is refused. -/
theorem watching_all_or_none_refused :
    ∃ (before opened tried later watching : Fleet) (err : WatchError),
      «open» "d" ⟨["data"], "/data"⟩ (some {}) before = .ok (.ok ()) opened ∧
      opened.names.lookup "d" = some 0 ∧
      startWatching 0 opened = .ok (.error err) tried ∧
      err.message = "failed to watch `/data/session`: limit" ∧ Watches 0 ∅ tried ∧
      WatchStep 0 tried later ∧ startWatching 0 later = .ok (.ok ()) watching ∧
      Watches 0 Entity.all.toFinset watching ∧
      startWatching 0 watching = .ok (.error (.alreadyWatching "work")) watching := by
  let host : Host := { ids := fun _ => "d", times := fun _ => .epoch }
  let refusal (_ : Nat) (c : Call) (p : Path) : Option String :=
    if c = .watch ∧ p = ["data", "session"] then some "limit" else none
  let before : Fleet := { host := { host with disk := { refusal } } }
  have hruns : ((Store.done? («open» "d" ⟨["data"], "/data"⟩ (some {}) before)).bind fun a =>
      (Store.done? (startWatching 0 a.2)).bind fun b =>
        (Store.done? (startWatching 0 { b.2 with host })).map fun c => (a.1.toOption,
          a.2.names.lookup "d", (match b.1 with | .error err => err.message | .ok _ => ""),
          c.1.toOption)) =
      some (some (), some 0, "failed to watch `/data/session`: limit", some ()) := by
    decide +kernel
  simp only [Option.bind_eq_some_iff, Option.map_eq_some_iff, Prod.exists, Prod.mk.injEq,
    Store.done?_eq_some] at hruns
  obtain ⟨result, opened, hopen, result₁, tried, hstart, result₂, watching, hagain,
    hopened, hname, hmessage, hstarted⟩ := hruns
  obtain rfl : result = .ok () := by
    cases result with
    | ok u => rfl
    | error err => cases hopened
  obtain rfl : result₂ = .ok () := by
    cases result₂ with
    | ok u => rfl
    | error err => cases hstarted
  cases result₁ with
  | ok u => simp at hmessage
  | error err =>
    obtain ⟨_, hname', hrest⟩ := (secures_open_unwatched _ _ _ _).of_ok hopen rfl
    obtain rfl := Option.some.inj (hname.symm.trans hname')
    obtain ⟨-, htry, -⟩ := watching_all_or_none hopen hname .refl
    have hnone : Watches 0 ∅ tried := by
      obtain ⟨hok, -⟩ | ⟨-, hsame⟩ := htry.of_ok hstart
      · cases hok
      · exact hsame ∅ hrest
    have hlater : WatchStep 0 tried { tried with host } :=
      .elsewhere hnone (hnone.of_daemons_eq rfl)
    have hrun : Relation.ReflTransGen (WatchStep 0) opened { tried with host } :=
      (Relation.ReflTransGen.single (.started hstart)).tail hlater
    obtain ⟨-, hretry, -⟩ := watching_all_or_none hopen hname hrun
    obtain ⟨-, -, hall⟩ | ⟨⟨_, herror⟩, -⟩ := hretry.of_ok hagain
    · obtain ⟨-, -, hrefused, -⟩ := watching_all_or_none hopen hname (hrun.tail (.started hagain))
      exact ⟨before, opened, tried, _, watching, err, hopen, hname, hstart, hmessage, hnone, hlater,
        hagain, hall, hrefused hall⟩
    · cases herror

end Fleet

end WorkQueue
