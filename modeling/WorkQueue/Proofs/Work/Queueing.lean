import WorkQueue.Proofs.Work.Cascade
import WorkQueue.Proofs.Work.Listing
import WorkQueue.Proofs.Store.World

/-!
# Where a new item queues

An item that is made without a priority comes after all that exist: its priority is the one after
the greatest of theirs, and where that is the greatest of all it is the same. As it is also kept
last, it is listed last in either case.
-/

namespace WorkQueue.Priority

theorem value_succ (p : Priority) : p.succ.value = min (p.value + 1) most := by
  have hmost := p.le_max
  unfold succ
  split
  · change p.value + 1 = _
    omega
  · omega

theorem value_max (p q : Priority) : (p.max q).value = Max.max p.value q.value := by
  unfold Priority.max
  split <;> omega

theorem max_eq_or (p q : Priority) : p.max q = p ∨ p.max q = q := by
  unfold Priority.max
  split
  · exact Or.inr rfl
  · exact Or.inl rfl

/-- The fold stops at one of the priorities that it has met, and none of them is greater. -/
theorem foldl_max (p : Priority) (ps : List Priority) :
    ps.foldl max p ∈ p :: ps ∧ ∀ q ∈ p :: ps, q.value ≤ (ps.foldl max p).value := by
  induction ps generalizing p with
  | nil => simp
  | cons r ps ih =>
    obtain ⟨hmem, hle⟩ := ih (p.max r)
    have hhead := hle _ List.mem_cons_self
    rw [value_max] at hhead
    rw [List.foldl_cons]
    constructor
    · rcases List.mem_cons.1 hmem with heq | hmem
      · rw [heq]
        rcases max_eq_or p r with h | h
        · rw [h]
          exact List.mem_cons_self
        · rw [h]
          exact List.mem_cons_of_mem p List.mem_cons_self
      · exact List.mem_cons_of_mem p (List.mem_cons_of_mem r hmem)
    · rw [List.forall_mem_cons, List.forall_mem_cons]
      exact ⟨by omega, by omega, fun q hq => hle q (List.mem_cons_of_mem _ hq)⟩

end WorkQueue.Priority

namespace WorkQueue.Work

open Store (Desk)

/-- The greatest priority of the items, which is zero where there are none. -/
structure Highest (works : List Work) (n : Int) : Prop where
  reached : works = [] ∧ n = 0 ∨ ∃ w ∈ works, w.priority.value = n
  le : ∀ w ∈ works, w.priority.value ≤ n

variable {desk desk' : Desk Work} {w : Work} {works : List Work}

theorem highest_greatest (works : List Work) :
    Highest works (Priority.greatest (works.map (·.priority))).value := by
  cases works with
  | nil =>
    refine ⟨Or.inl ⟨rfl, ?_⟩, fun _ h => absurd h List.not_mem_nil⟩
    rw [List.map_nil, Priority.greatest, Priority.zero]
  | cons w works =>
    obtain ⟨hmem, hle⟩ := Priority.foldl_max w.priority (works.map (·.priority))
    change _ ∈ (w :: works).map (·.priority) at hmem
    change ∀ q ∈ (w :: works).map (·.priority), _ at hle
    obtain ⟨v, hv, hsame⟩ := List.mem_map.1 hmem
    exact ⟨Or.inr ⟨v, hv, congrArg Priority.value hsame⟩,
      fun v hv => hle _ (List.mem_map_of_mem hv)⟩

/-- The last priority is one more than the highest, as far as there are priorities. -/
theorem exists_highest (works : List Work) : ∃ highest, Highest works highest ∧
    (lastPriority works).value = min (highest + 1) Priority.most :=
  ⟨_, highest_greatest works, Priority.value_succ _⟩

theorem le_lastPriority (works : List Work) :
    ∀ v ∈ works, v.priority.value ≤ (lastPriority works).value := by
  intro v hv
  obtain ⟨highest, hhighest, hlast⟩ := exists_highest works
  have hle := hhighest.le v hv
  have hmost := v.priority.le_max
  omega

theorem secures_create_queued {draft : Draft} (hdraft : draft.priority = none) :
    Secures (create draft) desk fun w desk' => w.priority = lastPriority desk.store.records ∧
      desk'.store.records = desk.store.records ++ [w] := by
  rw [create, Secures, leads_bind, Store.newId, leads_modifyGet]
  refine (Store.leads_createWith (R := Work) _ draft _).mono ?_ fun _ _ _ => trivial
  rintro w desk₁ ⟨-, ⟨t, hprepare⟩, -, hcommitted⟩
  obtain ⟨-, rfl⟩ := eq_of_prepared hprepare
  exact ⟨by simp [hdraft], hcommitted.records_eq⟩

/-- An item that is made without a priority is listed after all that were there, which stay as they
are. Its priority is the greatest of theirs and one, cut off at the greatest that there is. -/
theorem unprioritized_queues_last {draft : Draft} (hdraft : draft.priority = none)
    (hcreate : create draft desk = .ok w desk') :
    desk'.store.list = desk.store.list ++ [w] ∧
    desk'.store.records = desk.store.records ++ [w] ∧
    ∃ highest, Highest desk.store.records highest ∧
      w.priority.value = min (highest + 1) Priority.most := by
  obtain ⟨hpriority, hrecords⟩ := (secures_create_queued hdraft).of_ok hcreate
  refine ⟨?_, hrecords, ?_⟩
  · change order desk'.store.records = order desk.store.records ++ [w]
    rw [hrecords]
    apply order_concat
    rw [hpriority]
    exact le_lastPriority _
  · rw [hpriority]
    exact exists_highest _

/-- An item is queued after one of the greatest priority, which was made before one of the least. -/
theorem unprioritized_queues_last_extremes : ∃ (desk desk' : Desk Work) (first last next : Work),
    desk.store.records = [last, first] ∧ desk.store.list = [first, last] ∧
    first.priority.value = Priority.least ∧ last.priority.value = Priority.most ∧
    create { title := "next" } desk = .ok next desk' ∧
    desk'.store.list = [first, last, next] ∧ next.priority.value = Priority.most := by
  let data : Location := ⟨["data"], "/data"⟩
  let host : Host :=
    { ids := fun n => if n = 0 then "a" else if n = 1 then "b" else "c", times := fun _ => .epoch }
  let most : Priority := ⟨Priority.most, by decide, by decide⟩
  let least : Priority := ⟨Priority.least, by decide, by decide⟩
  let last : Work := ⟨"a", .task, none, "last", "", .open, none, none, most, .epoch, .epoch⟩
  let first : Work := ⟨"b", .task, none, "first", "", .open, none, none, least, .epoch, .epoch⟩
  have hrun : ((Store.done? (Store.open (R := Work) data host)).bind fun a =>
      (Store.done? (create { title := "last", priority := some most } ⟨a.1, a.2, []⟩)).bind fun b =>
      (Store.done? (create { title := "first", priority := some least }
        ⟨b.2.store, b.2.host, []⟩)).bind fun c =>
      (Store.done? (create { title := "next" } ⟨c.2.store, c.2.host, []⟩)).map fun _ =>
        c.2.store.records) = some [last, first] := by
    decide +kernel
  simp only [Option.bind_eq_some_iff, Option.map_eq_some_iff, Prod.exists,
    Store.done?_eq_some] at hrun
  obtain ⟨_, _, -, _, _, -, _, desk, -, next, desk', hnext, hrecords⟩ := hrun
  have hlisting : Listing [last, first] [first, last] := by
    refine ⟨List.pairwise_pair.2 (by decide), fun p => ?_⟩
    by_cases hlast : last.priority.value = p
    · subst hlast
      rfl
    · simp [List.filter_cons, hlast]
  have hlist : desk.store.list = [first, last] := by
    change order desk.store.records = _
    rw [hrecords]
    exact (listing_order _).unique hlisting
  obtain ⟨hlisted, -, highest, hhighest, hpriority⟩ := unprioritized_queues_last rfl hnext
  have hmost : Priority.most ≤ highest := hhighest.le last (by simp [hrecords])
  have hle := next.priority.le_max
  refine ⟨⟨desk.store, desk.host, []⟩, desk', first, last, next, hrecords, hlist, rfl, rfl, hnext,
    ?_, by omega⟩
  rw [hlisted]
  exact congrArg (· ++ [next]) hlist

end WorkQueue.Work
