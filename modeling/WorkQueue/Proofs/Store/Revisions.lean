import Mathlib.Data.List.Chain
import Mathlib.Data.List.Pairwise
import WorkQueue.Proofs.Store.Identity

/-!
# What a revision names

The revision of a store goes up by one with every change of its own, and with every index that it
takes over and that differs from what it has in memory. Differences are those of the records under
their ids, so one revision always names the same records. It names the order in which they are
listed too, exactly as long as no index is taken over that holds the same records in another order:
there is no difference to announce then, and the new order comes under the old revision.
-/

namespace WorkQueue

namespace Store

open Change (SameRecords)

variable {R : Type} [Record R]

/-- A change of the store on whatever host, answered or refused; or an index with distinct ids that
is absorbed, whenever it was read. -/
inductive Step (s : Store R) : Store R → Prop where
  | answered {q : Request R} {host : Host} {a : Answer R} {desk : Desk R}
      (run : q.run ⟨s, host, []⟩ = .ok a desk) (change : ∀ outcome, a ≠ .reconciled outcome) :
      Step s desk.store
  | refused {q : Request R} {host : Host} {e : StoreError} {desk : Desk R}
      (run : q.run ⟨s, host, []⟩ = .error e desk) : Step s desk.store
  | absorbed {reading : Reading R} {host : Host} {outcome : Absorbed} {desk : Desk R}
      (distinct : Record.Distinct reading.loaded.records)
      (run : absorb reading ⟨s, host, []⟩ = .ok outcome desk) : Step s desk.store

/-- An index is absorbed that holds the records that the store has, and they are listed differently
after that. -/
def Relists (s s' : Store R) : Prop :=
  ∃ (reading : Reading R) (host : Host) (outcome : Absorbed) (desk : Desk R),
    absorb reading ⟨s, host, []⟩ = .ok outcome desk ∧ s' = desk.store ∧
      SameRecords s.records s'.records ∧ s'.list ≠ s.list

variable {s s' s₀ : Store R} {later : List (Store R)}

/-! ### One step -/

theorem Relists.revision_eq (h : Relists s s') : s'.revision = s.revision := by
  obtain ⟨reading, host, outcome, desk, hrun, rfl, hsame, -⟩ := h
  have hlead : Leads (absorb reading) ⟨s, host, []⟩ _ _ := leads_absorb reading
  rcases hlead.of_ok hrun with ⟨-, -, rfl⟩ | ⟨-, -, htook⟩
  · rfl
  · have hrecords : desk.store.records = reading.loaded.records := by rw [htook.store]
    rw [hrecords] at hsame
    rw [htook.store, Change.diff_eq_nil_iff.2 hsame]
    rfl

/-- The revision goes up by one, or there are the same records as before. -/
inductive Turn (s s' : Store R) : Prop where
  | next (revision : s'.revision = s.revision + 1)
  | stays (revision : s'.revision = s.revision) (same : SameRecords s.records s'.records)
      (list : s'.list = s.list ∨ Relists s s')

theorem turn_of_eq (h : s' = s) : Turn s s' := by
  subst h
  exact .stays rfl (fun _ => rfl) (Or.inl rfl)

theorem turn_of_absorb {reading : Reading R} {host : Host} {outcome : Absorbed} {desk : Desk R}
    (hrun : absorb reading ⟨s, host, []⟩ = .ok outcome desk) : Turn s desk.store := by
  have hlead : Leads (absorb reading) ⟨s, host, []⟩ _ _ := leads_absorb reading
  rcases hlead.of_ok hrun with ⟨-, -, rfl⟩ | ⟨-, -, htook⟩
  · exact turn_of_eq rfl
  have hrecords : desk.store.records = reading.loaded.records := by rw [htook.store]
  by_cases hsame : SameRecords s.records reading.loaded.records
  · have hrevision : desk.store.revision = s.revision := by
      rw [htook.store, Change.diff_eq_nil_iff.2 hsame]
      rfl
    rw [← hrecords] at hsame
    refine .stays hrevision hsame (or_iff_not_imp_left.2 fun hlist => ?_)
    exact ⟨reading, host, outcome, desk, hrun, rfl, hsame, hlist⟩
  · have hdiff : ¬ (Change.diff s.records reading.loaded.records).isEmpty = true := by
      rw [List.isEmpty_iff, Change.diff_eq_nil_iff]
      exact hsame
    refine .next ?_
    rw [htook.store, if_neg hdiff]

variable [LawfulRecord R]

theorem Step.turn (h : Step s s') : Turn s s' := by
  cases h with
  | answered run change =>
    cases (Request.leads_run _).of_ok run with
    | changed tells edit committed =>
      obtain ⟨content, -, -, hstore⟩ := committed.written
      exact .next (by rw [hstore])
    | idle _ => exact absurd rfl (change _)
    | tookOver _ _ => exact absurd rfl (change _)
  | refused run => exact turn_of_eq ((Request.leads_run _).of_error run).store
  | absorbed _ run => exact turn_of_absorb run

theorem Step.distinct (h : Step s s') (hd : Record.Distinct s.records) :
    Record.Distinct s'.records := by
  cases h with
  | answered run change =>
    cases (Request.leads_run _).of_ok run with
    | changed tells edit committed =>
      rw [committed.records_eq]
      exact edit.distinct hd
    | idle _ => exact absurd rfl (change _)
    | tookOver _ _ => exact absurd rfl (change _)
  | refused run =>
    have hstore := ((Request.leads_run _).of_error run).store
    rwa [hstore]
  | @absorbed reading host outcome desk distinct run =>
    have hlead : Leads (absorb reading) ⟨s, host, []⟩ _ _ := leads_absorb reading
    rcases hlead.of_ok run with ⟨-, -, rfl⟩ | ⟨-, -, htook⟩
    · exact hd
    · rw [htook.store]
      exact distinct

/-! ### Whole runs -/

/-- The revision does not go down, and what it leaves alone is related. -/
def Keeps (E : Store R → Store R → Prop) (s s' : Store R) : Prop :=
  s.revision ≤ s'.revision ∧ (s'.revision = s.revision → E s s')

omit [Record R] [LawfulRecord R] in
theorem keeps_trans {E : Store R → Store R → Prop} (hE : Equivalence E) {a b c : Store R}
    (hab : Keeps E a b) (hbc : Keeps E b c) : Keeps E a c := by
  refine ⟨hab.1.trans hbc.1, fun hrevision => ?_⟩
  have hle := hab.1
  have hle' := hbc.1
  have hb : b.revision = a.revision := by omega
  have hc : c.revision = b.revision := by omega
  exact hE.trans (hab.2 hb) (hbc.2 hc)

omit [Record R] [LawfulRecord R] in
/-- What every step of a run keeps while the revision stays, all moments of one revision share. -/
theorem forall_of_isChain {E : Store R → Store R → Prop} (hE : Equivalence E)
    {run : List (Store R)} (hrun : run.IsChain (Keeps E)) :
    ∀ s ∈ run, ∀ s' ∈ run, s.revision = s'.revision → E s s' := by
  have htrans : Trans (Keeps E) (Keeps E) (Keeps E) := ⟨keeps_trans hE⟩
  have hpairs : run.Pairwise fun s s' => s.revision = s'.revision → E s s' :=
    hrun.pairwise.imp fun h hrevision => h.2 hrevision.symm
  have hsymm : Std.Symm fun s s' : Store R => s.revision = s'.revision → E s s' :=
    ⟨fun _ _ h hrevision => hE.symm (h hrevision.symm)⟩
  intro s hs s' hs'
  exact hpairs.forall_of_forall (fun _ _ _ => hE.refl _) hs hs'

theorem Step.keeps_same (h : Step s s') :
    Keeps (fun s s' => SameRecords s.records s'.records) s s' := by
  cases h.turn with
  | next revision => exact ⟨by omega, fun hrevision => by omega⟩
  | stays revision same list => exact ⟨by omega, fun _ => same⟩

theorem Step.keeps_list (h : Step s s') (hn : ¬ Relists s s') :
    Keeps (fun s s' => s.list = s'.list) s s' := by
  cases h.turn with
  | next revision => exact ⟨by omega, fun hrevision => by omega⟩
  | stays revision same list => exact ⟨by omega, fun _ => (list.resolve_right hn).symm⟩

theorem distinct_of_isChain {run : List (Store R)} (hrun : run.IsChain Step)
    (hd : ∀ s ∈ run.head?, Record.Distinct s.records) : ∀ s ∈ run, Record.Distinct s.records :=
  hrun.induction _ run (fun _ _ h => h.distinct) fun hne => hd _ (List.head_mem_head? hne)

theorem isChain_keeps_list {run : List (Store R)} (hrun : run.IsChain Step)
    (hn : run.IsChain fun s s' => ¬ Relists s s') :
    run.IsChain (Keeps fun s s' => s.list = s'.list) := by
  rw [List.isChain_iff_forall_rel_of_append_cons_cons] at hrun hn ⊢
  intro s s' before after hrest
  exact (hrun hrest).keeps_list (hn hrest)

/-- Two moments of a run that have one revision have the same records, and their lists are equal up
to the order, where ids were distinct at the start. All of them list their records in the same order
exactly as long as no index is absorbed that lists the records that the store has differently. -/
theorem revision_names_list_iff (hrun : (s₀ :: later).IsChain Step) :
    (∀ s ∈ s₀ :: later, ∀ s' ∈ s₀ :: later, s.revision = s'.revision →
      SameRecords s.records s'.records ∧
        (Record.Distinct s₀.records → s.snapshot.records.Perm s'.snapshot.records)) ∧
    ((∀ s ∈ s₀ :: later, ∀ s' ∈ s₀ :: later, s.snapshot.revision = s'.snapshot.revision →
        s.snapshot.records = s'.snapshot.records) ↔
      (s₀ :: later).IsChain fun s s' => ¬ Relists s s') := by
  refine ⟨fun s hs s' hs' hrevision => ?_, fun hnames => ?_, fun hn => ?_⟩
  · have hequivalence : Equivalence fun s s' : Store R => SameRecords s.records s'.records :=
      ⟨fun _ _ => rfl, fun h id => (h id).symm, fun h h' id => (h id).trans (h' id)⟩
    have hsame : SameRecords s.records s'.records :=
      forall_of_isChain hequivalence (hrun.imp fun _ _ h => h.keeps_same) s hs s' hs' hrevision
    refine ⟨hsame, fun hd => ?_⟩
    have hdistinct := distinct_of_isChain hrun fun s hs => Option.some.inj hs ▸ hd
    have hperm : s.records.Perm s'.records :=
      (Change.sameRecords_iff_perm (hdistinct s hs) (hdistinct s' hs')).1 hsame
    exact (LawfulRecord.order_perm _).trans (hperm.trans (LawfulRecord.order_perm _).symm)
  · refine hrun.imp_of_mem_imp fun s s' hs hs' _ hrelists => ?_
    have hlist := hnames s' hs' s hs hrelists.revision_eq
    obtain ⟨-, -, -, -, -, -, -, hne⟩ := hrelists
    exact hne hlist
  · have hequivalence : Equivalence fun s s' : Store R => s.list = s'.list :=
      ⟨fun _ => rfl, fun h => h.symm, fun h h' => h.trans h'⟩
    exact forall_of_isChain hequivalence (isChain_keeps_list hrun hn)

/-! ### Another order under the same revision -/

/-- A store of two roles absorbs an index that holds them the other way round. -/
private theorem exists_relisted : ∃ (x y : Role) (s s' : Store Role), Step s s' ∧ x ≠ y ∧
    Record.Distinct [x, y] ∧ s.records = [x, y] ∧ s'.records = [y, x] ∧
    s'.revision = s.revision := by
  let x : Role := ⟨"x", "first", "", .epoch, .epoch⟩
  let y : Role := ⟨"y", "second", "", .epoch, .epoch⟩
  let digest : Digest := Digest.ofBytes (Index.written [x, y])
  let s : Store Role :=
    { index := ⟨⟨["role"], "/role"⟩⟩, records := [x, y], digest := some digest }
  let loaded : Index.Loaded Role := ⟨[y, x], some (Digest.ofBytes (Index.written [y, x]))⟩
  let host : Host := { ids := fun _ => "z", times := fun _ => .epoch }
  have hdistinct : Record.Distinct loaded.records := by decide
  have hdiff : Change.diff [x, y] [y, x] = [] := by decide +kernel
  let reading : Reading Role := ⟨s.generation, loaded⟩
  obtain ⟨desk, hrun, htook⟩ : ∃ desk, absorb reading ⟨s, host, []⟩ = .ok _ desk ∧
      TookOver ⟨s, host, []⟩ reading.loaded desk := absorb_eq_ok rfl
  have hrevision : desk.store.revision = s.revision := by
    rw [htook.store, hdiff]
    rfl
  refine ⟨x, y, s, desk.store, .absorbed hdistinct hrun, by decide, by decide, rfl, ?_, hrevision⟩
  rw [htook.store]

/-- Two moments with one revision, and two orders of the same records. -/
theorem revision_names_list_iff_relisted : ∃ s s' : Store Role, [s, s'].IsChain Step ∧
    s.revision = s'.revision ∧ s.snapshot.records.Perm s'.snapshot.records ∧
    s.snapshot.records ≠ s'.snapshot.records ∧ ¬ [s, s'].IsChain fun s s' => ¬ Relists s s' := by
  obtain ⟨x, y, s, s', hstep, hne, hd, hs, hs', hrevision⟩ := exists_relisted
  have hrun : [s, s'].IsChain Step := List.isChain_pair.2 hstep
  have hlist : s.snapshot.records ≠ s'.snapshot.records := by
    change s.records ≠ s'.records
    rw [hs, hs']
    simp [hne]
  obtain ⟨hsame, hiff⟩ := revision_names_list_iff hrun
  have hperm := (hsame s (by simp) s' (by simp) hrevision.symm).2 (hs ▸ hd)
  exact ⟨s, s', hrun, hrevision.symm, hperm, hlist, fun hn =>
    hlist (hiff.2 hn s (by simp) s' (by simp) hrevision.symm)⟩

/-- A revision may name the same records in two orders. -/
theorem reordered_index_keeps_revision : ¬ ∀ (s₀ : Store Role) (later : List (Store Role)),
    (s₀ :: later).IsChain Step → ∀ s ∈ s₀ :: later, ∀ s' ∈ s₀ :: later,
      s.snapshot.revision = s'.snapshot.revision → s.snapshot.records = s'.snapshot.records := by
  intro h
  obtain ⟨x, y, s, s', hstep, hne, -, hs, hs', hrevision⟩ := exists_relisted
  have hlist : s.records = s'.records :=
    h s [s'] (List.isChain_pair.2 hstep) s (by simp) s' (by simp) hrevision.symm
  rw [hs, hs'] at hlist
  exact hne (List.cons.inj hlist).1

end Store

end WorkQueue
