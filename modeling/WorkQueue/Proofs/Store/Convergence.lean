import Mathlib.Logic.Relation
import WorkQueue.Proofs.Change.Replay
import WorkQueue.Proofs.Store.Follower

/-!
# Reconciling with the index

The digest that a store remembers is at every moment that of a content which gave the records in
memory. As long as SHA-256 tells the contents apart that the file has had, a digest that is known
therefore means records that are known, and a pass that is spared by its digest would have changed
and announced nothing. One pass takes over whatever the index holds, and the next one finds nothing
new.
-/

namespace WorkQueue

namespace Index

variable {R : Type} [Record R]

/-- Contents with one digest give the same, as long as the digest tells them apart. -/
theorem Gives.unique_of_digest {content? content'? : Option ByteArray} {loaded loaded' : Loaded R}
    (h : Gives content? loaded) (h' : Gives content'? loaded')
    (apart : ∀ c ∈ content?, ∀ c' ∈ content'?, Digest.ofBytes c = Digest.ofBytes c' → c = c')
    (hd : loaded.digest = loaded'.digest) : loaded = loaded' := by
  obtain ⟨records, digest⟩ := loaded
  obtain ⟨records', digest'⟩ := loaded'
  obtain rfl : digest = digest' := hd
  cases content? with
  | none =>
    cases content'? with
    | none =>
      obtain ⟨rfl, -⟩ := h
      obtain ⟨rfl, -⟩ := h'
      rfl
    | some c' => exact absurd (h.2.symm.trans h'.2) (by simp)
  | some c =>
    cases content'? with
    | none => exact absurd (h'.2.symm.trans h.2) (by simp)
    | some c' =>
      have hsame : c = c' := apart c rfl c' rfl (Option.some.inj (h.2.symm.trans h'.2))
      subst hsame
      have hrecords : records = records' := Except.ok.inj (h.1.symm.trans h'.1)
      rw [hrecords]

end Index

namespace Store

variable {R : Type} [Record R]

/-- A pass that does not look at the digest. -/
def reconcileFully : StoreM R Absorbed := do absorb (← readIndex)

variable {desk : Desk R}

theorem readIndex_eq_ok {loaded : Index.Loaded R} {disk : Disk}
    (hread : desk.store.index.read desk.host.disk = .ok loaded disk) :
    readIndex desk = .ok ⟨desk.store.generation, loaded⟩
      { desk with host := { desk.host with disk } } := by
  have hdisk : onDisk desk.store.index.read desk =
      .ok loaded { desk with host := { desk.host with disk } } := by
    simp only [onDisk, hread]
  exact bind_of_ok hdisk _

theorem reconcile_of_readIndex {reading : Reading R} {desk' : Desk R}
    (hread : readIndex desk = .ok reading desk') :
    reconcile desk = if reading.loaded.digest = desk'.store.digest then .ok .unchanged desk'
      else absorb reading desk' := by
  rw [reconcile, bind_of_ok hread]
  change (if _ then pure _ else absorb reading : StoreM R Absorbed) desk' = _
  split <;> rfl

theorem reconcileFully_of_readIndex {reading : Reading R} {desk' : Desk R}
    (hread : readIndex desk = .ok reading desk') : reconcileFully desk = absorb reading desk' :=
  bind_of_ok hread _

/-- What is in memory already is no news. -/
theorem absorb_inMemory {reading : Reading R} (hg : reading.generation = desk.store.generation)
    (hl : reading.loaded = ⟨desk.store.records, desk.store.digest⟩) :
    absorb reading desk = .ok .unchanged desk := by
  obtain ⟨generation, loaded⟩ := reading
  obtain rfl : generation = desk.store.generation := hg
  obtain rfl : loaded = ⟨desk.store.records, desk.store.digest⟩ := hl
  have hnone : (Change.diff desk.store.records desk.store.records).isEmpty = true := by
    rw [Change.diff_self, List.isEmpty_nil]
  rw [absorb, bind_of_ok (a := get) rfl, if_neg (not_not.2 rfl)]
  simp only [hnone, if_true]
  rfl

variable {i : Index} {loaded : Index.Loaded R}

/-- A pass that does not look at the digest takes over what the index holds. -/
theorem reconcileFully_eq_ok (hi : desk.store.index = i) (hc : i.Clear desk.host.disk)
    (hr : i.Readable desk.host.disk) (hh : i.Holds desk.host.disk loaded) :
    ∃ desk', reconcileFully desk =
        .ok (.taken (Change.diff desk.store.records loaded.records)) desk' ∧
      TookOver desk loaded desk' ∧ i.Clear desk'.host.disk ∧ i.Readable desk'.host.disk := by
  subst hi
  obtain ⟨disk, hread, hkept, hlaid, hlenient⟩ := Index.indexRead_eq_ok hc hr hh
  have hreading := readIndex_eq_ok hread
  let reading : Reading R := ⟨desk.store.generation, loaded⟩
  let seen : Desk R := { desk with host := { desk.host with disk } }
  have hg : reading.generation = seen.store.generation := rfl
  obtain ⟨desk', habsorb, htook⟩ := absorb_eq_ok hg
  have hhost := (absorb_host _).of_ok habsorb
  have hidle : Idle desk seen := ⟨rfl, rfl, hkept⟩
  have hreadable : desk.store.index.Readable disk := hr.lenient hlenient
  refine ⟨desk', (reconcileFully_of_readIndex hreading).trans habsorb, hidle.tookOver htook, ?_, ?_⟩
  · rw [hhost]
    exact hlaid.clear
  · rw [hhost]
    exact hreadable

/-- A digest may be trusted that only belongs to what is in memory. -/
theorem reconcile_eq_reconcileFully (hi : desk.store.index = i) (hc : i.Clear desk.host.disk)
    (hr : i.Readable desk.host.disk) (hh : i.Holds desk.host.disk loaded)
    (known : loaded.digest = desk.store.digest →
      loaded = ⟨desk.store.records, desk.store.digest⟩) :
    reconcile desk = reconcileFully desk := by
  subst hi
  obtain ⟨disk, hread, -⟩ := Index.indexRead_eq_ok hc hr hh
  have hreading := readIndex_eq_ok hread
  rw [reconcile_of_readIndex hreading, reconcileFully_of_readIndex hreading]
  split
  next hd => exact (absorb_inMemory rfl (known hd)).symm
  next => rfl

/-- A pass over an index that holds what is in memory does nothing. -/
theorem reconcile_inMemory (hi : desk.store.index = i) (hc : i.Clear desk.host.disk)
    (hr : i.Readable desk.host.disk)
    (hh : i.Holds desk.host.disk ⟨desk.store.records, desk.store.digest⟩) :
    ∃ desk', reconcile desk = .ok .unchanged desk' ∧ Idle desk desk' := by
  subst hi
  obtain ⟨disk, hread, hkept, -⟩ := Index.indexRead_eq_ok hc hr hh
  refine ⟨{ desk with host := { desk.host with disk } }, ?_, rfl, rfl, hkept⟩
  rw [reconcile_of_readIndex (readIndex_eq_ok hread)]
  exact if_pos rfl

namespace Follower

/-- The states that a store comes into by what it does itself, by its passes and by others. -/
def Reachable (data : Location) (f : Follower R) : Prop :=
  ∃ (host host' : Host) (s : Store R), Store.open data host = .ok s host' ∧
    Relation.ReflTransGen Step (opened s host') f

/-- The digest tells apart the contents that the index file has had. -/
def CollisionFree (f : Follower R) : Prop :=
  ∀ c c', some c ∈ f.versions → some c' ∈ f.versions → Digest.ofBytes c = Digest.ofBytes c' → c = c'

theorem Reachable.sound [LawfulRecord R] {data : Location} {f : Follower R}
    (hf : f.Reachable data) : f.Sound (Index.ofData R data) := by
  obtain ⟨host, host', s, hopen, hrun⟩ := hf
  induction hrun with
  | refl => exact sound_opened hopen
  | tail _ hs ih => exact hs.sound ih

/-- An index whose digest is known holds what is in memory. -/
theorem Sound.eq_inMemory {f : Follower R} {i : Index} (hf : f.Sound i) (hc : f.CollisionFree)
    {loaded : Index.Loaded R} (hh : i.Holds f.host.disk loaded)
    (hd : loaded.digest = f.store.digest) : loaded = f.inMemory := by
  obtain ⟨content?, hn, hg⟩ := hf.held
  refine (Index.holds_iff_gives.1 hh).unique_of_digest hg (fun c hcur c' hheld => ?_) hd
  refine hc c c' ?_ ?_
  · have hlast := List.mem_of_getLast? hf.latest
    rwa [Option.mem_def.1 hcur] at hlast
  · have hmem := List.mem_of_getElem? hn
    rwa [Option.mem_def.1 hheld] at hmem

end Follower

open Follower in
/-- A pass that nobody overlaps takes over whatever the index holds. It does so as if it had not
looked at the digest, with the same answer, the same events and the same store. The pass after it
finds nothing new and changes nothing. -/
theorem reconcile_converges (e : Entity) {data : Location} {f : Follower e.Rec}
    (hf : f.Reachable data) (hapart : f.CollisionFree)
    (hclear : (Index.ofData e.Rec data).Clear f.host.disk)
    (hreadable : (Index.ofData e.Rec data).Readable f.host.disk) {loaded : Index.Loaded e.Rec}
    (hholds : (Index.ofData e.Rec data).Holds f.host.disk loaded) :
    ∃ outcome desk, reconcile f.desk = .ok outcome desk ∧ reconcileFully f.desk = .ok outcome desk ∧
      desk.store.records = loaded.records ∧ desk.store.digest = loaded.digest ∧
      ∃ desk', reconcile ⟨desk.store, desk.host, []⟩ = .ok .unchanged desk' ∧
        desk'.store = desk.store ∧ desk'.commits = [] ∧
        desk'.host.disk.content? (Index.ofData e.Rec data).file.path =
          desk.host.disk.content? (Index.ofData e.Rec data).file.path := by
  have hsound := hf.sound
  have hindex : f.desk.store.index = Index.ofData e.Rec data := hsound.index
  have hfull := reconcile_eq_reconcileFully hindex hclear hreadable hholds
    (hsound.eq_inMemory hapart hholds)
  obtain ⟨desk, hrun, htook, hclear', hreadable'⟩ :=
    reconcileFully_eq_ok hindex hclear hreadable hholds
  have hindex' : desk.store.index = Index.ofData e.Rec data := by
    rw [htook.store]
    exact hindex
  have hholds' : (Index.ofData e.Rec data).Holds desk.host.disk
      ⟨desk.store.records, desk.store.digest⟩ := by
    rw [htook.store]
    exact hholds.of_content?_eq (hindex ▸ htook.disk.content?_eq)
  let next : Desk e.Rec := ⟨desk.store, desk.host, []⟩
  have hindex₂ : next.store.index = Index.ofData e.Rec data := hindex'
  obtain ⟨desk', hagain, hidle⟩ := reconcile_inMemory hindex₂ hclear' hreadable' hholds'
  refine ⟨_, desk, hfull.trans hrun, hrun, ?_, ?_, desk', hagain, hidle.store, hidle.commits, ?_⟩
  · rw [htook.store]
  · rw [htook.store]
  · exact hindex' ▸ hidle.disk.content?_eq

open Follower in
/-- A store was opened on an empty index, and another process made a role. -/
theorem reconcile_converges_made : ∃ (data : Location) (f : Follower Role)
    (loaded : Index.Loaded Role), f.Reachable data ∧ f.CollisionFree ∧
    (Index.ofData Role data).Holds f.host.disk loaded ∧
    f.store.records = [] ∧ loaded.records.map Role.name = ["first"] ∧
    ∃ outcome desk, reconcile f.desk = .ok outcome desk ∧
      reconcileFully f.desk = .ok outcome desk ∧ desk.store.records = loaded.records := by
  let data : Location := ⟨["data"], "/data"⟩
  let host : Host := { ids := fun _ => "x", times := fun _ => .epoch }
  let request : Request Role := .create ({ name := "first" } : Role.Draft)
  let x : Role := ⟨"x", "first", "", .epoch, .epoch⟩
  have hrun : ((done? (Store.open (R := Role) data host)).bind fun a =>
      (done? (Store.open (R := Role) data a.2)).bind fun b =>
      (done? (request.run ⟨b.1, b.2, []⟩)).map fun c =>
        (c.1, [a.1.records, c.2.store.records], a.2.disk.content? a.1.index.file.path)) =
      some (.created x, [[], [x]], none) := by
    decide +kernel
  simp only [Option.bind_eq_some_iff, Option.map_eq_some_iff, Prod.exists, Prod.mk.injEq,
    List.cons.injEq, and_true, done?_eq_some] at hrun
  obtain ⟨s, h₁, hopen, other, h₂, hother, _, made, hx, rfl, ⟨hempty, hmade⟩, hmissing⟩ := hrun
  obtain ⟨hlaid, hholds⟩ := laid_and_holds_of_run hother hx
  have hlenient := lenient_of_open hopen
  have hreadable :=
    readable_of_run hother hx (fun c p => hlenient c p fun _ _ => rfl) (.ofData Role data)
  let f := (opened s h₁).rewritten made.host
  have hreach : f.Reachable data := ⟨host, h₁, s, hopen, .single (.foreign made.host)⟩
  -- one content only, since there was no file before
  have hapart : f.CollisionFree := by
    intro c c' hc hc' _
    have hversions : f.versions = [none, made.host.disk.content? s.index.file.path] := by
      rw [← hmissing]
      rfl
    simp only [hversions, List.mem_cons, reduceCtorEq, List.not_mem_nil, or_false, false_or]
      at hc hc'
    exact Option.some.inj (hc.trans hc'.symm)
  obtain ⟨outcome, desk, hrun, hfull, hrecords, -⟩ :=
    reconcile_converges .role hreach hapart hlaid.clear hreadable hholds
  refine ⟨data, f, _, hreach, hapart, hholds, hempty, ?_, outcome, desk, hrun, hfull, hrecords⟩
  rw [hmade]
  rfl

end Store

end WorkQueue
