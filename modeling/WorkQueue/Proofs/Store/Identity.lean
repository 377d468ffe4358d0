import Mathlib.Logic.Relation
import WorkQueue.Proofs.Change.Replay
import WorkQueue.Proofs.Store.World

/-!
# One record for each id

Where the index that the first store found has distinct ids, so have the index and every store from
then on, and so has everything that was read and not absorbed yet. The events of a commit then lead
from the records before it to the records after it, as maps from ids.
-/

namespace WorkQueue

open Record (Distinct find?)

namespace Store

variable {R : Type} [Record R]

/-- What an edit leaves is what was there, or the value that it gives. -/
theorem Edit.mem_or_value {records records' : List R} {change : Change R}
    (h : Edit records records' change) {r : R} (hr : r ∈ records') :
    r ∈ records ∨ change.value? = some r := by
  cases h with
  | created fresh =>
    rcases List.mem_append.1 hr with hr | hr
    · exact Or.inl hr
    · exact Or.inr (List.mem_singleton.1 hr ▸ rfl)
  | updated first same =>
    rcases List.mem_append.1 hr with hr | hr
    · exact Or.inl (List.mem_append_left _ hr)
    · rcases List.mem_cons.1 hr with rfl | hr
      · exact Or.inr rfl
      · exact Or.inl (List.mem_append_right _ (List.mem_cons_of_mem _ hr))
  | deleted first =>
    rcases List.mem_append.1 hr with hr | hr
    · exact Or.inl (List.mem_append_left _ hr)
    · exact Or.inl (List.mem_append_right _ (List.mem_cons_of_mem _ hr))

/-- A record that an edit does not delete is there afterwards, if with another value. -/
theorem Edit.exists_mem {records records' : List R} {change : Change R}
    (h : Edit records records' change) {r : R} (hr : r ∈ records) :
    (∃ r' ∈ records', Record.id r' = Record.id r) ∨ ∃ removed, change = .deleted removed ∧
      Record.id r = Record.id removed := by
  cases h with
  | created fresh => exact Or.inl ⟨r, List.mem_append_left _ hr, rfl⟩
  | @updated before after previous next first same =>
    left
    rcases List.mem_append.1 hr with hr | hr
    · exact ⟨r, List.mem_append_left _ hr, rfl⟩
    · rcases List.mem_cons.1 hr with rfl | hr
      · exact ⟨next, List.mem_append_right _ List.mem_cons_self, same⟩
      · exact ⟨r, List.mem_append_right _ (List.mem_cons_of_mem _ hr), rfl⟩
  | @deleted before after removed first =>
    rcases List.mem_append.1 hr with hr | hr
    · exact Or.inl ⟨r, List.mem_append_left _ hr, rfl⟩
    · rcases List.mem_cons.1 hr with rfl | hr
      · exact Or.inr ⟨r, rfl, rfl⟩
      · exact Or.inl ⟨r, List.mem_append_right _ hr, rfl⟩

theorem Edit.distinct {records records' : List R} {change : Change R}
    (h : Edit records records' change) (hd : Distinct records) : Distinct records' := by
  cases h with
  | created fresh =>
    unfold Distinct at hd ⊢
    rw [List.map_append, List.map_singleton, ← List.concat_eq_append]
    refine hd.concat fun hmem => ?_
    obtain ⟨r, hr, hid⟩ := List.mem_map.1 hmem
    exact Record.find?_eq_none.1 fresh r hr hid
  | updated first same =>
    unfold Distinct at hd ⊢
    rw [List.map_append, List.map_cons] at hd ⊢
    rwa [same]
  | deleted first => exact hd.sublist (((List.sublist_cons_self _ _).append_left _).map _)

/-- Where ids are distinct, an update replaces the record under its id and no other. -/
theorem Edit.eq_map {records records' : List R} {previous next : R}
    (h : Edit records records' (.updated (some previous) next)) (hd : Distinct records) :
    records' = records.map fun r => if Record.id r = Record.id previous then next else r := by
  cases h with
  | @updated before after _ _ first same =>
    have hnodup := hd
    unfold Distinct at hnodup
    rw [List.map_append, List.map_cons] at hnodup
    have hafter : ∀ r ∈ after, Record.id r ≠ Record.id previous := by
      intro r hr hid
      have hnot := (List.nodup_cons.1 (List.nodup_append.1 hnodup).2.1).1
      exact hnot (hid ▸ List.mem_map_of_mem hr)
    have hkept (l : List R) (hl : ∀ r ∈ l, Record.id r ≠ Record.id previous) :
        l.map (fun r => if Record.id r = Record.id previous then next else r) = l := by
      refine (List.map_congr_left fun r hr => ?_).trans l.map_id
      exact if_neg (hl r hr)
    rw [List.map_append, List.map_cons, if_pos rfl, hkept before first, hkept after hafter]

theorem Edit.legal {records records' : List R} {change : Change R}
    (h : Edit records records' change) (hd : Distinct records) :
    change.Legal (find? records) := by
  cases h with
  | created fresh => exact fresh
  | updated first same =>
    have hfind := hd.find?_of_mem (List.mem_append_right _ List.mem_cons_self)
    exact ⟨rfl, same ▸ hfind⟩
  | deleted first => exact hd.find?_of_mem (List.mem_append_right _ List.mem_cons_self)

theorem Edit.find?_id {records records' : List R} {change : Change R}
    (h : Edit records records' change) (hd : Distinct records) :
    find? records' change.id = change.value? := by
  cases h with
  | created fresh => exact find?_created fresh
  | updated first same => exact find?_updated first same
  | @deleted before after removed first =>
    have hafter : ∀ r ∈ after, Record.id r ≠ Record.id removed := by
      unfold Distinct at hd
      rw [List.map_append, List.map_cons, List.nodup_append] at hd
      intro r hr hid
      exact (List.nodup_cons.1 hd.2.1).1 (hid ▸ List.mem_map_of_mem hr)
    refine Record.find?_eq_none.2 fun r hr => ?_
    rcases List.mem_append.1 hr with hr | hr
    · exact first r hr
    · exact hafter r hr

/-- Where ids are distinct, an edit puts its value in the place of the record with its id. -/
theorem Edit.mem_iff {records records' : List R} {change : Change R}
    (h : Edit records records' change) (hd : Distinct records) {r : R} :
    r ∈ records' ↔ change.value? = some r ∨ r ∈ records ∧ Record.id r ≠ change.id := by
  rw [(h.distinct hd).mem_iff_find?, hd.mem_iff_find?]
  by_cases hr : Record.id r = change.id
  · rw [hr, h.find?_id hd]
    simp
  · have hvalue : change.value? ≠ some r := fun hv => hr (Change.id_of_value? hv)
    rw [h.find?_of_ne fun hid => hr hid.symm]
    simp [hvalue, hr]

/-- A change is legal on the map of the records that it edits, and leads to that of the edited
ones. -/
theorem Edit.play {records records' : List R} {change : Change R}
    (h : Edit records records' change) (hd : Distinct records) :
    change.play (find? records) = some (find? records') := by
  rw [Change.play, if_pos (h.legal hd)]
  congr 1
  funext key
  by_cases hkey : key = change.id
  · rw [hkey, Function.update_self, h.find?_id hd]
  · rw [Function.update_of_ne hkey, h.find?_of_ne fun hid => hkey hid.symm]

/-! ### Distinct ids -/

/-- What a process has in memory, and what it has read, has distinct ids. -/
structure Process.Sound (p : Process R) : Prop where
  records : Distinct p.store.records
  readings : ∀ reading ∈ p.readings, Distinct reading.loaded.records

/-- What the index holds has distinct ids. -/
def Clean (R : Type) [Record R] (i : Index) (d : Disk) : Prop :=
  ∀ loaded : Index.Loaded R, i.Holds d loaded → Distinct loaded.records

theorem Clean.of_content?_eq {i : Index} {d d' : Disk} (h : Clean R i d)
    (hc : d'.content? i.file.path = d.content? i.file.path) : Clean R i d' :=
  fun loaded hh => h loaded (hh.of_content?_eq hc.symm)

theorem Clean.of_holds {i : Index} {d : Disk} {loaded : Index.Loaded R} (h : i.Holds d loaded)
    (hd : Distinct loaded.records) : Clean R i d :=
  fun _ hh => hh.unique h ▸ hd

theorem sound_of_open {data : Location} {host host' : Host} {s : Store R}
    (hopen : Store.open data host = .ok s host')
    (hc : Clean R (Index.ofData R data) host.disk) : Process.Sound ⟨s, []⟩ := by
  obtain ⟨loaded, disk, hread, rfl, rfl⟩ := eq_of_open hopen
  obtain ⟨hkept, -, hholds⟩ := Index.leads_indexRead.of_ok hread
  exact ⟨hc.of_content?_eq hkept.content?_eq loaded hholds, by simp⟩

section Steps

variable [LawfulRecord R] {p p' : Process R} {h h' : Host} {a : Option (Answer R)}
  {commits : List (Commit R)}

omit [LawfulRecord R] in
theorem Process.Known.distinct {loaded : Index.Loaded R} (hk : p.Known h loaded) (hp : p.Sound)
    (hc : Clean R p.store.index h.disk) : Distinct loaded.records := by
  rcases hk with hh | ⟨reading, hr, -, rfl⟩
  · exact hc loaded hh
  · exact hp.readings reading hr

theorem Process.Step.sound (hs : p.Step h a commits p' h') (hp : p.Sound) (hr : p.Regular)
    (hc : Clean R p.store.index h.disk) : p'.Sound ∧ Clean R p.store.index h'.disk := by
  have hrest : Distinct p'.store.records ∧ Clean R p.store.index h'.disk := by
    rcases hs.effect with ⟨-, idle⟩ | ⟨-, edit, committed⟩ | ⟨-, known, took⟩
    · have hstore : p'.store = p.store := idle.store
      exact ⟨hstore ▸ hp.records, hc.of_content?_eq idle.disk.content?_eq⟩
    · have hrecords : p'.store.records = _ := committed.records_eq
      have hd := edit.distinct hp.records
      rw [← hrecords] at hd
      exact ⟨hd, .of_holds (committed.holds (edit.allRegular hr.records)) hd⟩
    · have hstore : p'.store = _ := took.store
      rw [hstore]
      exact ⟨known.distinct hp hc, hc.of_content?_eq took.disk.content?_eq⟩
  refine ⟨⟨hrest.1, fun reading hmem => ?_⟩, hrest.2⟩
  rcases hs.mem_readings hmem with hold | ⟨-, hnew⟩
  · exact hp.readings reading hold
  · exact hrest.2 _ hnew

/-- What a step commits: nothing, and the ids keep their records and the store its revision; or one
commit of the next revision, whose events lead from the records before to the records after it and
tell of records that are there then. -/
inductive Process.Tells (p : Process R) : List (Commit R) → Process R → Prop where
  | nothing {p' : Process R} (same : find? p'.store.records = find? p.store.records)
      (revision : p'.store.revision = p.store.revision) : Tells p [] p'
  | commit {p' : Process R} {c : Commit R}
      (revision : p'.store.revision = p.store.revision + 1)
      (stamped : ∀ e ∈ c.events, e.revision = p.store.revision + 1)
      (store : c.store = p'.store)
      (replay : Change.replay (find? p.store.records) (c.events.map Event.change)
        = some (find? p'.store.records))
      (present : ∀ e ∈ c.events, ∀ r ∈ e.change.value?, r ∈ p'.store.records) : Tells p [c] p'

theorem Process.Step.tells (hs : p.Step h a commits p' h') (hp : p.Sound)
    (hclean : Clean R p.store.index h.disk) : p.Tells commits p' := by
  cases hs.effect with
  | idle silent idle =>
    have hstore : p'.store = p.store := idle.store
    have hcommits : commits = [] := idle.commits
    rw [hcommits]
    exact .nothing (by rw [hstore]) (by rw [hstore])
  | @changed _ records change _ _ edit committed =>
    have hrecords : p'.store.records = records := committed.records_eq
    have hcommits : commits = [⟨[⟨change, p.store.revision + 1⟩], p'.store, h'⟩] :=
      committed.commits
    obtain ⟨content, -, -, hstore⟩ := committed.written
    have hstore : p'.store = _ := hstore
    rw [hcommits]
    refine .commit (congrArg Store.revision hstore) (by simp) rfl ?_ ?_
    · rw [hrecords]
      exact (Change.replay_singleton _ _).trans (edit.play hp.records)
    · intro e he r hr
      rw [List.mem_singleton.1 he] at hr
      exact hrecords ▸ Record.mem_of_find? ((edit.find?_id hp.records).trans hr)
  | @tookOver _ loaded _ _ known took =>
    have hstore : p'.store = _ := took.store
    have hrecords : p'.store.records = loaded.records := congrArg Store.records hstore
    have hreplay := Change.replay_diff hp.records (known.distinct hp hclean)
    have hrevision : p'.store.revision = p.store.revision +
        if (Change.diff p.store.records loaded.records).isEmpty then 0 else 1 :=
      congrArg Store.revision hstore
    have hcommits : commits =
        if (Change.diff p.store.records loaded.records).isEmpty then []
        else [{
          events := Change.events p.store.records loaded.records (p.store.revision + 1)
          store := p'.store
          host := h' }] :=
      took.commits
    rw [← hrecords] at hreplay hrevision hcommits
    by_cases hd : (Change.diff p.store.records p'.store.records).isEmpty = true
    · rw [if_pos hd] at hrevision hcommits
      rw [List.isEmpty_iff.1 hd] at hreplay
      rw [hcommits]
      exact .nothing (Option.some.inj hreplay).symm hrevision
    · rw [if_neg hd] at hrevision hcommits
      rw [hcommits]
      refine .commit hrevision (fun e he => ?_) rfl ?_ fun e he r hr => ?_
      · obtain ⟨c, -, rfl⟩ := List.mem_map.1 he
        rfl
      · rw [Change.events, List.map_map]
        exact (congrArg _ (List.map_id _)).trans hreplay
      · obtain ⟨c, hc, rfl⟩ := List.mem_map.1 he
        have hd' : Distinct p'.store.records := hrecords ▸ known.distinct hp hclean
        exact Record.mem_of_find? (((Change.mem_diff hp.records hd').1 hc).2.1.trans hr)

end Steps

namespace World

/-- Every process and the index have distinct ids, and the index is the same for all. -/
structure Sound (data : Location) (w : World R) : Prop where
  shared : w.Shared data
  processes : ∀ n p, w.processes n = some p → p.Sound
  disk : Clean R (Index.ofData R data) w.host.disk

/-- The worlds that can come about on a host. -/
def Reachable (data : Location) (host : Host) : World R → Prop :=
  Relation.ReflTransGen (Step data) { host }

variable [LawfulRecord R] {data : Location} {w w' : World R}

theorem Step.sound (hs : Step data w w') (hw : w.Sound data) : w'.Sound data := by
  have hshared := hs.shared hw.shared
  cases hs with
  | opened _ run =>
    have hdisk := hw.disk.of_content?_eq (content?_of_open run).2
    refine ⟨hshared, fun m q hq => ?_, hdisk⟩
    rcases eq_or_eq_of_update hq with h | h
    · obtain rfl := Option.some.inj h
      exact sound_of_open run hw.disk
    · exact hw.processes m q h
  | acted found step =>
    obtain ⟨hindex, hregular⟩ := hw.shared _ _ found
    obtain ⟨hp, hdisk⟩ := step.sound (hw.processes _ _ found) hregular (hindex ▸ hw.disk)
    refine ⟨hshared, fun m q hq => ?_, hindex ▸ hdisk⟩
    rcases eq_or_eq_of_update hq with h | h
    · obtain rfl := Option.some.inj h
      exact hp
    · exact hw.processes m q h
  | dropped n =>
    refine ⟨hshared, fun m q hq => ?_, hw.disk⟩
    rcases eq_or_eq_of_update hq with h | h
    · cases h
    · exact hw.processes m q h
  | outside same => exact ⟨hshared, hw.processes, hw.disk.of_content?_eq same⟩

theorem Reachable.sound {host : Host} (hr : Reachable data host w)
    (hc : Clean R (Index.ofData R data) host.disk) : w.Sound data := by
  induction hr with
  | refl => exact ⟨fun _ _ h => (nomatch h), fun _ _ h => (nomatch h), hc⟩
  | tail _ hs ih => exact hs.sound ih

end World

end Store

end WorkQueue
