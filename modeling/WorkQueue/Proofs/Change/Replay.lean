import Mathlib.Logic.Function.Basic
import WorkQueue.Change.Diff
import WorkQueue.Proofs.Keyed

/-!
# Replaying changes

A list of records is read as a map from ids to records. A change is legal on a map that holds under
its id what the change says was there before. The difference of two lists with distinct ids consists
of exactly the changes that the ids call for, one at most for each id; played one after another they
are all legal and lead from the map of the old list to that of the new one.
-/

namespace WorkQueue

variable {R : Type} [Record R]

namespace Record

/-- No two records have the same id. -/
def Distinct (records : List R) : Prop := (records.map Record.id).Nodup

instance (records : List R) : Decidable (Distinct records) :=
  inferInstanceAs (Decidable (records.map Record.id).Nodup)

theorem find?_eq_none {records : List R} {key : String} :
    find? records key = none ↔ ∀ r ∈ records, id r ≠ key := by
  simp [find?, List.find?_eq_none]

theorem id_of_find? {records : List R} {key : String} {r : R} (h : find? records key = some r) :
    id r = key := by
  simpa using List.find?_some h

theorem mem_of_find? {records : List R} {key : String} {r : R} (h : find? records key = some r) :
    r ∈ records :=
  List.mem_of_find?_eq_some h

theorem Distinct.find?_of_mem {records : List R} (h : Distinct records) {r : R} (hr : r ∈ records) :
    find? records (id r) = some r := by
  cases hf : find? records (id r) with
  | none => exact absurd rfl (find?_eq_none.1 hf r hr)
  | some r' =>
    have hid := id_of_find? hf
    rw [List.inj_on_of_nodup_map h (mem_of_find? hf) hr hid]

theorem Distinct.mem_iff_find? {records : List R} (h : Distinct records) {r : R} :
    r ∈ records ↔ find? records (id r) = some r :=
  ⟨h.find?_of_mem, mem_of_find?⟩

theorem Distinct.perm {records records' : List R} (h : Distinct records)
    (hp : records'.Perm records) : Distinct records' :=
  (hp.map id).nodup_iff.2 h

theorem Distinct.find?_perm {records records' : List R} (h : Distinct records)
    (hp : records'.Perm records) : find? records' = find? records := by
  funext key
  cases hf : find? records key with
  | none => exact find?_eq_none.2 fun r hr => find?_eq_none.1 hf r (hp.mem_iff.1 hr)
  | some r =>
    obtain rfl := id_of_find? hf
    exact (h.perm hp).find?_of_mem (hp.mem_iff.2 (mem_of_find? hf))

end Record

namespace Change

open Record (Distinct find?)

/-! ### Playing changes -/

def id (c : Change R) : String := Record.id c.record

/-- What is under the id after the change. -/
def value? : Change R → Option R
  | created r => some r
  | updated _ r => some r
  | deleted _ => none

/-- What was under the id before the change. -/
def before? : Change R → Option R
  | created _ => none
  | updated previous _ => previous
  | deleted r => some r

theorem id_of_value? {c : Change R} {r : R} (h : c.value? = some r) : Record.id r = c.id := by
  cases c with
  | created => exact congrArg Record.id (Option.some.inj h).symm
  | updated => exact congrArg Record.id (Option.some.inj h).symm
  | deleted => cases h

/-- The map holds under the id what the change says was there before. -/
def Legal (m : String → Option R) : Change R → Prop
  | created r => m (Record.id r) = none
  | updated previous r => previous.isSome ∧ m (Record.id r) = previous
  | deleted r => m (Record.id r) = some r

instance (m : String → Option R) (c : Change R) : Decidable (c.Legal m) := by
  cases c <;> unfold Legal <;> infer_instance

/-- The map after a change, where the change is legal. -/
def play (m : String → Option R) (c : Change R) : Option (String → Option R) :=
  if c.Legal m then some (Function.update m c.id c.value?) else none

/-- The map after all changes, where each is legal on what the ones before it left. -/
def replay (m : String → Option R) (cs : List (Change R)) : Option (String → Option R) :=
  cs.foldlM play m

theorem Legal.eq_before? {m : String → Option R} {c : Change R} (h : c.Legal m) :
    m c.id = c.before? := by
  cases c with
  | created r => exact h
  | updated previous r => exact h.2
  | deleted r => exact h

theorem eq_of_before?_of_value? {m m' : String → Option R} {c c' : Change R} (h : c.Legal m)
    (h' : c'.Legal m') (hbefore : c.before? = c'.before?) (hvalue : c.value? = c'.value?) :
    c = c' := by
  cases c with
  | created r =>
    cases c' with
    | created r' => exact congrArg created (Option.some.inj hvalue)
    | updated previous r' =>
      cases hbefore
      exact absurd h'.1 Bool.false_ne_true
    | deleted r' => cases hvalue
  | updated previous r =>
    cases c' with
    | created r' =>
      cases hbefore
      exact absurd h.1 Bool.false_ne_true
    | updated previous' r' => exact congrArg₂ updated hbefore (Option.some.inj hvalue)
    | deleted r' => cases hvalue
  | deleted r =>
    cases c' with
    | deleted r' => exact congrArg deleted (Option.some.inj hbefore)
    | _ => cases hvalue

theorem Legal.congr {m m' : String → Option R} {c : Change R} (h : c.Legal m)
    (he : m' c.id = m c.id) : c.Legal m' := by
  cases c with
  | created r => exact he.trans h
  | updated previous r => exact ⟨h.1, he.trans h.2⟩
  | deleted r => exact he.trans h

theorem replay_cons {m : String → Option R} {c : Change R} {cs : List (Change R)}
    (h : c.Legal m) : replay m (c :: cs) = replay (Function.update m c.id c.value?) cs := by
  rw [replay, List.foldlM_cons, play, if_pos h]
  rfl

theorem replay_singleton (m : String → Option R) (c : Change R) : replay m [c] = c.play m := by
  rw [replay, List.foldlM_cons]
  exact bind_pure _

theorem replay_append {m m' : String → Option R} {cs cs' : List (Change R)}
    (h : replay m cs = some m') : replay m (cs ++ cs') = replay m' cs' := by
  rw [replay] at h
  rw [replay, List.foldlM_append, h]
  rfl

/-- Changes of different records do not get into each other's way. -/
theorem exists_replay {cs : List (Change R)} {m : String → Option R} (hn : (cs.map id).Nodup)
    (hl : ∀ c ∈ cs, c.Legal m) : ∃ m', replay m cs = some m' ∧
      (∀ c ∈ cs, m' c.id = c.value?) ∧ ∀ key, key ∉ cs.map id → m' key = m key := by
  induction cs generalizing m with
  | nil => exact ⟨m, rfl, by simp, fun _ _ => rfl⟩
  | cons c cs ih =>
    obtain ⟨hc, hn⟩ := List.nodup_cons.1 hn
    have hother {key : String} (h : key ∈ cs.map id) :
        Function.update m c.id c.value? key = m key := by
      have hne : key ≠ c.id := fun he => hc (he ▸ h)
      exact Function.update_of_ne hne _ _
    have hlegal : ∀ c' ∈ cs, c'.Legal (Function.update m c.id c.value?) := fun c' h' =>
      (hl c' (List.mem_cons_of_mem c h')).congr (hother (List.mem_map_of_mem h'))
    obtain ⟨m', hm', hvalue, hkept⟩ := ih hn hlegal
    refine ⟨m', (replay_cons (hl c List.mem_cons_self)).trans hm', ?_, ?_⟩
    · intro c' h'
      rcases List.mem_cons.1 h' with rfl | h'
      · rw [hkept c'.id hc, Function.update_self]
      · exact hvalue c' h'
    · intro key hkey
      rw [List.map_cons, List.mem_cons, not_or] at hkey
      rw [hkept key hkey.2, Function.update_of_ne hkey.1]

/-! ### Differences -/

theorem ascending_byId (records : List R) : (byId records).Ascending :=
  Keyed.ofList_ascending _

theorem lookup_byId {records : List R} (h : Distinct records) (key : String) :
    (byId records).lookup key = find? records key := by
  have hkeys : ((records.map fun r => (Record.id r, r)).map Prod.fst).Nodup := by
    rw [List.map_map]
    exact h
  rw [byId, Keyed.lookup_ofList, Keyed.lookup_reverse hkeys]
  clear h hkeys
  induction records with
  | nil => rfl
  | cons r records ih =>
    rw [List.map_cons, Keyed.lookup_cons_eq, ih]
    unfold Record.find?
    rw [List.find?_cons]
    by_cases hk : key = Record.id r
    · simp [hk]
    · have hk' : Record.id r ≠ key := fun he => hk he.symm
      simp [hk, hk']

theorem mem_byId_iff_lookup {records : List R} {key : String} {r : R} :
    (key, r) ∈ byId records ↔ (byId records).lookup key = some r :=
  ⟨Keyed.lookup_eq_some_of_mem (ascending_byId records).nodup, Keyed.mem_of_lookup_eq_some⟩

theorem mem_byId {records : List R} (h : Distinct records) {key : String} {r : R} :
    (key, r) ∈ byId records ↔ find? records key = some r := by
  rw [mem_byId_iff_lookup, lookup_byId h]

theorem contains_byId {records : List R} (h : Distinct records) (key : String) :
    (byId records).contains key = (find? records key).isSome := by
  rw [Keyed.contains_eq_isSome, lookup_byId h]

variable {old new : List R}

theorem mem_deletions (hold : Distinct old) (hnew : Distinct new) {c : Change R} :
    c ∈ deletions (byId old) (byId new) ↔
      ∃ r, c = .deleted r ∧ find? old (Record.id r) = some r ∧ find? new (Record.id r) = none := by
  simp only [deletions, List.mem_map, List.mem_filter, Prod.exists, mem_byId hold,
    contains_byId hnew, Bool.not_eq_true', Option.isSome_eq_false_iff, Option.isNone_iff_eq_none]
  constructor
  · rintro ⟨key, r, ⟨hr, hn⟩, rfl⟩
    obtain rfl := Record.id_of_find? hr
    exact ⟨r, rfl, hr, hn⟩
  · rintro ⟨r, rfl, hr, hn⟩
    exact ⟨Record.id r, r, ⟨hr, hn⟩, rfl⟩

theorem mem_creations (hold : Distinct old) (hnew : Distinct new) {c : Change R} :
    c ∈ creations (byId old) (byId new) ↔
      ∃ r, c = .created r ∧ find? old (Record.id r) = none ∧ find? new (Record.id r) = some r := by
  simp only [creations, List.mem_map, List.mem_filter, Prod.exists, mem_byId hnew,
    contains_byId hold, Bool.not_eq_true', Option.isSome_eq_false_iff, Option.isNone_iff_eq_none]
  constructor
  · rintro ⟨key, r, ⟨hr, hn⟩, rfl⟩
    obtain rfl := Record.id_of_find? hr
    exact ⟨r, rfl, hn, hr⟩
  · rintro ⟨r, rfl, hn, hr⟩
    exact ⟨Record.id r, r, ⟨hr, hn⟩, rfl⟩

theorem mem_updates (hold : Distinct old) (hnew : Distinct new) {c : Change R} :
    c ∈ updates (byId old) (byId new) ↔ ∃ previous r, c = .updated (some previous) r ∧
      find? old (Record.id r) = some previous ∧ find? new (Record.id r) = some r ∧
      previous ≠ r := by
  simp only [updates, List.mem_filterMap, Prod.exists, mem_byId hnew, lookup_byId hold]
  constructor
  · rintro ⟨key, r, hr, h⟩
    obtain rfl := Record.id_of_find? hr
    cases hprevious : find? old (Record.id r) with
    | none => simp [hprevious] at h
    | some previous =>
      by_cases heq : previous = r
      · simp [hprevious, heq] at h
      · simp only [hprevious, heq, if_false, Option.some.injEq] at h
        exact ⟨previous, r, h.symm, hprevious, hr, heq⟩
  · rintro ⟨previous, r, rfl, hprevious, hr, hne⟩
    exact ⟨Record.id r, r, hr, by simp [hprevious, hne]⟩

/-- The difference consists of the changes that the ids call for. -/
theorem mem_diff (hold : Distinct old) (hnew : Distinct new) {c : Change R} :
    c ∈ diff old new ↔ c.Legal (find? old) ∧ find? new c.id = c.value? ∧
      find? old c.id ≠ find? new c.id := by
  simp only [diff, List.mem_append, mem_deletions hold hnew, mem_creations hold hnew,
    mem_updates hold hnew]
  cases c with
  | created r =>
    simp only [Legal, id, record, value?, reduceCtorEq, false_and, exists_false, false_or, or_false,
      created.injEq, exists_eq_left']
    constructor
    · rintro ⟨ho, hn⟩
      exact ⟨ho, hn, by simp [ho, hn]⟩
    · rintro ⟨ho, hn, -⟩
      exact ⟨ho, hn⟩
  | updated previous r =>
    simp only [Legal, id, record, value?, reduceCtorEq, false_and, exists_false, false_or,
      updated.injEq]
    constructor
    · rintro ⟨p, _, ⟨rfl, rfl⟩, ho, hn, hne⟩
      exact ⟨⟨rfl, ho⟩, hn, by simp [ho, hn, hne]⟩
    · rintro ⟨⟨hsome, ho⟩, hn, hne⟩
      obtain ⟨p, rfl⟩ := Option.isSome_iff_exists.1 hsome
      exact ⟨p, r, ⟨rfl, rfl⟩, ho, hn, by simpa [ho, hn] using hne⟩
  | deleted r =>
    simp only [Legal, id, record, value?, reduceCtorEq, false_and, exists_false, or_false,
      deleted.injEq, exists_eq_left']
    constructor
    · rintro ⟨ho, hn⟩
      exact ⟨ho, hn, by simp [ho, hn]⟩
    · rintro ⟨ho, hn, -⟩
      exact ⟨ho, hn⟩

/-- Every id that is not among those of the difference has the same record in both lists. -/
theorem find?_eq_of_notMem_diff (hold : Distinct old) (hnew : Distinct new) {key : String}
    (h : key ∉ (diff old new).map id) : find? old key = find? new key := by
  by_contra hne
  have hmem {c : Change R} (hid : c.id = key) (hl : c.Legal (find? old))
      (hv : find? new c.id = c.value?) : False := by
    subst hid
    exact h (List.mem_map_of_mem ((mem_diff hold hnew).2 ⟨hl, hv, hne⟩))
  cases ho : find? old key with
  | none =>
    cases hn : find? new key with
    | none => exact hne (ho.trans hn.symm)
    | some r =>
      obtain rfl := Record.id_of_find? hn
      exact hmem (c := .created r) rfl ho hn
  | some previous =>
    cases hn : find? new key with
    | none =>
      obtain rfl := Record.id_of_find? ho
      exact hmem (c := .deleted previous) rfl ho hn
    | some r =>
      obtain rfl := Record.id_of_find? hn
      exact hmem (c := .updated (some previous) r) rfl ⟨rfl, ho⟩ hn

/-- An id decides which change of it there can be. -/
theorem eq_of_mem_diff (hold : Distinct old) (hnew : Distinct new) {c c' : Change R}
    (h : c ∈ diff old new) (h' : c' ∈ diff old new) (hid : c.id = c'.id) : c = c' := by
  obtain ⟨hl, hv, -⟩ := (mem_diff hold hnew).1 h
  obtain ⟨hl', hv', -⟩ := (mem_diff hold hnew).1 h'
  have hbefore : c.before? = c'.before? := by rw [← hl.eq_before?, ← hl'.eq_before?, hid]
  have hvalue : c.value? = c'.value? := by rw [← hv, ← hv', hid]
  exact eq_of_before?_of_value? hl hl' hbefore hvalue

/-! ### No difference -/

/-- Under every id there is the same record, the last one where several have the id. -/
def SameRecords (old new : List R) : Prop := ∀ id, (byId old).lookup id = (byId new).lookup id

theorem contains_byId_iff {records : List R} {key : String} :
    (byId records).contains key = true ↔ ∃ r, (byId records).lookup key = some r := by
  rw [Keyed.contains_eq_isSome, Option.isSome_iff_exists]

theorem deletions_eq_nil_iff : deletions (byId old) (byId new) = [] ↔
    ∀ id r, (byId old).lookup id = some r → ∃ r', (byId new).lookup id = some r' := by
  simp only [deletions, List.map_eq_nil_iff, List.filter_eq_nil_iff, Prod.forall,
    mem_byId_iff_lookup, Bool.not_eq_true', Bool.not_eq_false, contains_byId_iff]

theorem creations_eq_nil_iff : creations (byId old) (byId new) = [] ↔
    ∀ id r, (byId new).lookup id = some r → ∃ r', (byId old).lookup id = some r' := by
  simp only [creations, List.map_eq_nil_iff, List.filter_eq_nil_iff, Prod.forall,
    mem_byId_iff_lookup, Bool.not_eq_true', Bool.not_eq_false, contains_byId_iff]

theorem updates_eq_nil_iff : updates (byId old) (byId new) = [] ↔
    ∀ id r r', (byId new).lookup id = some r → (byId old).lookup id = some r' → r' = r := by
  simp only [updates, List.filterMap_eq_nil_iff, Prod.forall, mem_byId_iff_lookup]
  refine forall_congr' fun id => forall_congr' fun r => ?_
  cases (byId old).lookup id with
  | none => simp
  | some r' => simp

theorem diff_eq_nil_iff : diff old new = [] ↔ SameRecords old new := by
  simp only [diff, List.append_eq_nil_iff, deletions_eq_nil_iff, creations_eq_nil_iff,
    updates_eq_nil_iff]
  constructor
  · rintro ⟨⟨hdeleted, hcreated⟩, hupdated⟩ id
    cases hold : (byId old).lookup id with
    | none =>
      cases hnew : (byId new).lookup id with
      | none => rfl
      | some r =>
        obtain ⟨r', hr'⟩ := hcreated id r hnew
        rw [hold] at hr'
        cases hr'
    | some r' =>
      obtain ⟨r, hr⟩ := hdeleted id r' hold
      rw [hr, hupdated id r r' hr hold]
  · intro hsame
    refine ⟨⟨fun id r h => ⟨r, hsame id ▸ h⟩, fun id r h => ⟨r, hsame id ▸ h⟩⟩, ?_⟩
    intro id r r' hnew hold
    rw [hsame id, hnew] at hold
    exact (Option.some.inj hold).symm

/-- A list differs from itself in nothing, whatever ids it repeats. -/
theorem diff_self (records : List R) : diff records records = [] :=
  diff_eq_nil_iff.2 fun _ => rfl

/-- Where ids are distinct, the same records are the same up to their order. -/
theorem sameRecords_iff_perm (hold : Distinct old) (hnew : Distinct new) :
    SameRecords old new ↔ old.Perm new := by
  constructor
  · intro h
    have hmem (r : R) : r ∈ old ↔ r ∈ new := by
      rw [hold.mem_iff_find?, hnew.mem_iff_find?, ← lookup_byId hold, ← lookup_byId hnew, h]
    exact (List.perm_ext_iff_of_nodup hold.of_map hnew.of_map).2 hmem
  · intro h key
    rw [lookup_byId hold, lookup_byId hnew, hnew.find?_perm h]

/-! ### Order

The changes of one kind are in ascending order of their ids. -/

def Ascending (cs : List (Change R)) : Prop := cs.Pairwise fun c c' => c.id < c'.id

theorem Ascending.nodup {cs : List (Change R)} (h : Ascending cs) : (cs.map id).Nodup :=
  List.pairwise_map.2 (h.imp fun hlt => ne_of_lt hlt)

theorem id_of_mem_byId {records : List R} {e : String × R} (h : e ∈ byId records) :
    Record.id e.2 = e.1 := by
  obtain ⟨r, -, rfl⟩ := List.mem_map.1 (Keyed.mem_of_mem_ofList h)
  rfl

theorem pairwise_byId (records : List R) :
    (byId records).Pairwise fun e e' => Record.id e.2 < Record.id e'.2 := by
  refine (List.pairwise_map.1 (ascending_byId records)).imp_of_mem fun he he' hlt => ?_
  rwa [id_of_mem_byId he, id_of_mem_byId he']

theorem ascending_deletions (old : List R) (m : Keyed R) : Ascending (deletions (byId old) m) :=
  ((pairwise_byId old).filter _).map _ fun _ _ hlt => hlt

theorem ascending_creations (m : Keyed R) (new : List R) : Ascending (creations m (byId new)) :=
  ((pairwise_byId new).filter _).map _ fun _ _ hlt => hlt

theorem id_of_mem_updates {m : Keyed R} {e : String × R} {c : Change R} (h : c ∈ updates m [e]) :
    c.id = Record.id e.2 := by
  obtain ⟨e', he', hc⟩ := List.mem_filterMap.1 h
  obtain rfl := List.mem_singleton.1 he'
  split at hc
  · split at hc
    · cases hc
    · cases hc
      rfl
  · cases hc

theorem ascending_updates (m : Keyed R) (new : List R) : Ascending (updates m (byId new)) := by
  refine (pairwise_byId new).filterMap _ fun e e' hlt c hc c' hc' => ?_
  have hid : c.id = Record.id e.2 :=
    id_of_mem_updates (List.mem_filterMap.2 ⟨e, List.mem_singleton_self e, hc⟩)
  have hid' : c'.id = Record.id e'.2 :=
    id_of_mem_updates (List.mem_filterMap.2 ⟨e', List.mem_singleton_self e', hc'⟩)
  rwa [hid, hid']

/-- No id occurs twice in a difference. -/
theorem nodup_diff (hold : Distinct old) (hnew : Distinct new) :
    ((diff old new).map id).Nodup := by
  have hd := (ascending_deletions old (byId new)).nodup
  have hc := (ascending_creations (byId old) new).nodup
  have hu := (ascending_updates (byId old) new).nodup
  have apart {k k' : Operation} {cs cs' : List (Change R)} (hne : k ≠ k')
      (hk : ∀ c ∈ cs, c ∈ diff old new ∧ c.operation = k)
      (hk' : ∀ c ∈ cs', c ∈ diff old new ∧ c.operation = k') :
      (cs.map id).Disjoint (cs'.map id) := by
    intro key h h'
    obtain ⟨c, hmem, rfl⟩ := List.mem_map.1 h
    obtain ⟨c', hmem', hid⟩ := List.mem_map.1 h'
    obtain rfl := eq_of_mem_diff hold hnew (hk' c' hmem').1 (hk c hmem).1 hid
    exact hne ((hk c' hmem).2.symm.trans (hk' c' hmem').2)
  have kd : ∀ c ∈ deletions (byId old) (byId new), c ∈ diff old new ∧ c.operation = .delete := by
    intro c h
    obtain ⟨r, rfl, -, -⟩ := (mem_deletions hold hnew).1 h
    exact ⟨by simp [diff, h], rfl⟩
  have kc : ∀ c ∈ creations (byId old) (byId new), c ∈ diff old new ∧ c.operation = .create := by
    intro c h
    obtain ⟨r, rfl, -, -⟩ := (mem_creations hold hnew).1 h
    exact ⟨by simp [diff, h], rfl⟩
  have ku : ∀ c ∈ updates (byId old) (byId new), c ∈ diff old new ∧ c.operation = .update := by
    intro c h
    obtain ⟨previous, r, rfl, -, -, -⟩ := (mem_updates hold hnew).1 h
    exact ⟨by simp [diff, h], rfl⟩
  have hdc := apart (by decide) kd kc
  have hdu := apart (by decide) kd ku
  have hcu := apart (by decide) kc ku
  rw [diff, List.map_append, List.map_append]
  exact (hd.append hc hdc).append hu (List.disjoint_append_left.2 ⟨hdu, hcu⟩)

/-- The difference leads from one list to the other, every change legal where it stands. -/
theorem replay_diff (hold : Distinct old) (hnew : Distinct new) :
    replay (find? old) (diff old new) = some (find? new) := by
  have hlegal : ∀ c ∈ diff old new, c.Legal (find? old) := fun c h =>
    ((mem_diff hold hnew).1 h).1
  obtain ⟨m, hm, hvalue, hkept⟩ := exists_replay (nodup_diff hold hnew) hlegal
  rw [hm]
  congr 1
  funext key
  by_cases hkey : key ∈ (diff old new).map id
  · obtain ⟨c, hc, rfl⟩ := List.mem_map.1 hkey
    rw [hvalue c hc, ((mem_diff hold hnew).1 hc).2.1]
  · rw [hkept key hkey, find?_eq_of_notMem_diff hold hnew hkey]

end Change

end WorkQueue
