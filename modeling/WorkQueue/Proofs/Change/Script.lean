import Mathlib.Data.List.Perm.Subperm
import WorkQueue.Proofs.Change.Replay
import WorkQueue.Record.Role

/-!
# Differences as edit scripts

The events of a difference are a script: played one after another they turn the map of the old
records into that of the new ones, no id is touched twice and none without effect, and the
deletions come before the creations and these before the updates. Two lists have only one script for
a revision, and no other list of changes leads from the one map to the other in fewer steps.
-/

namespace WorkQueue

variable {R : Type} [Record R]

namespace Change

open Record (Distinct find?)

variable {old new : List R}

/-! ### What a replay touches -/

/-- A map keeps what it has under the ids that no change is of. -/
theorem eq_of_replay_of_notMem {cs : List (Change R)} {m m' : String → Option R}
    (h : replay m cs = some m') {key : String} (hkey : key ∉ cs.map id) : m' key = m key := by
  induction cs generalizing m with
  | nil => exact congrFun (Option.some.inj h).symm key
  | cons c cs ih =>
    rw [List.map_cons, List.mem_cons, not_or] at hkey
    by_cases hlegal : c.Legal m
    · rw [replay_cons hlegal] at h
      rw [ih h hkey.2, Function.update_of_ne hkey.1]
    · rw [replay, List.foldlM_cons, play, if_neg hlegal] at h
      cases h

theorem mem_ids_of_replay {cs : List (Change R)} {m m' : String → Option R}
    (h : replay m cs = some m') {key : String} (hne : m key ≠ m' key) : key ∈ cs.map id := by
  by_contra hkey
  exact hne (eq_of_replay_of_notMem h hkey).symm

/-- The ids of a difference are those under which the lists have different records. -/
theorem mem_ids_diff (hold : Distinct old) (hnew : Distinct new) {key : String} :
    key ∈ (diff old new).map id ↔ find? old key ≠ find? new key := by
  constructor
  · intro h
    obtain ⟨c, hc, rfl⟩ := List.mem_map.1 h
    exact ((mem_diff hold hnew).1 hc).2.2
  · intro hne
    exact mem_ids_of_replay (replay_diff hold hnew) hne

/-- Whatever leads from one map to the other has a change for each id of the difference. -/
theorem length_diff_le (hold : Distinct old) (hnew : Distinct new) {cs : List (Change R)}
    (h : replay (find? old) cs = some (find? new)) : (diff old new).length ≤ cs.length := by
  have hsubset : (diff old new).map id ⊆ cs.map id := fun _ hkey =>
    mem_ids_of_replay h ((mem_ids_diff hold hnew).1 hkey)
  have hle := (List.subperm_of_subset (nodup_diff hold hnew) hsubset).length_le
  rwa [List.length_map, List.length_map] at hle

/-! ### Order of a script -/

/-- The deletions, then the creations, then the updates, each of them in ascending order of the
ids. -/
def Ordered (cs : List (Change R)) : Prop :=
  ∃ deletes creates updates : List (Change R), cs = deletes ++ creates ++ updates ∧
    (∀ c ∈ deletes, c.operation = .delete) ∧ (∀ c ∈ creates, c.operation = .create) ∧
    (∀ c ∈ updates, c.operation = .update) ∧
    Ascending deletes ∧ Ascending creates ∧ Ascending updates

theorem ordered_diff (hold : Distinct old) (hnew : Distinct new) : Ordered (diff old new) := by
  refine ⟨deletions (byId old) (byId new), creations (byId old) (byId new),
    updates (byId old) (byId new), rfl, ?_, ?_, ?_, ascending_deletions _ _,
    ascending_creations _ _, ascending_updates _ _⟩
  · intro c h
    obtain ⟨r, rfl, -⟩ := (mem_deletions hold hnew).1 h
    rfl
  · intro c h
    obtain ⟨r, rfl, -⟩ := (mem_creations hold hnew).1 h
    rfl
  · intro c h
    obtain ⟨previous, r, rfl, -⟩ := (mem_updates hold hnew).1 h
    rfl

/-- The place of a kind of change in an ordered list. -/
def rank (c : Change R) : Nat :=
  match c.operation with
  | .delete => 0
  | .create => 1
  | .update => 2

/-- One change comes before another in an ordered list. -/
def Before (c c' : Change R) : Prop := c.rank < c'.rank ∨ c.rank = c'.rank ∧ c.id < c'.id

theorem Before.asymm {c c' : Change R} (h : Before c c') : ¬ Before c' c := by
  rcases h with hlt | ⟨heq, hlt⟩
  · rintro (hgt | ⟨heq, -⟩) <;> omega
  · rintro (hgt | ⟨-, hgt⟩)
    · omega
    · exact lt_asymm hlt hgt

theorem Ordered.pairwise {cs : List (Change R)} (h : Ordered cs) : cs.Pairwise Before := by
  obtain ⟨deletes, creates, updates, rfl, hd, hc, hu, ad, ac, au⟩ := h
  replace hd : ∀ c ∈ deletes, c.rank = 0 := fun c hmem => by rw [rank, hd c hmem]
  replace hc : ∀ c ∈ creates, c.rank = 1 := fun c hmem => by rw [rank, hc c hmem]
  replace hu : ∀ c ∈ updates, c.rank = 2 := fun c hmem => by rw [rank, hu c hmem]
  have within {group : List (Change R)} {n : Nat} (hn : ∀ c ∈ group, c.rank = n)
      (ha : Ascending group) : group.Pairwise Before :=
    ha.imp_of_mem fun hmem hmem' hlt => .inr ⟨(hn _ hmem).trans (hn _ hmem').symm, hlt⟩
  refine List.pairwise_append.2 ⟨List.pairwise_append.2 ⟨within hd ad, within hc ac, ?_⟩,
    within hu au, ?_⟩
  · intro c hmem c' hmem'
    exact .inl (by simp [hd c hmem, hc c' hmem'])
  · intro c hmem c' hmem'
    rcases List.mem_append.1 hmem with hmem | hmem
    · exact .inl (by simp [hd c hmem, hu c' hmem'])
    · exact .inl (by simp [hc c hmem, hu c' hmem'])

/-- An ordered list is decided by its changes. -/
theorem Ordered.eq_of_perm {cs cs' : List (Change R)} (h : Ordered cs) (h' : Ordered cs')
    (hp : cs.Perm cs') : cs = cs' :=
  hp.eq_of_pairwise (fun _ _ _ _ hb hb' => absurd hb' hb.asymm) h.pairwise h'.pairwise

/-! ### Scripts -/

/-- Events that turn the old records into the new ones. -/
structure Script (old new : List R) (revision : Nat) (events : List (Event R)) : Prop where
  /-- each change is legal where the ones before it lead to, and the last leads to the new map -/
  replay : Change.replay (find? old) (events.map Event.change) = some (find? new)
  nodup : (events.map Event.recordId).Nodup
  /-- each change is legal on the old map too, it says what was there and what is there now, and
  these are different -/
  effective : ∀ e ∈ events, e.change.Legal (find? old) ∧
    e.change.before? = find? old e.recordId ∧ e.change.value? = find? new e.recordId ∧
    e.change.before? ≠ e.change.value?
  ordered : Ordered (events.map Event.change)
  revision : ∀ e ∈ events, e.revision = revision

theorem changes_events (old new : List R) (revision : Nat) :
    (events old new revision).map Event.change = diff old new := by
  rw [events, List.map_map]
  exact List.map_id _

theorem recordIds_eq (es : List (Event R)) :
    es.map Event.recordId = (es.map Event.change).map id := by
  rw [List.map_map]
  rfl

theorem script_events (hold : Distinct old) (hnew : Distinct new) (revision : Nat) :
    Script old new revision (events old new revision) where
  replay := by
    rw [changes_events]
    exact replay_diff hold hnew
  nodup := by
    rw [recordIds_eq, changes_events]
    exact nodup_diff hold hnew
  effective := by
    intro e he
    obtain ⟨c, hc, rfl⟩ := List.mem_map.1 he
    obtain ⟨hlegal, hvalue, hne⟩ := (mem_diff hold hnew).1 hc
    refine ⟨hlegal, hlegal.eq_before?.symm, hvalue.symm, ?_⟩
    rwa [← hlegal.eq_before?, ← hvalue]
  ordered := by
    rw [changes_events]
    exact ordered_diff hold hnew
  revision := by
    intro e he
    obtain ⟨c, -, rfl⟩ := List.mem_map.1 he
    rfl

/-- A script has the changes of the difference and no others. -/
theorem Script.mem_iff {revision : Nat} {es : List (Event R)} (h : Script old new revision es)
    (hold : Distinct old) (hnew : Distinct new) {c : Change R} :
    c ∈ es.map Event.change ↔ c ∈ diff old new := by
  have hdiff : ∀ e ∈ es, e.change ∈ diff old new := by
    intro e he
    obtain ⟨hlegal, hbefore, hvalue, hne⟩ := h.effective e he
    rw [hbefore, hvalue] at hne
    exact (mem_diff hold hnew).2 ⟨hlegal, hvalue.symm, hne⟩
  constructor
  · intro hc
    obtain ⟨e, he, rfl⟩ := List.mem_map.1 hc
    exact hdiff e he
  · intro hc
    have hne := ((mem_diff hold hnew).1 hc).2.2
    obtain ⟨c', hc', hid⟩ := List.mem_map.1 (mem_ids_of_replay h.replay hne)
    obtain ⟨e, he, rfl⟩ := List.mem_map.1 hc'
    rwa [eq_of_mem_diff hold hnew hc (hdiff e he) hid.symm]

theorem Script.eq_events {revision : Nat} {es : List (Event R)} (h : Script old new revision es)
    (hold : Distinct old) (hnew : Distinct new) : es = events old new revision := by
  have hnodup : (es.map Event.change).Nodup := by
    have hn := h.nodup
    rw [recordIds_eq] at hn
    exact hn.of_map
  have hperm : (es.map Event.change).Perm (diff old new) :=
    (List.perm_ext_iff_of_nodup hnodup (nodup_diff hold hnew).of_map).2 fun _ =>
      h.mem_iff hold hnew
  have hchanges := h.ordered.eq_of_perm (ordered_diff hold hnew) hperm
  rw [events, ← hchanges, List.map_map]
  refine ((List.map_congr_left fun e he => ?_).trans (List.map_id es)).symm
  exact congrArg (Event.mk e.change) (h.revision e he).symm

theorem events_eq_nil_iff (hold : Distinct old) (hnew : Distinct new) (revision : Nat) :
    events old new revision = [] ↔ old.Perm new := by
  rw [events, List.map_eq_nil_iff, diff_eq_nil_iff, sameRecords_iff_perm hold hnew]

/-- The events of a difference are the only script that turns the old records into the new ones
under the revision. Nothing shorter leads from the one map to the other, and there are none exactly
where the lists have the same records up to their order. -/
theorem script_iff_eq_events (hold : Distinct old) (hnew : Distinct new) (revision : Nat) :
    (∀ es, Script old new revision es ↔ es = events old new revision) ∧
    (∀ cs, replay (find? old) cs = some (find? new) →
      (events old new revision).length ≤ cs.length) ∧
    (events old new revision = [] ↔ old.Perm new) := by
  refine ⟨fun es => ⟨fun h => h.eq_events hold hnew, ?_⟩, fun cs h => ?_,
    events_eq_nil_iff hold hnew revision⟩
  · rintro rfl
    exact script_events hold hnew revision
  · rw [events, List.length_map]
    exact length_diff_le hold hnew h

private def roleNamed (id name : String) : Role := ⟨id, name, "", .epoch, .epoch⟩

/-- Of three roles listed out of order one goes, one changes and one stays, and a fourth comes. -/
theorem script_iff_eq_events_of_each_kind :
    let old := [roleNamed "c" "third", roleNamed "b" "second", roleNamed "a" "first"]
    let new := [roleNamed "d" "fourth", roleNamed "c" "third", roleNamed "b" "other"]
    Distinct old ∧ Distinct new ∧
    (∀ es, Script old new 7 es ↔ es = [⟨.deleted (roleNamed "a" "first"), 7⟩,
      ⟨.created (roleNamed "d" "fourth"), 7⟩,
      ⟨.updated (some (roleNamed "b" "second")) (roleNamed "b" "other"), 7⟩]) ∧
    ∀ cs, replay (find? old) cs = some (find? new) → 3 ≤ cs.length := by
  intro old new
  have hold : Distinct old := by decide
  have hnew : Distinct new := by decide
  have hevents : events old new 7 = [⟨.deleted (roleNamed "a" "first"), 7⟩,
      ⟨.created (roleNamed "d" "fourth"), 7⟩,
      ⟨.updated (some (roleNamed "b" "second")) (roleNamed "b" "other"), 7⟩] := by decide +kernel
  obtain ⟨hscript, hshortest, -⟩ := script_iff_eq_events hold hnew 7
  rw [hevents] at hscript hshortest
  exact ⟨hold, hnew, hscript, hshortest⟩

end Change

end WorkQueue
