import Mathlib.Data.Finset.Card
import Mathlib.Data.List.Perm.Subperm
import WorkQueue.Proofs.Change.Script
import WorkQueue.Proofs.Store.Identity

/-!
# What a call recounts

Each commit of a call tells how the records came from those before it to those after it: by changes
of different records, each legal where it stands. So what happened to a record in a commit is told
by one change at most, and what can be said of single changes can be counted by ids.
-/

namespace WorkQueue

variable {R : Type} [Record R]

open Record (Distinct find?)

namespace Change

/-- Changes of different records that lead from the old ones to the new. -/
structure Covers (old new : List R) (cs : List (Change R)) : Prop where
  nodup : (cs.map id).Nodup
  replay : Change.replay (find? old) cs = some (find? new)

variable {old new : List R} {cs : List (Change R)} {c : Change R}

theorem covers_diff (hold : Distinct old) (hnew : Distinct new) : Covers old new (diff old new) :=
  ⟨nodup_diff hold hnew, replay_diff hold hnew⟩

/-- A change of a record says what was there before all of them and what is there after. -/
theorem legal_of_replay {m m' : String → Option R} (hn : (cs.map id).Nodup)
    (h : replay m cs = some m') (hc : c ∈ cs) : c.Legal m ∧ m' c.id = c.value? := by
  induction cs generalizing m with
  | nil => cases hc
  | cons c₀ cs ih =>
    obtain ⟨hfirst, hrest⟩ := List.nodup_cons.1 hn
    by_cases hlegal : c₀.Legal m
    · rw [replay_cons hlegal] at h
      rcases List.mem_cons.1 hc with rfl | hc
      · rw [eq_of_replay_of_notMem h hfirst]
        exact ⟨hlegal, Function.update_self ..⟩
      · have hne : c.id ≠ c₀.id := fun he => hfirst (he ▸ List.mem_map_of_mem hc)
        obtain ⟨hlegal', hvalue⟩ := ih hrest h hc
        refine ⟨hlegal'.congr ?_, hvalue⟩
        rw [Function.update_of_ne hne]
    · rw [replay, List.foldlM_cons, play, if_neg hlegal] at h
      cases h

theorem Covers.legal (h : Covers old new cs) (hc : c ∈ cs) : c.Legal (find? old) :=
  (legal_of_replay h.nodup h.replay hc).1

theorem Covers.value?_eq (h : Covers old new cs) (hc : c ∈ cs) : find? new c.id = c.value? :=
  (legal_of_replay h.nodup h.replay hc).2

/-- Changes that are told from their ids are as many as there are such ids. -/
theorem Covers.countP_eq_card (h : Covers old new cs) {p : Change R → Bool} {ids : Finset String}
    (hp : ∀ c ∈ cs, p c = true ↔ c.id ∈ ids) (hids : ∀ key ∈ ids, find? old key ≠ find? new key) :
    cs.countP p = ids.card := by
  have hnodup : ((cs.filter p).map id).Nodup := h.nodup.sublist (List.filter_sublist.map id)
  have hset : ((cs.filter p).map id).toFinset = ids := by
    ext key
    rw [List.mem_toFinset, List.mem_map]
    constructor
    · rintro ⟨c, hc, rfl⟩
      obtain ⟨hmem, hpc⟩ := List.mem_filter.1 hc
      exact (hp c hmem).1 hpc
    · intro hkey
      obtain ⟨c, hc, rfl⟩ := List.mem_map.1 (mem_ids_of_replay h.replay (hids key hkey))
      exact ⟨c, List.mem_filter.2 ⟨hc, (hp c hc).2 hkey⟩, rfl⟩
  rw [List.countP_eq_length_filter, ← List.length_map id, ← List.toFinset_card_of_nodup hnodup,
    hset]

end Change

namespace Store

open Change (Covers)

theorem Edit.covers {records records' : List R} {change : Change R}
    (h : Edit records records' change) (hd : Distinct records) :
    Covers records records' [change] :=
  ⟨List.nodup_singleton _, (Change.replay_singleton _ _).trans (h.play hd)⟩

/-- Commits one after another, each of which tells what led from the records before it to those
after it. -/
inductive Recounts (old : List R) : List (Commit R) → List R → Prop where
  | none : Recounts old [] old
  | next {ks : List (Commit R)} {k : Commit R} {records : List R} (before : Recounts old ks records)
      (covers : Covers records k.store.records (k.events.map Event.change)) :
      Recounts old (ks ++ [k]) k.store.records

variable {old records : List R} {before after : List (Commit R)} {k : Commit R}
  {desk desk' : Desk R} {change : Change R}

/-- The records before a commit are those that the commit before it left. -/
theorem Recounts.records_eq {ks : List (Commit R)} (h : Recounts old ks records) :
    records = ((ks.getLast?.map (·.store)).map Store.records).getD old := by
  cases h with
  | none => rfl
  | next => simp

theorem Recounts.covers (h : Recounts old (before ++ k :: after) records) :
    ∃ mid, Recounts old before mid ∧
      Covers mid k.store.records (k.events.map Event.change) := by
  induction after using List.reverseRecOn generalizing records with
  | nil =>
    generalize hks : before ++ [k] = ks at h
    cases h with
    | none => simp at hks
    | next before' covers =>
      obtain ⟨rfl, hk⟩ := List.append_inj' hks rfl
      obtain rfl := List.singleton_inj.1 hk
      exact ⟨_, before', covers⟩
  | append_singleton after k' ih =>
    generalize hks : before ++ k :: (after ++ [k']) = ks at h
    cases h with
    | none => simp at hks
    | next before' covers =>
      rw [← List.cons_append, ← List.append_assoc] at hks
      obtain ⟨rfl, -⟩ := List.append_inj' hks rfl
      exact ih before'

theorem Recounts.idle (h : Recounts old desk.commits desk.store.records) (hidle : Idle desk desk') :
    Recounts old desk'.commits desk'.store.records := by
  rwa [hidle.commits, hidle.store]

theorem Recounts.edit (h : Recounts old desk.commits desk.store.records)
    (hedit : Edit desk.store.records desk'.store.records change)
    (hcommitted : Committed desk desk'.store.records change desk')
    (hd : Distinct desk.store.records) : Recounts old desk'.commits desk'.store.records := by
  rw [hcommitted.commits]
  exact h.next (hedit.covers hd)

/-- What is taken over is recounted by the differences, where there are any. -/
theorem TookOver.recounts {loaded : Index.Loaded R} (h : TookOver desk loaded desk')
    (hnone : desk.commits = []) (hold : Distinct desk.store.records)
    (hnew : Distinct loaded.records) :
    ∃ records, Recounts desk.store.records desk'.commits records := by
  rw [h.commits, hnone, List.nil_append]
  by_cases hc : (Change.diff desk.store.records loaded.records).isEmpty = true
  · rw [if_pos hc]
    exact ⟨_, .none⟩
  · rw [if_neg hc]
    have hfirst : Recounts desk.store.records [] desk.store.records := .none
    refine ⟨_, hfirst.next ?_⟩
    rw [Change.changes_events, h.store]
    exact Change.covers_diff hold hnew

end Store

end WorkQueue
