import Mathlib.Data.List.Nodup
import Mathlib.Data.String.Basic
import WorkQueue.Keyed

/-!
# What a keyed list holds

Insertion keeps the keys ascending and changes what is under one key. A list built from entries
holds under a key the last value given for it.
-/

namespace WorkQueue.Keyed

variable {α : Type}

/-- The keys ascend, so that none of them is there twice. -/
def Ascending (m : Keyed α) : Prop := (m.map Prod.fst).Pairwise (· < ·)

theorem ascending_nil : Ascending ([] : Keyed α) := List.Pairwise.nil

theorem ascending_cons {e : String × α} {m : Keyed α} :
    Ascending (e :: m) ↔ (∀ x ∈ m, e.1 < x.1) ∧ Ascending m := by
  unfold Ascending
  rw [List.map_cons, List.pairwise_cons, List.forall_mem_map]

theorem Ascending.nodup {m : Keyed α} (h : Ascending m) : (m.map Prod.fst).Nodup :=
  h.imp fun hlt => ne_of_lt hlt

theorem Ascending.filter {m : Keyed α} (h : Ascending m) (p : String × α → Bool) :
    Ascending (m.filter p) :=
  h.sublist (List.filter_sublist.map _)

theorem mem_of_mem_insert {key : String} {value : α} {m : Keyed α} {e : String × α}
    (h : e ∈ insert key value m) : e = (key, value) ∨ e ∈ m := by
  induction m with
  | nil => exact Or.inl (List.mem_singleton.1 h)
  | cons x m ih =>
    unfold insert at h
    split at h
    · exact List.mem_cons.1 h
    · split at h
      · rcases List.mem_cons.1 h with rfl | h
        · exact Or.inl rfl
        · exact Or.inr (List.mem_cons_of_mem x h)
      · rcases List.mem_cons.1 h with rfl | h
        · exact Or.inr List.mem_cons_self
        · exact (ih h).imp_right (List.mem_cons_of_mem x)

theorem Ascending.insert {m : Keyed α} (h : Ascending m) (key : String) (value : α) :
    Ascending (insert key value m) := by
  induction m with
  | nil => exact List.pairwise_singleton _ _
  | cons x m ih =>
    obtain ⟨hx, hm⟩ := ascending_cons.1 h
    unfold Keyed.insert
    split_ifs with hlt heq
    · refine ascending_cons.2 ⟨?_, h⟩
      rintro e (_ | ⟨_, he⟩)
      · exact hlt
      · exact hlt.trans (hx e he)
    · exact ascending_cons.2 ⟨fun e he => heq ▸ hx e he, hm⟩
    · refine ascending_cons.2 ⟨fun e he => ?_, ih hm⟩
      rcases mem_of_mem_insert he with rfl | he
      · exact lt_of_le_of_ne (not_lt.1 hlt) heq
      · exact hx e he

/-- An insertion behind every key appends. -/
theorem insert_of_last (key : String) (value : α) (m : Keyed α) (h : ∀ e ∈ m, e.1 < key) :
    insert key value m = m ++ [(key, value)] := by
  induction m with
  | nil => rfl
  | cons x m ih =>
    have hx := h x List.mem_cons_self
    unfold insert
    rw [if_neg hx.asymm, if_neg hx.ne, ih fun e he => h e (List.mem_cons_of_mem x he)]
    rfl

theorem lookup_cons_eq (k : String) (e : String × α) (m : Keyed α) :
    List.lookup k (e :: m) = if k = e.1 then some e.2 else List.lookup k m := by
  obtain ⟨k', a⟩ := e
  by_cases h : k = k'
  · subst h
    simp
  · have hb : (k == k') = false := beq_false_of_ne h
    simp [List.lookup_cons, h, hb]

theorem lookup_insert (key : String) (value : α) (m : Keyed α) (k : String) :
    (insert key value m).lookup k = if k = key then some value else m.lookup k := by
  induction m with
  | nil => exact lookup_cons_eq k (key, value) []
  | cons x m ih =>
    unfold insert
    by_cases hlt : key < x.1
    · rw [if_pos hlt, lookup_cons_eq]
    · by_cases heq : x.1 = key
      · rw [if_neg hlt, if_pos heq, lookup_cons_eq, lookup_cons_eq, heq]
        split_ifs <;> rfl
      · rw [if_neg hlt, if_neg heq, lookup_cons_eq, ih, lookup_cons_eq]
        by_cases hk : k = key
        · have hx : k ≠ x.1 := fun h => heq (h.symm.trans hk)
          simp only [if_neg hx, if_pos hk]
        · simp only [if_neg hk]

theorem foldl_insert_ascending (entries m : Keyed α) (h : Ascending m) :
    Ascending (entries.foldl (fun m e => insert e.1 e.2 m) m) := by
  induction entries generalizing m with
  | nil => exact h
  | cons e entries ih => exact ih _ (h.insert e.1 e.2)

theorem ofList_ascending (entries : Keyed α) : Ascending (ofList entries) :=
  foldl_insert_ascending entries [] ascending_nil

theorem foldl_insert_of_ascending {entries m : Keyed α} (h : Ascending (m ++ entries)) :
    entries.foldl (fun m e => insert e.1 e.2 m) m = m ++ entries := by
  induction entries generalizing m with
  | nil => exact (List.append_nil m).symm
  | cons e entries ih =>
    have hsplit : m ++ e :: entries = m ++ [e] ++ entries := List.append_cons ..
    have hlast : ∀ x ∈ m, x.1 < e.1 := fun x hx =>
      (List.pairwise_append.1 (List.pairwise_map.1 h)).2.2 x hx e List.mem_cons_self
    rw [List.foldl_cons, insert_of_last _ _ _ hlast, hsplit]
    exact ih (hsplit ▸ h)

/-- Entries whose keys ascend stay as they are. -/
theorem ofList_of_ascending {entries : Keyed α} (h : Ascending entries) :
    ofList entries = entries :=
  foldl_insert_of_ascending (m := []) h

theorem mem_of_mem_foldl_insert {entries m : Keyed α} {e : String × α}
    (h : e ∈ entries.foldl (fun m e => insert e.1 e.2 m) m) : e ∈ entries ∨ e ∈ m := by
  induction entries generalizing m with
  | nil => exact Or.inr h
  | cons x entries ih =>
    rcases ih h with h | h
    · exact Or.inl (List.mem_cons_of_mem x h)
    · rcases mem_of_mem_insert h with rfl | h
      · exact Or.inl List.mem_cons_self
      · exact Or.inr h

theorem mem_of_mem_ofList {entries : Keyed α} {e : String × α} (h : e ∈ ofList entries) :
    e ∈ entries :=
  (mem_of_mem_foldl_insert h).resolve_right List.not_mem_nil

theorem lookup_foldl_insert (entries m : Keyed α) (k : String) :
    (entries.foldl (fun m e => insert e.1 e.2 m) m).lookup k =
      (entries.reverse.lookup k).or (m.lookup k) := by
  induction entries generalizing m with
  | nil => rfl
  | cons e entries ih =>
    rw [List.foldl_cons, ih, List.reverse_cons, List.lookup_append, Option.or_assoc, lookup_insert,
      lookup_cons_eq]
    split_ifs <;> rfl

/-- Of several values under a key, the last one counts. -/
theorem lookup_ofList (entries : Keyed α) (k : String) :
    (ofList entries).lookup k = entries.reverse.lookup k := by
  rw [ofList, lookup_foldl_insert, List.lookup_nil, Option.or_none]

theorem lookup_eq_some_of_mem {m : Keyed α} (h : (m.map Prod.fst).Nodup) {e : String × α}
    (he : e ∈ m) : m.lookup e.1 = some e.2 := by
  induction m with
  | nil => exact absurd he List.not_mem_nil
  | cons x m ih =>
    obtain ⟨hx, hm⟩ := List.nodup_cons.1 h
    rw [lookup_cons_eq]
    rcases List.mem_cons.1 he with rfl | he
    · exact if_pos rfl
    · have hne : e.1 ≠ x.1 := fun h => hx (h ▸ List.mem_map_of_mem he)
      rw [if_neg hne, ih hm he]

theorem mem_of_lookup_eq_some {m : Keyed α} {k : String} {a : α} (h : m.lookup k = some a) :
    (k, a) ∈ m := by
  induction m with
  | nil => exact absurd h (by simp)
  | cons x m ih =>
    rw [lookup_cons_eq] at h
    split_ifs at h with hk
    · have ha := Option.some.inj h
      rw [hk, ← ha]
      exact List.mem_cons_self
    · exact List.mem_cons_of_mem x (ih h)

theorem lookup_eq_none {m : Keyed α} {k : String} (h : k ∉ m.map Prod.fst) :
    m.lookup k = none := by
  cases hk : m.lookup k with
  | none => rfl
  | some a => exact absurd (List.mem_map_of_mem (mem_of_lookup_eq_some hk)) h

/-- Where every key is there once, the order of the entries does not matter. -/
theorem lookup_reverse {m : Keyed α} (h : (m.map Prod.fst).Nodup) (k : String) :
    m.reverse.lookup k = m.lookup k := by
  have hr : (m.reverse.map Prod.fst).Nodup := by
    rw [List.map_reverse]
    exact List.nodup_reverse.2 h
  cases hk : m.lookup k with
  | none =>
    apply lookup_eq_none
    intro hm
    rw [List.map_reverse, List.mem_reverse] at hm
    obtain ⟨e, he, rfl⟩ := List.mem_map.1 hm
    rw [lookup_eq_some_of_mem h he] at hk
    cases hk
  | some a =>
    have hm := List.mem_reverse.2 (mem_of_lookup_eq_some hk)
    exact lookup_eq_some_of_mem hr hm

theorem lookup_erase (m : Keyed α) (key k : String) :
    (m.erase key).lookup k = if k = key then none else m.lookup k := by
  induction m with
  | nil => simp [erase]
  | cons x m ih =>
    unfold erase at ih ⊢
    rw [List.filter_cons]
    by_cases hx : x.1 = key
    · by_cases hk : k = key
      · simpa [hx, hk] using ih
      · have hk' : k ≠ x.1 := fun h => hk (h.trans hx)
        simpa [hx, hk, lookup_cons_eq, hk'] using ih
    · have hkept : (x.1 != key) = true := bne_iff_ne.2 hx
      rw [if_pos hkept, lookup_cons_eq, lookup_cons_eq, ih]
      by_cases hk : k = x.1
      · have hk' : k ≠ key := fun h => hx (hk.symm.trans h)
        simp [hk, hx]
      · simp [hk]

theorem Ascending.erase {m : Keyed α} (h : Ascending m) (key : String) :
    Ascending (m.erase key) := h.filter _

theorem contains_eq_isSome (m : Keyed α) (k : String) : m.contains k = (m.lookup k).isSome := by
  induction m with
  | nil => rfl
  | cons x m ih =>
    rw [lookup_cons_eq, contains, List.any_cons, ← contains, ih]
    by_cases h : k = x.1
    · simp [h]
    · simp [h, Ne.symm h]

end WorkQueue.Keyed
