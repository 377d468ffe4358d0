import WorkQueue.Work.Basic

/-!
# How work items are listed

Items are listed by ascending priority, those of one priority in the order in which they are kept.
There is one such list of given items, and `order` gives it. An item that is kept last and that no
other item's priority exceeds is listed last.
-/

namespace WorkQueue.Work

/-- The items by priority, and those of one priority in the order in which they are kept. -/
structure Listing (works items : List Work) : Prop where
  ascending : items.Pairwise fun a b => a.priority.value ≤ b.priority.value
  stable : ∀ p, items.filter (·.priority.value = p) = works.filter (·.priority.value = p)

variable {works items items' : List Work} {w : Work}

theorem precedes_trans (a b c : Work) (hab : decide (a.priority.value ≤ b.priority.value) = true)
    (hbc : decide (b.priority.value ≤ c.priority.value) = true) :
    decide (a.priority.value ≤ c.priority.value) = true :=
  decide_eq_true (Int.le_trans (of_decide_eq_true hab) (of_decide_eq_true hbc))

theorem precedes_total (a b : Work) : (decide (a.priority.value ≤ b.priority.value) ||
    decide (b.priority.value ≤ a.priority.value)) = true := by
  simpa using Int.le_total a.priority.value b.priority.value

theorem order_perm (works : List Work) : (order works).Perm works := List.mergeSort_perm works _

theorem listing_order (works : List Work) : Listing works (order works) where
  ascending := (List.pairwise_mergeSort precedes_trans precedes_total works).imp of_decide_eq_true
  stable := by
    intro p
    -- items of one priority are in order as they are, so that sorting does not move them
    have hlevel : (works.filter (·.priority.value = p)).Pairwise
        fun a b => decide (a.priority.value ≤ b.priority.value) = true := by
      rw [List.pairwise_filter]
      apply List.pairwise_of_forall
      intro a b ha hb
      rw [of_decide_eq_true ha, of_decide_eq_true hb]
      exact decide_eq_true (Int.le_refl p)
    have hsorted := List.sublist_mergeSort precedes_trans precedes_total hlevel
      List.filter_sublist
    have hsub := hsorted.filter (·.priority.value = p)
    rw [List.filter_eq_self.2 fun _ hw => (List.mem_filter.1 hw).2] at hsub
    have hperm := (order_perm works).filter (·.priority.value = p)
    exact (hsub.eq_of_length hperm.length_eq.symm).symm

theorem Listing.mem_iff (h : Listing works items) : w ∈ items ↔ w ∈ works := by
  have hlevel (l : List Work) : w ∈ l ↔ w ∈ l.filter (·.priority.value = w.priority.value) := by
    simp
  rw [hlevel items, h.stable, ← hlevel works]

theorem listing_self (h : items.Pairwise fun a b => a.priority.value ≤ b.priority.value) :
    Listing items items := ⟨h, fun _ => rfl⟩

/-- The priorities and the order of each level leave no choice. -/
theorem Listing.unique (h : Listing works items) (h' : Listing works items') : items = items' := by
  induction items generalizing works items' with
  | nil =>
    cases items' with
    | nil => rfl
    | cons b _ => exact absurd (h.mem_iff.2 (h'.mem_iff.1 List.mem_cons_self)) List.not_mem_nil
  | cons a as ih =>
    cases items' with
    | nil => exact absurd (h'.mem_iff.2 (h.mem_iff.1 List.mem_cons_self)) List.not_mem_nil
    | cons b bs =>
      have hfirst {c d : Work} {cs ds : List Work} (hc : Listing works (c :: cs))
          (hd : Listing works (d :: ds)) : c.priority.value ≤ d.priority.value := by
        rcases List.mem_cons.1 (hc.mem_iff.2 (hd.mem_iff.1 List.mem_cons_self)) with rfl | hmem
        · exact Int.le_refl _
        · exact (List.pairwise_cons.1 hc.ascending).1 d hmem
      have hlevel : a.priority.value = b.priority.value :=
        Int.le_antisymm (hfirst h h') (hfirst h' h)
      have hstable (p : Int) := (h.stable p).trans (h'.stable p).symm
      -- both lists start with the first item that is kept at their lowest priority
      have hsame := hstable a.priority.value
      rw [List.filter_cons_of_pos (by simp), List.filter_cons_of_pos (by simp [hlevel])] at hsame
      obtain ⟨rfl, -⟩ := List.cons.inj hsame
      have htail : Listing as bs := by
        refine ⟨(List.pairwise_cons.1 h'.ascending).2, fun p => ?_⟩
        have hp := hstable p
        rw [List.filter_cons, List.filter_cons] at hp
        split at hp
        · exact (List.cons.inj hp).2.symm
        · exact hp.symm
      rw [ih (listing_self (List.pairwise_cons.1 h.ascending).2) htail]

/-- What is kept last and has no lower priority than the others is listed last. -/
theorem Listing.concat (h : Listing works items)
    (hlast : ∀ v ∈ works, v.priority.value ≤ w.priority.value) :
    Listing (works ++ [w]) (items ++ [w]) where
  ascending := by
    rw [List.pairwise_append]
    refine ⟨h.ascending, List.pairwise_singleton _ w, fun v hv u hu => ?_⟩
    rw [List.mem_singleton.1 hu]
    exact hlast v (h.mem_iff.1 hv)
  stable := by
    intro p
    rw [List.filter_append, List.filter_append, h.stable p]

theorem order_concat (hlast : ∀ v ∈ works, v.priority.value ≤ w.priority.value) :
    order (works ++ [w]) = order works ++ [w] :=
  (listing_order _).unique ((listing_order works).concat hlast)

end WorkQueue.Work
