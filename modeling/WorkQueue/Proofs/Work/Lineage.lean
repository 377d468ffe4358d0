import WorkQueue.Proofs.Work.Waiting

/-!
# What closes above an item

Above an item stand its parent, the parent of that, and so on. The line ends where a link leads
nowhere, and it never ends where links form a cycle. `Closes` says how far up the line closes, by
the statuses before anything has closed: an item that is done closes after the one below it, when
all its other children are closed or have closed further down.

An item that closes is met once on the line, even on one that runs in a cycle, since its child on
the line was not closed when it was met for the first time.
-/

namespace WorkQueue.Work

open Time
open Record (Distinct)

/-- The item that stands `k` links above another. -/
def ancestor? (works : List Work) (w : Work) : Nat → Option Work
  | 0 => some w
  | k + 1 => (ancestor? works w k).bind fun x => x.parentId.bind (Record.find? works)

/-- The item itself is closed or can be closed, and with it close all on the line up to the one that
stands `k` links above. -/
inductive Closes (works : List Work) (w : Work) : Nat → Prop where
  | start (h : w.status = .closed ∨ w.status = .done ∧ ¬ HasUnclosed works w.id) :
      Closes works w 0
  | up {k : Nat} {a : Work} (below : Closes works w k)
      (line : ancestor? works w (k + 1) = some a) (done : a.status = .done)
      (children : ∀ c ∈ works, c.parentId = some a.id →
        c.status = .closed ∨ ∃ j ≤ k, ancestor? works w j = some c) :
      Closes works w (k + 1)

/-- The item is done, and it is another or stands fewer than `k` links above that. -/
def DoneBelow (works : List Work) (w : Work) (k : Nat) (r : Work) : Prop :=
  r.status = .done ∧ ∃ j < k, ancestor? works w j = some r

instance (works : List Work) (w : Work) (k : Nat) (r : Work) :
    Decidable (DoneBelow works w k r) := inferInstanceAs (Decidable (_ ∧ _))

/-- The items once what is done below `k` has closed, each at its own time. -/
def closedBelow (works : List Work) (w : Work) (k : Nat) (t : String → Stamp) : List Work :=
  works.map fun r => if DoneBelow works w k r then r.closedAt (t r.id) else r

variable {works : List Work} {w x a c : Work} {j k m : Nat} {t : String → Stamp} {id : String}

/-! ### The line -/

theorem ancestor?_succ_eq_some : ancestor? works w (k + 1) = some a ↔
    ∃ x, ancestor? works w k = some x ∧ x.parentId = some a.id ∧
      Record.find? works a.id = some a := by
  rw [ancestor?, Option.bind_eq_some_iff]
  refine exists_congr fun x => and_congr_right fun _ => ?_
  rw [Option.bind_eq_some_iff]
  constructor
  · rintro ⟨id, hid, ha⟩
    have hsame : a.id = id := Record.id_of_find? ha
    exact ⟨hsame ▸ hid, hsame ▸ ha⟩
  · rintro ⟨hid, ha⟩
    exact ⟨a.id, hid, ha⟩

theorem mem_of_ancestor? (hw : w ∈ works) (h : ancestor? works w k = some x) : x ∈ works := by
  cases k with
  | zero => exact Option.some.inj h ▸ hw
  | succ k =>
    obtain ⟨-, -, -, hfound⟩ := ancestor?_succ_eq_some.1 h
    exact Record.mem_of_find? hfound

theorem closes_zero_iff :
    Closes works w 0 ↔ w.status = .closed ∨ w.status = .done ∧ ¬ HasUnclosed works w.id := by
  refine ⟨fun h => ?_, .start⟩
  cases h with
  | start h => exact h

theorem Closes.of_le (h : Closes works w k) (hj : j ≤ k) : Closes works w j := by
  induction h with
  | start h =>
    obtain rfl : j = 0 := by omega
    exact .start h
  | @up k a below line done children ih =>
    by_cases hjk : j ≤ k
    · exact ih hjk
    · obtain rfl : j = k + 1 := by omega
      exact .up below line done children

theorem Closes.exists_done (h : Closes works w (k + 1)) :
    ∃ a, ancestor? works w (k + 1) = some a ∧ a.status = .done := by
  cases h with
  | up below line done children => exact ⟨_, line, done⟩

theorem Closes.done_of_succ (h : Closes works w (k + 1)) (ha : ancestor? works w (k + 1) = some a) :
    a.status = .done := by
  obtain ⟨b, hb, hdone⟩ := h.exists_done
  exact Option.some.inj (hb.symm.trans ha) ▸ hdone

/-- Only what is closed or done closes. -/
theorem Closes.status (h : Closes works w k) (ha : ancestor? works w k = some a) :
    a.status = .closed ∨ a.status = .done := by
  cases k with
  | zero =>
    obtain rfl := Option.some.inj ha
    exact (closes_zero_iff.1 h).imp_right And.left
  | succ k => exact Or.inr (h.done_of_succ ha)

theorem Closes.done (h : Closes works w k) (hw : w.status = .done)
    (ha : ancestor? works w k = some a) : a.status = .done := by
  cases k with
  | zero => exact Option.some.inj ha ▸ hw
  | succ k => exact h.done_of_succ ha

/-- The children of an item that closes and was not closed before. -/
theorem Closes.children (h : Closes works w k) (ha : ancestor? works w k = some a)
    (hdone : a.status = .done) : ∀ c ∈ works, c.parentId = some a.id →
      c.status = .closed ∨ ∃ j < k, ancestor? works w j = some c := by
  intro c hc hparent
  cases h with
  | start h =>
    obtain rfl := Option.some.inj ha
    left
    by_contra hunclosed
    rcases h with hclosed | ⟨-, hnone⟩
    · rw [hdone] at hclosed
      cases hclosed
    · exact hnone ⟨c, hc, hparent, hunclosed⟩
  | up below line done children =>
    obtain rfl := Option.some.inj (line.symm.trans ha)
    refine (children c hc hparent).imp_right ?_
    rintro ⟨j, hj, hline⟩
    exact ⟨j, by omega, hline⟩

/-- The line does not come back to an item that has closed on it. -/
theorem Closes.ancestor?_ne (hv : Valid works) (hw : w ∈ works) (h : Closes works w k) :
    ∀ j < k, ancestor? works w j ≠ ancestor? works w k := by
  induction k with
  | zero =>
    intro j hj
    omega
  | succ k ih =>
    intro j hj hsame
    have hbelow : Closes works w k := h.of_le (Nat.le_succ k)
    cases h with
    | @up _ a _ line done _ =>
      obtain ⟨x, hx, hparent, -⟩ := ancestor?_succ_eq_some.1 line
      have hmem : x ∈ works := mem_of_ancestor? hw hx
      have ha : ancestor? works w j = some a := hsame.trans line
      have hj : Closes works w j := hbelow.of_le (by omega)
      rcases hj.children ha done x hmem hparent with hclosed | ⟨i, hi, hline⟩
      · cases k with
        | zero =>
          -- only the item itself is below, which is no parent of its own
          obtain rfl : j = 0 := by omega
          obtain rfl := Option.some.inj (hx.symm.trans ha)
          exact parentId_ne_of_valid (hv x hmem) hparent
        | succ k =>
          rw [hbelow.done_of_succ hx] at hclosed
          cases hclosed
      · exact ih hbelow i (by omega) (hline.trans hx.symm)

/-! ### The items once part of the line has closed -/

theorem doneBelow_succ {r : Work} : DoneBelow works w (k + 1) r ↔
    DoneBelow works w k r ∨ r.status = .done ∧ ancestor? works w k = some r := by
  simp only [DoneBelow, Nat.lt_succ_iff_lt_or_eq, or_and_right, exists_or, exists_eq_left,
    and_or_left]

theorem distinct_closedBelow (hd : Distinct works) : Distinct (closedBelow works w k t) := by
  unfold Distinct closedBelow at *
  rw [List.map_map]
  convert hd using 2
  funext r
  simp only [Function.comp_apply]
  split <;> rfl

theorem closedBelow_zero : closedBelow works w 0 t = works := by
  simp [closedBelow, DoneBelow]

/-- Nothing closes where the line is closed already. -/
theorem closedBelow_succ_of_ne_done (hx : ancestor? works w k = some x) (hne : x.status ≠ .done) :
    closedBelow works w (k + 1) t = closedBelow works w k t := by
  refine List.map_congr_left fun r _ => ?_
  have hiff : DoneBelow works w (k + 1) r ↔ DoneBelow works w k r := by
    rw [doneBelow_succ, or_iff_left]
    rintro ⟨hdone, hline⟩
    exact hne (Option.some.inj (hx.symm.trans hline) ▸ hdone)
  rw [if_congr hiff rfl rfl]

/-- The next item on the line closes. -/
theorem closedBelow_succ (hd : Distinct works) (hw : w ∈ works) (hx : ancestor? works w k = some x)
    (hdone : x.status = .done) (now : Stamp) :
    (closedBelow works w k t).map (fun r => if r.id = x.id then x.closedAt now else r) =
      closedBelow works w (k + 1) (fun id => if id = x.id then now else t id) := by
  have hmem : x ∈ works := mem_of_ancestor? hw hx
  rw [closedBelow, List.map_map]
  refine List.map_congr_left fun r hr => ?_
  have hid : (if DoneBelow works w k r then r.closedAt (t r.id) else r).id = r.id := by
    split <;> rfl
  simp only [Function.comp_apply, hid]
  by_cases hrx : r.id = x.id
  · obtain rfl := List.inj_on_of_nodup_map hd hr hmem hrx
    rw [if_pos rfl, if_pos rfl, if_pos (doneBelow_succ.2 (Or.inr ⟨hdone, hx⟩))]
  · have hiff : DoneBelow works w (k + 1) r ↔ DoneBelow works w k r := by
      rw [doneBelow_succ, or_iff_left]
      rintro ⟨-, hline⟩
      exact hrx (Option.some.inj (hx.symm.trans hline) ▸ rfl)
    rw [if_neg hrx, if_neg hrx, if_congr hiff rfl rfl]

theorem find?_closedBelow : Record.find? (closedBelow works w k t) id =
    (Record.find? works id).map fun r =>
      if DoneBelow works w k r then r.closedAt (t r.id) else r := by
  unfold Record.find? closedBelow
  rw [List.find?_map]
  congr 2
  funext r
  simp only [Function.comp_apply]
  split <;> rfl

/-- An item that is found to be done has not closed on the line. -/
theorem find?_of_find?_closedBelow (ha : Record.find? (closedBelow works w k t) id = some a)
    (hdone : a.status = .done) : Record.find? works id = some a := by
  rw [find?_closedBelow, Option.map_eq_some_iff] at ha
  obtain ⟨r, hr, hra⟩ := ha
  split at hra
  · subst hra
    cases hdone
  · exact hra ▸ hr

/-- A child is unclosed where it was and has not closed on the line. -/
theorem hasUnclosed_closedBelow : HasUnclosed (closedBelow works w k t) id ↔
    ∃ c ∈ works, c.parentId = some id ∧ c.status ≠ .closed ∧ ¬ DoneBelow works w k c := by
  have hchild (c : Work) :
      ((if DoneBelow works w k c then c.closedAt (t c.id) else c).parentId = some id ∧
        (if DoneBelow works w k c then c.closedAt (t c.id) else c).status ≠ .closed) ↔
      c.parentId = some id ∧ c.status ≠ .closed ∧ ¬ DoneBelow works w k c := by
    by_cases hc : DoneBelow works w k c
    · simp [hc, closedAt]
    · simp [hc]
  simp only [HasUnclosed, closedBelow, List.mem_map, exists_exists_and_eq_and, hchild]

/-- No child is unclosed where each was closed before or has closed on the line. -/
theorem not_hasUnclosed_closedBelow (hbelow : ∀ j < k, Closes works w j) :
    ¬ HasUnclosed (closedBelow works w k t) id ↔ ∀ c ∈ works, c.parentId = some id →
      c.status = .closed ∨ ∃ j < k, ancestor? works w j = some c := by
  rw [hasUnclosed_closedBelow]
  constructor
  · intro hnone c hc hparent
    by_contra hopen
    obtain ⟨hunclosed, hnot⟩ := not_or.1 hopen
    exact hnone ⟨c, hc, hparent, hunclosed, fun h => hnot h.2⟩
  · rintro hchildren ⟨c, hc, hparent, hunclosed, hnot⟩
    rcases hchildren c hc hparent with hclosed | ⟨j, hj, hline⟩
    · exact hunclosed hclosed
    · have hdone := ((hbelow j hj).status hline).resolve_left hunclosed
      exact hnot ⟨hdone, j, hj, hline⟩

/-- An item of the line closes where it is finished once everything below it has closed. -/
theorem closes_iff (hbelow : ∀ j < k, Closes works w j) (hx : ancestor? works w k = some x)
    (hstatus : k ≠ 0 → x.status = .done) : Closes works w k ↔ x.status = .closed ∨
      x.status = .done ∧ ¬ HasUnclosed (closedBelow works w k t) x.id := by
  cases k with
  | zero =>
    obtain rfl := Option.some.inj hx
    rw [closedBelow_zero]
    exact closes_zero_iff
  | succ k =>
    have hdone := hstatus (Nat.succ_ne_zero k)
    rw [not_hasUnclosed_closedBelow hbelow]
    constructor
    · intro h
      exact Or.inr ⟨hdone, h.children hx hdone⟩
    · rintro (hclosed | ⟨-, hchildren⟩)
      · rw [hdone] at hclosed
        cases hclosed
      · refine .up (hbelow k (Nat.lt_succ_self k)) hx hdone fun c hc hparent => ?_
        refine (hchildren c hc hparent).imp_right ?_
        rintro ⟨j, hj, hline⟩
        exact ⟨j, by omega, hline⟩

/-! ### The whole line -/

/-- The items once the line above an item has closed as far as it closes. -/
def ClosedAlong (works : List Work) (w : Work) (works' : List Work) : Prop :=
  ∃ m t, (∀ k, Closes works w k ↔ k < m) ∧ works' = closedBelow works w m t

variable {works' : List Work}

/-- The item was done and is closed now. -/
def Moved (a : Work) (works' : List Work) : Prop :=
  a.status = .done ∧ ∃ a', Record.find? works' a.id = some a' ∧ a'.status = .closed

/-- An ancestor closes where it was done and no child of it is unclosed in the end: what closes
above it is too late to make a difference. -/
theorem ClosedAlong.closes_succ_iff_finished (h : ClosedAlong works w works')
    (hk : Closes works w k) (ha : ancestor? works w (k + 1) = some a) :
    Closes works w (k + 1) ↔ a.status = .done ∧ ¬ HasUnclosed works' a.id := by
  obtain ⟨m, t, hm, rfl⟩ := h
  rw [not_hasUnclosed_closedBelow fun j hj => (hm j).2 hj]
  constructor
  · intro h
    have hdone := h.done_of_succ ha
    refine ⟨hdone, fun c hc hparent => (h.children ha hdone c hc hparent).imp_right ?_⟩
    rintro ⟨j, hj, hline⟩
    exact ⟨j, (hm j).1 (h.of_le hj.le), hline⟩
  · rintro ⟨hdone, hchildren⟩
    by_contra hstops
    refine hstops (.up hk ha hdone fun c hc hparent => (hchildren c hc hparent).imp_right ?_)
    rintro ⟨j, hj, hline⟩
    have hjk : j < k + 1 := by
      by_contra hle
      exact hstops (((hm j).2 hj).of_le (by omega))
    exact ⟨j, by omega, hline⟩

/-- What is still done has an unclosed child, where it had one or is the item that the line starts
from. -/
theorem hasUnclosed_of_not_doneBelow (hd : Distinct works) (hm : ∀ k, Closes works w k ↔ k < m)
    (ha : a ∈ works) (hdone : a.status = .done) (hnot : ¬ DoneBelow works w m a)
    (hwaits : a = w ∨ HasUnclosed works a.id) : HasUnclosed (closedBelow works w m t) a.id := by
  by_contra hnone
  have hchildren := (not_hasUnclosed_closedBelow fun j hj => (hm j).2 hj).1 hnone
  rcases hwaits with rfl | ⟨c, hc, hparent, hunclosed⟩
  · have hzero : ¬ Closes works a 0 := fun h => hnot ⟨hdone, 0, (hm 0).1 h, rfl⟩
    refine hzero (.start (Or.inr ⟨hdone, ?_⟩))
    rintro ⟨c, hc, hparent, hunclosed⟩
    rcases hchildren c hc hparent with hclosed | ⟨j, hj, -⟩
    · exact hunclosed hclosed
    · exact hzero (((hm j).2 hj).of_le (Nat.zero_le j))
  · rcases hchildren c hc hparent with hclosed | ⟨j, hj, hline⟩
    · exact hunclosed hclosed
    · have hup : ancestor? works w (j + 1) = some a :=
        ancestor?_succ_eq_some.2 ⟨c, hline, hparent, hd.find?_of_mem ha⟩
      have halong : ClosedAlong works w (closedBelow works w m t) := ⟨m, t, hm, rfl⟩
      have hcloses := (halong.closes_succ_iff_finished ((hm j).2 hj) hup).2 ⟨hdone, hnone⟩
      exact hnot ⟨hdone, j + 1, (hm _).1 hcloses, hup⟩

theorem ClosedAlong.closes_succ_iff_moved (h : ClosedAlong works w works')
    (hk : Closes works w k) (ha : ancestor? works w (k + 1) = some a) :
    Closes works w (k + 1) ↔ Moved a works' := by
  obtain ⟨m, t, hm, rfl⟩ := h
  obtain ⟨-, -, -, hfound⟩ := ancestor?_succ_eq_some.1 ha
  rw [Moved, find?_closedBelow, hfound, Option.map_some]
  constructor
  · intro h
    have hdone := h.done_of_succ ha
    have hbelow : DoneBelow works w m a := ⟨hdone, k + 1, (hm _).1 h, ha⟩
    exact ⟨hdone, a.closedAt (t a.id), by rw [if_pos hbelow], rfl⟩
  · rintro ⟨hdone, a', ha', hclosed⟩
    by_cases hbelow : DoneBelow works w m a
    · obtain ⟨-, j, hj, hline⟩ := hbelow
      have hj : Closes works w j := (hm j).2 hj
      by_cases hjk : j ≤ k
      · -- the line has come back to an item that has closed on it
        refine .up hk ha hdone fun c hc hparent => ?_
        refine (hj.children hline hdone c hc hparent).imp_right ?_
        rintro ⟨i, hi, hc⟩
        exact ⟨i, by omega, hc⟩
      · exact hj.of_le (by omega)
    · rw [if_neg hbelow] at ha'
      rw [← Option.some.inj ha', hdone] at hclosed
      cases hclosed

/-- The item that the line starts from ends closed where it closes at all. -/
theorem ClosedAlong.status_eq_closed_iff (h : ClosedAlong works w works')
    (hfound : Record.find? works w.id = some w) (hx : Record.find? works' w.id = some x) :
    x.status = .closed ↔ Closes works w 0 := by
  obtain ⟨m, t, hm, rfl⟩ := h
  rw [find?_closedBelow, hfound, Option.map_some] at hx
  obtain rfl := Option.some.inj hx
  constructor
  · intro hclosed
    by_cases hbelow : DoneBelow works w m w
    · obtain ⟨-, j, hj, -⟩ := hbelow
      exact ((hm j).2 hj).of_le (Nat.zero_le j)
    · rw [if_neg hbelow] at hclosed
      exact .start (Or.inl hclosed)
  · intro hcloses
    rcases hcloses.status rfl with hclosed | hdone
    · rw [if_neg fun h : DoneBelow works w m w => by simp [h.1] at hclosed]
      exact hclosed
    · rw [if_pos ⟨hdone, 0, (hm 0).1 hcloses, rfl⟩]
      rfl

end WorkQueue.Work
