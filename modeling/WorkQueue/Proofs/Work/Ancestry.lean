import Mathlib.Logic.Relation
import WorkQueue.Proofs.Work.Calls
import WorkQueue.Proofs.Work.Lineage

/-!
# Loops of links

The check of an item keeps it from being its own parent, and nothing looks further up. So links can
be closed to a loop one after the other. From an empty store on no item stands above itself, exactly
as long as no call gives an item a link to where links led back to it before.

Links are followed from id to id, since a link may lead to an item that is gone, and an item may be
made later under that id.
-/

namespace WorkQueue.Work

open Record (Distinct)
open Relation (TransGen ReflTransGen)
open Store (Desk Edit)

/-- No item stands above itself. -/
def Acyclic (works : List Work) : Prop :=
  ∀ w ∈ works, ∀ k, ancestor? works w (k + 1) ≠ some w

/-- The item of the first id has a link to the second. -/
def LinksTo (works : List Work) (id parent : String) : Prop :=
  ∃ w ∈ works, w.id = id ∧ w.parentId = some parent

/-- An item has a link to where links led back to it before. -/
def Loops (works works' : List Work) : Prop :=
  ∃ id parent, LinksTo works' id parent ∧ ReflTransGen (LinksTo works) parent id

/-! ### Where the links of one node change -/

section Rerouted

variable {α : Type} {r r' : α → α → Prop} {x a b c : α}

theorem reflTransGen_of_rerouted (hsame : ∀ a b, a ≠ x → (r' a b ↔ r a b))
    (hb : ¬ ReflTransGen r b x) (h : ReflTransGen r' b c) : ReflTransGen r b c := by
  induction h with
  | refl => exact .refl
  | @tail c d _ hcd ih =>
    have hc : c ≠ x := by
      rintro rfl
      exact hb ih
    exact ih.tail ((hsame c d hc).1 hcd)

theorem reflTransGen_rerouted (hsame : ∀ a b, a ≠ x → (r' a b ↔ r a b))
    (h : ReflTransGen r b x) : ReflTransGen r' b x := by
  induction h using ReflTransGen.head_induction_on with
  | refl => exact .refl
  | @head b c hbc _ ih =>
    by_cases hb : b = x
    · exact hb ▸ .refl
    · exact ih.head ((hsame b c hb).2 hbc)

/-- A new path is an old one, or it passes the node. -/
theorem transGen_rerouted (hsame : ∀ a b, a ≠ x → (r' a b ↔ r a b)) (h : TransGen r' a c) :
    TransGen r a c ∨ ReflTransGen r' a x ∧ TransGen r' x c := by
  induction h with
  | @single c hac =>
    by_cases ha : a = x
    · subst ha
      exact Or.inr ⟨.refl, .single hac⟩
    · exact Or.inl (.single ((hsame a c ha).1 hac))
  | @tail c d hac hcd ih =>
    by_cases hc : c = x
    · subst hc
      exact Or.inr ⟨hac.to_reflTransGen, .single hcd⟩
    · rcases ih with hold | ⟨hax, hxc⟩
      · exact Or.inl (hold.tail ((hsame c d hc).1 hcd))
      · exact Or.inr ⟨hax, hxc.tail hcd⟩

/-- The links of one node close no loop, exactly if none of them goes to where the node was reached
from before. -/
theorem rerouted_acyclic_iff (hsame : ∀ a b, a ≠ x → (r' a b ↔ r a b))
    (hr : ∀ a, ¬ TransGen r a a) :
    (∀ a, ¬ TransGen r' a a) ↔ ∀ b, r' x b → ¬ ReflTransGen r b x := by
  constructor
  · intro hacyclic b hxb hback
    exact hacyclic x (.head' hxb (reflTransGen_rerouted hsame hback))
  · intro hnew a hloop
    -- a loop is new only if it passes the node, so the node itself is on one
    have hx : TransGen r' x x := by
      rcases transGen_rerouted hsame hloop with hold | ⟨hax, hxa⟩
      · exact absurd hold (hr a)
      · exact hxa.trans_left hax
    obtain ⟨b, hxb, hback⟩ := Relation.TransGen.head'_iff.1 hx
    have hb := hnew b hxb
    exact hb (reflTransGen_of_rerouted hsame hb hback)

end Rerouted

/-! ### Links of items -/

variable {works works' mid : List Work} {w v : Work} {id parent : String} {k : Nat}
  {desk desk' : Desk Work}

theorem linksTo_iff_mem_links : LinksTo works id parent ↔ (id, some parent) ∈ links works := by
  simp [LinksTo, links]

theorem linksTo_congr (h : links works' = links works) : LinksTo works' = LinksTo works := by
  funext id parent
  simp only [linksTo_iff_mem_links, h]

theorem transGen_of_ancestor? (hw : w ∈ works) (h : ancestor? works w (k + 1) = some v) :
    TransGen (LinksTo works) w.id v.id := by
  induction k generalizing v with
  | zero =>
    obtain ⟨x, hx, hparent, -⟩ := ancestor?_succ_eq_some.1 h
    obtain rfl := Option.some.inj hx
    exact .single ⟨w, hw, rfl, hparent⟩
  | succ k ih =>
    obtain ⟨x, hx, hparent, -⟩ := ancestor?_succ_eq_some.1 h
    exact (ih hx).tail ⟨x, mem_of_ancestor? hw hx, rfl, hparent⟩

theorem exists_ancestor?_of_transGen (hd : Distinct works) (hw : w ∈ works)
    (h : TransGen (LinksTo works) w.id id) (hv : v ∈ works) (hid : v.id = id) :
    ∃ k, ancestor? works w (k + 1) = some v := by
  -- along the path, for any item that is found at its end
  induction h generalizing v with
  | @single id hlink =>
    obtain ⟨x, hx, hxid, hparent⟩ := hlink
    obtain rfl := List.inj_on_of_nodup_map hd hx hw hxid
    exact ⟨0, ancestor?_succ_eq_some.2 ⟨x, rfl, hid ▸ hparent, hd.find?_of_mem hv⟩⟩
  | @tail mid id _ hlink ih =>
    obtain ⟨x, hx, hxid, hparent⟩ := hlink
    obtain ⟨k, hk⟩ := ih hx hxid
    exact ⟨k + 1, ancestor?_succ_eq_some.2 ⟨x, hk, hid ▸ hparent, hd.find?_of_mem hv⟩⟩

theorem acyclic_iff (hd : Distinct works) :
    Acyclic works ↔ ∀ id, ¬ TransGen (LinksTo works) id id := by
  constructor
  · intro hacyclic id hloop
    obtain ⟨-, ⟨w, hw, rfl, -⟩, -⟩ := Relation.TransGen.head'_iff.1 hloop
    obtain ⟨k, hk⟩ := exists_ancestor?_of_transGen hd hw hloop hw rfl
    exact hacyclic w hw k hk
  · intro hacyclic w hw k hk
    exact hacyclic w.id (transGen_of_ancestor? hw hk)

theorem loops_congr (h : links works' = links mid) : Loops works works' ↔ Loops works mid := by
  unfold Loops
  rw [linksTo_congr h]

/-- What links there are after an edit: those of the edited item, and those that the others had. -/
theorem linksTo_edit {change : Change Work} (hedit : Edit works mid change) (hd : Distinct works)
    (hne : id ≠ change.id) : LinksTo mid id parent ↔ LinksTo works id parent := by
  have hmem {x : Work} := hedit.mem_iff hd (r := x)
  constructor
  · rintro ⟨x, hx, rfl, hparent⟩
    rcases hmem.1 hx with hvalue | ⟨hx, -⟩
    · exact absurd (Change.id_of_value? hvalue) hne
    · exact ⟨x, hx, rfl, hparent⟩
  · rintro ⟨x, hx, rfl, hparent⟩
    exact ⟨x, hmem.2 (Or.inr ⟨hx, hne⟩), rfl, hparent⟩

theorem Acyclic.edit_iff {change : Change Work} (h : Acyclic works) (hedit : Edit works mid change)
    (hd : Distinct works) : Acyclic mid ↔ ¬ Loops works mid := by
  have hbefore := (acyclic_iff hd).1 h
  rw [acyclic_iff (hedit.distinct hd),
    rerouted_acyclic_iff (fun _ _ hne => linksTo_edit hedit hd hne) hbefore]
  constructor
  · rintro hnew ⟨id, parent, hlink, hback⟩
    by_cases hid : id = change.id
    · subst hid
      exact hnew parent hlink hback
    · exact hbefore id (.head' ((linksTo_edit hedit hd hid).1 hlink) hback)
  · intro hn parent hlink hback
    exact hn ⟨change.id, parent, hlink, hback⟩

theorem Relinked.acyclic_iff (h : Relinked works works') (hs : Sound works)
    (hacyclic : Acyclic works) (hd' : Distinct works') : Acyclic works' ↔ ¬ Loops works works' := by
  cases h with
  | kept same =>
    rw [Work.acyclic_iff hd', loops_congr same, linksTo_congr same, ← Work.acyclic_iff hs.distinct]
    refine iff_of_true hacyclic ?_
    rintro ⟨id, parent, hlink, hback⟩
    exact (Work.acyclic_iff hs.distinct).1 hacyclic id (.head' hlink hback)
  | @edited mid _ edit _ same =>
    have hdmid := edit.distinct hs.distinct
    rw [Work.acyclic_iff hd', loops_congr same, linksTo_congr same, ← Work.acyclic_iff hdmid]
    exact hacyclic.edit_iff edit hs.distinct

/-! ### Calls that set no parent -/

/-- The call asks for another parent of an item. -/
def Request.SetsParent (q : Request) : Prop :=
  ∃ id p, q.patch? = some (id, p) ∧ p.parentId.isSome = true

/-- A link that was not there before is that of an item that was not, and leads elsewhere. -/
def OnlyNewLink (works works' : List Work) : Prop :=
  ∀ id parent, LinksTo works' id parent →
    LinksTo works id parent ∨ parent ≠ id ∧ Record.find? works id = none

theorem onlyNewLink_of_links_eq (h : links works' = links works) : OnlyNewLink works works' := by
  intro id parent hlink
  rw [linksTo_congr h] at hlink
  exact Or.inl hlink

theorem Made.onlyNewLink {draft : Draft} (h : Made desk draft w desk') :
    OnlyNewLink desk.store.records desk'.store.records := by
  rw [h.committed.records_eq]
  rintro id parent ⟨x, hx, rfl, hparent⟩
  rcases List.mem_append.1 hx with hx | hx
  · exact Or.inl ⟨x, hx, rfl, hparent⟩
  · obtain rfl := List.mem_singleton.1 hx
    have hne : parent ≠ x.id := by
      rintro rfl
      exact parentId_ne_of_valid h.valid hparent
    exact Or.inr ⟨hne, h.fresh⟩

theorem onlyNewLink_of_deleted (h : Edit works works' (.deleted w)) : OnlyNewLink works works' := by
  rintro id parent ⟨x, hx, hid, hparent⟩
  rcases h.mem_or_value hx with hx | hx
  · exact Or.inl ⟨x, hx, hid, hparent⟩
  · cases hx

theorem Updated.links_eq {p : Patch} {veto : List Work → Work → Except StoreError Unit}
    (h : Updated desk id p veto w desk') (hp : p.parentId = none) :
    links desk'.store.records = links desk.store.records := by
  obtain ⟨-, patch, -, -, changed⟩ := h
  have hparent := parentId_of_patch patch hp
  have hid := id_patch patch
  have hedit := changed.edit
  generalize desk.store.records = works at hedit ⊢
  generalize desk'.store.records = works' at hedit ⊢
  cases hedit with
  | updated => simp [links, hparent, hid]

/-- A call that asks for no parent adds no link but that of the item that it makes. -/
theorem Performed.onlyNewLink {q : Request} (h : Performed q desk desk') (hq : ¬ q.SetsParent) :
    OnlyNewLink desk.store.records desk'.store.records := by
  cases h with
  | idle idle => exact onlyNewLink_of_links_eq (by rw [idle.store])
  | created _ made => exact made.onlyNewLink
  | deleted _ edited => exact onlyNewLink_of_deleted edited.edit
  | @patched id p w mid _ asked updated followed =>
    have hp : p.parentId = none := by
      by_contra hset
      exact hq ⟨id, p, asked, Option.isSome_iff_ne_none.2 hset⟩
    exact onlyNewLink_of_links_eq (followed.links_eq.trans (updated.links_eq hp))

/-- Where every parent is there, the link of a new item closes no loop: nothing leads to it yet. -/
theorem OnlyNewLink.not_loops (h : OnlyNewLink works works') (hd : Distinct works)
    (hlinked : Linked works) (hacyclic : Acyclic works) : ¬ Loops works works' := by
  rintro ⟨id, parent, hlink, hback⟩
  rcases h id parent hlink with hold | ⟨hne, hfresh⟩
  · exact (acyclic_iff hd).1 hacyclic id (.head' hold hback)
  · rcases hback.cases_tail with rfl | ⟨_, -, c, hc, -, hparent⟩
    · exact hne rfl
    · obtain ⟨p, hp, rfl⟩ := hlinked c hc id hparent
      have hfound : Record.find? works p.id = some p := hd.find?_of_mem hp
      rw [hfound] at hfresh
      cases hfresh

/-! ### Runs -/

variable {s s' : Store Work}

theorem Called.sound_and_acyclic_iff (h : Called s s') (hs : Sound s.records)
    (hacyclic : Acyclic s.records) :
    Sound s'.records ∧ (Acyclic s'.records ↔ ¬ Loops s.records s'.records) :=
  ⟨h.sound hs, h.relinked.acyclic_iff hs hacyclic (h.sound hs).distinct⟩

/-- In the states that calls lead to from an empty store, however they end, no item is its own
parent. None stands above itself further up, exactly as long as no call gives an item a link to
where links led back to it. Where every parent is there, only a call that asks for another parent
can do so. -/
theorem acyclic_iff_never_loops {s₀ : Store Work} (hempty : s₀.records = [])
    {later : List (Store Work)} (hrun : (s₀ :: later).IsChain Called) :
    (∀ s ∈ s₀ :: later, ∀ w ∈ s.records, w.parentId ≠ some w.id) ∧
    ((∀ s ∈ s₀ :: later, Acyclic s.records) ↔
      (s₀ :: later).IsChain fun s s' => ¬ Loops s.records s'.records) ∧
    ∀ s ∈ s₀ :: later, Linked s.records → Acyclic s.records →
      ∀ (q : Request) (host : Host) (desk' : Desk Work), Ends q.run ⟨s, host, []⟩ desk' →
        ¬ Acyclic desk'.store.records → q.SetsParent := by
  have hsound := sound_of_calls hempty hrun
  refine ⟨?_, ?_, ?_⟩
  · intro s hs w hw
    exact parentId_ne_of_valid ((hsound s hs).valid w hw)
  · have hacyclic : Acyclic s₀.records := by
      rw [hempty]
      exact fun _ hw => absurd hw List.not_mem_nil
    exact forall_iff_isChain_not (fun hcall hs ha => hcall.sound_and_acyclic_iff hs ha)
      later s₀ (hsound s₀ List.mem_cons_self) hacyclic hrun
  · intro s hs hlinked hacyclic q host desk' hends hloop
    by_contra hq
    have hcalled : Called s desk'.store := ⟨q, host, desk', hends, rfl⟩
    have hlinks : OnlyNewLink s.records desk'.store.records :=
      (performed_of_ends hends).onlyNewLink hq
    have hn := hlinks.not_loops (hsound s hs).distinct hlinked hacyclic
    exact hloop ((hcalled.sound_and_acyclic_iff (hsound s hs) hacyclic).2.2 hn)

/-- An item is made and a child of it, which is made its parent. -/
private theorem exists_looping_run : ∃ (data : Location) (host host' : Host)
    (s₀ s₁ s₂ s₃ : Store Work) (a b a' : Work), Store.open data host = .ok s₀ host' ∧
    [s₀, s₁, s₂, s₃].IsChain Called ∧ s₀.records = [] ∧ s₁.records = [a] ∧ s₂.records = [a, b] ∧
    s₃.records = [a', b] ∧ a.parentId = none ∧ b.parentId = some a.id ∧ b.id ≠ a.id ∧
    a'.id = a.id ∧ a'.parentId = some b.id := by
  let data : Location := ⟨["data"], "/data"⟩
  let host : Host := { ids := fun n => if n = 0 then "a" else "b", times := fun _ => .epoch }
  let one : Priority := Priority.zero.succ
  let a : Work := ⟨"a", .task, none, "upper", "", .open, none, none, one, .epoch, .epoch⟩
  let b : Work := ⟨"b", .task, some "a", "lower", "", .open, none, none, one.succ, .epoch, .epoch⟩
  let a' : Work := { a with parentId := some "b" }
  let moving : Patch := { parentId := some "b" }
  have hrun : ((Store.done? (Store.open (R := Work) data host)).bind fun x =>
      (Store.done? (create { title := "upper" } ⟨x.1, x.2, []⟩)).bind fun y =>
      (Store.done? (create { title := "lower", parentId := some "a" }
        ⟨y.2.store, y.2.host, []⟩)).bind fun z =>
      (Store.done? (update "a" moving ⟨z.2.store, z.2.host, []⟩)).map fun t =>
        [x.1.records, y.2.store.records, z.2.store.records, t.2.store.records]) =
      some [[], [a], [a, b], [a', b]] := by
    decide +kernel
  simp only [Option.bind_eq_some_iff, Option.map_eq_some_iff, Prod.exists, List.cons.injEq,
    Store.done?_eq_some] at hrun
  obtain ⟨s₀, h₀, hopen, w₁, d₁, hupper, w₂, d₂, hlower, w₃, d₃, hmove, hs₀, hs₁, hs₂, hs₃, -⟩ :=
    hrun
  have hrun : [s₀, d₁.store, d₂.store, d₃.store].IsChain Called :=
    .cons_cons (called_of_ok (q := .create _) hupper)
      (.cons_cons (called_of_ok (q := .create _) hlower)
        (.cons_cons (called_of_ok (q := .update _ _) hmove) (.singleton _)))
  exact ⟨data, host, h₀, s₀, _, _, _, a, b, a', hopen, hrun, hs₀, hs₁, hs₂, hs₃, rfl, rfl,
    by decide, rfl, rfl⟩

/-- A child is made below its parent. -/
theorem acyclic_iff_never_loops_child : ∃ (s₀ s₁ s₂ : Store Work) (a b : Work), s₀.records = [] ∧
    [s₀, s₁, s₂].IsChain Called ∧ s₂.records = [a, b] ∧ b.parentId = some a.id ∧
    ∀ s ∈ [s₀, s₁, s₂], Acyclic s.records := by
  obtain ⟨-, -, -, s₀, s₁, s₂, s₃, a, b, -, -, hrun, hs₀, hs₁, hs₂, -, hroot, hchild, hne, -⟩ :=
    exists_looping_run
  have hrun₂ : [s₀, s₁, s₂].IsChain Called := by
    simp only [List.isChain_cons_cons] at hrun ⊢
    exact ⟨hrun.1, hrun.2.1, .singleton _⟩
  -- no link is there before the child's, and that leads elsewhere
  have hnone {s s' : Store Work} (hs : ∀ x ∈ s.records, x.parentId = none)
      (hs' : ∀ x ∈ s'.records, x.parentId ≠ some x.id) : ¬ Loops s.records s'.records := by
    rintro ⟨id, parent, ⟨x, hx, rfl, hparent⟩, hback⟩
    rcases hback.cases_head with rfl | ⟨_, ⟨y, hy, -, hlink⟩, -⟩
    · exact hs' x hx hparent
    · rw [hs y hy] at hlink
      cases hlink
  have hfirst : ¬ Loops s₀.records s₁.records :=
    hnone (by simp [hs₀]) (by simp [hs₁, hroot])
  have hsecond : ¬ Loops s₁.records s₂.records :=
    hnone (by simp [hs₁, hroot]) (by simp [hs₂, hroot, hchild, hne.symm])
  have hkept : [s₀, s₁, s₂].IsChain fun s s' => ¬ Loops s.records s'.records :=
    .cons_cons hfirst (.cons_cons hsecond (.singleton _))
  exact ⟨s₀, s₁, s₂, a, b, hs₀, hrun₂, hs₂, hchild,
    (acyclic_iff_never_loops hs₀ hrun₂).2.1.2 hkept⟩

/-- When an item is given its child for a parent, it stands above itself. -/
theorem child_as_parent_loops : ¬ ∀ (data : Location) (host host' : Host) (s₀ : Store Work)
    (later : List (Store Work)), Store.open data host = .ok s₀ host' → s₀.records = [] →
    (s₀ :: later).IsChain Called → ∀ s ∈ s₀ :: later, Acyclic s.records := by
  intro h
  obtain ⟨data, host, host', s₀, s₁, s₂, s₃, a, b, a', hopen, hrun, hempty, -, -, hs₃, -, hb, -,
    hid, ha⟩ := exists_looping_run
  have hacyclic := h data host host' s₀ _ hopen hempty hrun s₃ (by simp)
  have hdistinct := (sound_of_calls hempty hrun s₃ (by simp)).distinct
  have hup : LinksTo s₃.records a'.id b.id := ⟨a', by simp [hs₃], rfl, ha⟩
  have hdown : LinksTo s₃.records b.id a'.id := ⟨b, by simp [hs₃], rfl, hid ▸ hb⟩
  exact (acyclic_iff hdistinct).1 hacyclic a'.id (.head hup (.single hdown))

end WorkQueue.Work
