import WorkQueue.Proofs.Store.Served
import WorkQueue.Proofs.Work.Calls

/-!
# What a change of an item answers

A change that is answered gives the item as it is then kept, also where the item and the line above
it have closed on the way. One that is refused has done nothing. Only the system stops a cascade
midway: records always have a written form, and an item that is valid can be closed.
-/

namespace WorkQueue

namespace Store

variable {R : Type} [Record R] [LawfulRecord R]

theorem fails_updateWith {P : StoreError → Prop} {id : String} {patch : Record.Patch R}
    {veto : List R → R → Except StoreError Unit} (hio : ∀ e, e.IsIo → P e)
    (hrefused : ∀ s e, UpdateRefused s id patch veto e → P e) :
    Fails P (updateWith id patch veto) := by
  intro desk
  apply leads_updateWith_of_commit
  · intro e he
    exact hrefused _ e he
  · intro i previous patched _
    exact (fails_commit _ _ _).mono hio _

end Store

namespace Work

open Store (Desk Idle UpdateRefused)

variable {desk desk' : Desk Work} {w : Work} {id : String} {p : Patch} {e : StoreError}

/-- The error is not that a record has no written form. -/
def Written (e : StoreError) : Prop := e.IsPersistence → e.IsIo

theorem written_of_isIo (h : e.IsIo) : Written e := fun _ => h

theorem written_of_refused {s : Store Work} {veto : List Work → Work → Except StoreError Unit}
    (hveto : ∀ works w e, veto works w = .error e → Written e)
    (h : UpdateRefused s id p veto e) : Written e := by
  cases h with
  | missing => exact fun hp => hp.elim
  | patch _ refused =>
    obtain ⟨next, rfl⟩ := eq_invalidTransition_of_patch refused
    exact fun hp => hp.elim
  | veto _ _ refused => exact hveto _ _ _ refused
  | invalid => exact fun hp => hp.elim

theorem written_of_checkParent {works : List Work} (h : checkParent works w = .error e) :
    Written e := by
  obtain ⟨p, -, -, rfl⟩ := checkParent_eq_error_iff.1 h
  exact fun hp => hp.elim

theorem fails_settle (n : Nat) (w : Work) : Fails Written (settle n w) := by
  induction n generalizing w with
  | zero => exact fails_pure _
  | succ n ih =>
    apply Fails.bind
    · apply fails_get_bind
      intro desk
      dsimp only
      split
      · apply Store.fails_updateWith
        · intro e he
          exact written_of_isIo he
        · intro s e he
          apply written_of_refused _ he
          intro _ _ _ hok
          cases hok
      · exact fails_pure _
    · intro w₁
      apply fails_get_bind
      intro desk
      dsimp only
      split
      · exact (ih _).discard.bind fun _ => fails_pure _
      · exact fails_pure _

theorem fails_update (id : String) (p : Patch) : Fails Written (update id p) := by
  apply Fails.bind
  · apply Store.fails_updateWith
    · intro e he
      exact written_of_isIo he
    · intro s e he
      exact written_of_refused (fun _ _ _ hrefused => written_of_checkParent hrefused) he
  · intro w
    split
    · exact fails_get_bind fun desk => fails_settle _ w
    · exact fails_pure _

theorem secures_update_found (id : String) (p : Patch) : Secures (update id p) desk
    fun w desk' => (∃ previous, desk.store.get? id = some previous) ∧ w.id = id ∧
      desk'.store.get? id = some w := by
  apply (leads_updateWith id p checkParent).secures.bind
  intro w mid hupdated
  have hbefore : ∃ previous, desk.store.get? id = some previous := by
    obtain ⟨found⟩ := hupdated
    exact ⟨_, found⟩
  obtain rfl : w.id = id := hupdated.id_eq
  have hfound : mid.store.get? w.id = some w := hupdated.get?_eq
  by_cases hp : p.status.isSome = true
  · rw [if_pos hp]
    apply (leads_settle _ hfound (reach_le_length _ _)).secures.imp
    rintro w' desk' ⟨-, hsame, hfinal⟩
    exact ⟨hbefore, hsame, hsame ▸ hfinal⟩
  · rw [if_neg hp]
    exact ⟨hbefore, rfl, hfound⟩

/-- The answer to a change is the item as it is then kept. A change that fails has done nothing, or
the system refused to write in the middle of it. -/
theorem leads_update_answered (id : String) (p : Patch) (hv : Valid desk.store.records) :
    Leads (update id p) desk
      (fun w desk' => (∃ previous, desk.store.get? id = some previous) ∧ w.id = id ∧
        desk'.store.get? id = some w)
      fun e desk' => Idle desk desk' ∨ e.IsIo := by
  have hfailed : Leads (update id p) desk (fun _ desk' => Done desk desk')
      fun e desk' => Failed (.update id p) desk e desk' := leads_update _ rfl
  apply (((secures_update_found id p).and hfailed).and (fails_update id p desk)).mono
  · rintro w desk' ⟨⟨hfound, -⟩, -⟩
    exact hfound
  · rintro e desk' ⟨⟨-, hfailed⟩, hwritten⟩
    by_cases he : e.IsPersistence
    · exact Or.inr (hwritten he)
    · exact Or.inl (hfailed.idle_of_valid hv he)

end Work

end WorkQueue
