import WorkQueue.Proofs.Store.World

/-!
# Readings that were overtaken

A pass remembers the write generation, reads the index, and absorbs what it has read at some later
time. The write generation goes up with every change of the store itself that was persisted, and
with nothing else. What was read is therefore stale exactly when the store has persisted a change of
its own since the generation was remembered, whatever failed, was taken over or was written by
others in the meantime. All that is not stale is taken over as it was read.
-/

namespace WorkQueue.Store

variable {R : Type} [Record R]

/-- A run of one store, and what it was answered on the way. The host may change in any way between
two steps, and so may the index. -/
inductive Process.Run (p : Process R) (h : Host) : List (Answer R) → Process R → Host → Prop where
  | start : Run p h [] p h
  | step {p₁ p₂ : Process R} {h₁ h₂ : Host} {answers : List (Answer R)} {a : Option (Answer R)}
      {commits : List (Commit R)} (run : Run p h answers p₁ h₁)
      (step : p₁.Step h₁ a commits p₂ h₂) : Run p h (answers ++ a.toList) p₂ h₂
  | outside {p₁ : Process R} {h₁ : Host} {answers : List (Answer R)} (run : Run p h answers p₁ h₁)
      (h₂ : Host) : Run p h answers p₁ h₂

/-- The records that were created, updated or deleted by calls that succeeded. -/
def persisted (answers : List (Answer R)) : List R := answers.filterMap Answer.record?

omit [Record R] in
theorem persisted_append (answers answers' : List (Answer R)) :
    persisted (answers ++ answers') = persisted answers ++ persisted answers' :=
  List.filterMap_append

omit [Record R] in
/-- No answer of a pass tells of a change of the store itself. -/
theorem persisted_eq_nil {a : Option (Answer R)} (silent : ∀ b ∈ a, ∃ o, b = .reconciled o) :
    persisted a.toList = [] := by
  cases a with
  | none => rfl
  | some b =>
    obtain ⟨o, rfl⟩ := silent b rfl
    rfl

variable [LawfulRecord R] {p p' : Process R} {h h' : Host}

theorem Process.Step.generation_eq {a : Option (Answer R)} {commits : List (Commit R)}
    (hs : p.Step h a commits p' h') :
    p'.store.generation = p.store.generation + (persisted a.toList).length := by
  rcases hs.effect with ⟨silent, hidle⟩ | ⟨tells, -, hcommitted⟩ | ⟨silent, -, htook⟩
  · have hstore : p'.store = p.store := hidle.store
    rw [persisted_eq_nil silent, hstore]
    rfl
  · obtain ⟨content, -, -, hstore⟩ := hcommitted.written
    have hone : ∀ b : Answer R, persisted (some b).toList = b.record?.toList := by
      intro b
      cases b <;> rfl
    rw [hone, tells.record?_eq]
    exact congrArg Store.generation hstore
  · have hstore : p'.store = _ := htook.store
    rw [persisted_eq_nil silent, hstore]
    rfl

/-- The write generation counts the changes that were persisted. -/
theorem Process.Run.generation_eq {answers : List (Answer R)} (hrun : p.Run h answers p' h') :
    p'.store.generation = p.store.generation + (persisted answers).length := by
  induction hrun with
  | start => rfl
  | step _ hs ih =>
    rw [hs.generation_eq, ih, persisted_append, List.length_append, Nat.add_assoc]
  | outside _ _ ih => exact ih

/-- What absorbing a reading does, apart from what it answers. -/
structure Absorbs (desk : Desk R) (reading : Reading R) (outcome : Absorbed) (desk' : Desk R) :
    Prop where
  host : desk'.host = desk.host
  generation : desk'.store.generation = desk.store.generation
  stale : outcome = .stale → desk' = desk
  /-- the records and the digest are those that were read -/
  taken : outcome ≠ .stale → desk'.store.records = reading.loaded.records ∧
    desk'.store.digest = reading.loaded.digest
  /-- just the differences are announced, in one commit -/
  announced : outcome ≠ .stale →
    let changes := Change.diff desk.store.records reading.loaded.records
    (changes = [] → outcome = .unchanged ∧ desk'.store.revision = desk.store.revision ∧
      desk'.commits = desk.commits) ∧
    (changes ≠ [] → outcome = .applied changes.length ∧
      desk'.store.revision = desk.store.revision + 1 ∧
      ∃ c, desk'.commits = desk.commits ++ [c] ∧ c.store = desk'.store ∧
        c.events = changes.map fun change => ⟨change, desk.store.revision + 1⟩)

omit [LawfulRecord R] in
theorem leads_absorbs (desk : Desk R) (reading : Reading R) : Leads (absorb reading) desk
    (fun outcome desk' => (outcome = .stale ↔ reading.generation ≠ desk.store.generation) ∧
      Absorbs desk reading outcome desk') (fun _ _ => False) := by
  apply ((leads_absorb reading).and (absorb_host reading)).mono
  · rintro outcome desk' ⟨hdone, hhost⟩
    rcases hdone with ⟨rfl, hne, rfl⟩ | ⟨rfl, hgeneration, htook⟩
    · refine ⟨iff_of_true rfl hne, hhost, rfl, fun _ => rfl, ?_, ?_⟩
      · intro hfresh
        exact absurd rfl hfresh
      · intro hfresh
        exact absurd rfl hfresh
    · have hfresh := Absorbed.taken_ne_stale
        (Change.diff desk.store.records reading.loaded.records)
      refine ⟨iff_of_false hfresh (not_not.2 hgeneration), hhost, ?_, ?_, ?_, ?_⟩
      · rw [htook.store]
      · intro hstale
        exact absurd hstale hfresh
      · intro _
        exact ⟨congrArg Store.records htook.store, congrArg Store.digest htook.store⟩
      · intro _ changes
        have hcommits := htook.commits
        have hrevision := congrArg Store.revision htook.store
        constructor
        · intro hsame
          have hempty : changes.isEmpty = true := List.isEmpty_iff.2 hsame
          rw [if_pos hempty] at hcommits hrevision
          exact ⟨if_pos hempty, hrevision, hcommits.trans (List.append_nil _)⟩
        · intro hdiffer
          have hempty : ¬ changes.isEmpty = true := fun h => hdiffer (List.isEmpty_iff.1 h)
          rw [if_neg hempty] at hcommits hrevision
          exact ⟨if_neg hempty, hrevision, _, hcommits, rfl, rfl⟩
  · rintro _ _ ⟨h, -⟩
    exact h

/-- What was read is stale exactly when the store has persisted a change of its own since the write
generation was remembered. Absorbing what is stale does nothing; all else is taken over. -/
theorem stale_iff_persisted (e : Entity) {p p' : Process e.Rec} {h h' : Host}
    {answers : List (Answer e.Rec)} (hrun : p.Run h answers p' h')
    (loaded : Index.Loaded e.Rec) :
    ∃ outcome desk, absorb ⟨p.store.generation, loaded⟩ (p'.desk h') = .ok outcome desk ∧
      (outcome = .stale ↔ persisted answers ≠ []) ∧
      Absorbs (p'.desk h') ⟨p.store.generation, loaded⟩ outcome desk := by
  have habsorbs := leads_absorbs (p'.desk h') ⟨p.store.generation, loaded⟩
  have hgeneration : p'.store.generation = p.store.generation + (persisted answers).length :=
    hrun.generation_eq
  cases habsorb : absorb ⟨p.store.generation, loaded⟩ (p'.desk h') with
  | ok outcome desk =>
    obtain ⟨hstale, hdone⟩ := habsorbs.of_ok habsorb
    refine ⟨outcome, desk, rfl, hstale.trans ?_, hdone⟩
    rw [← List.length_pos_iff]
    change p.store.generation ≠ p'.store.generation ↔ _
    omega
  | error e desk => exact (habsorbs.of_error habsorb).elim

/-- An index that was read before a role is made is stale once the role is there. -/
theorem stale_iff_persisted_created : ∃ (s : Store Role) (h h' : Host) (p : Process Role)
    (loaded : Index.Loaded Role) (disk : Disk) (r : Role),
    Store.open ⟨["data"], "/data"⟩ { ids := fun _ => "x", times := fun _ => .epoch } = .ok s h ∧
    s.index.read h.disk = .ok loaded disk ∧
    Process.Run ⟨s, []⟩ h [.created r] p h' ∧
    absorb ⟨s.generation, loaded⟩ (p.desk h') = .ok .stale (p.desk h') := by
  let data : Location := ⟨["data"], "/data"⟩
  let host : Host := { ids := fun _ => "x", times := fun _ => .epoch }
  let request : Request Role := .create ({ name := "first" } : Role.Draft)
  let r : Role := ⟨"x", "first", "", .epoch, .epoch⟩
  have hruns : ((done? (Store.open (R := Role) data host)).bind fun a =>
      (done? (Index.read (R := Role) a.1.index a.2.disk)).bind fun b =>
      (done? (request.run ⟨a.1, { a.2 with disk := b.2 }, []⟩)).map fun c => c.1) =
      some (.created r) := by
    decide +kernel
  simp only [Option.bind_eq_some_iff, Option.map_eq_some_iff, Prod.exists, done?_eq_some] at hruns
  obtain ⟨s, h, hopen, loaded, disk, hread, _, desk, hmade, rfl⟩ := hruns
  let reading : Reading Role := ⟨s.generation, loaded⟩
  let p₁ : Process Role := ⟨s, [reading]⟩
  let h₁ : Host := { h with disk }
  have hreads : Process.Step ⟨s, []⟩ h none [] p₁ h₁ :=
    .read (Nat.le_refl s.generation) hread
  have hmakes : p₁.Step h₁ (some (.created r)) desk.commits ⟨desk.store, [reading]⟩ desk.host :=
    .answered hmade
  have hrun : Process.Run ⟨s, []⟩ h [.created r] ⟨desk.store, [reading]⟩ desk.host :=
    (Process.Run.start.step hreads).step hmakes
  obtain ⟨outcome, desk', habsorb, hstale, hdone⟩ := stale_iff_persisted .role hrun loaded
  obtain rfl := hstale.2 (List.cons_ne_nil r [])
  obtain rfl := hdone.stale rfl
  exact ⟨s, h, _, _, loaded, disk, r, hopen, hread, hrun, habsorb⟩

end WorkQueue.Store
