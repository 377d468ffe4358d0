import Mathlib.Logic.Relation
import WorkQueue.Proofs.Store.Refusal
import WorkQueue.Proofs.Store.RoundTrip
import WorkQueue.Proofs.Store.World

/-!
# Writes that are cut off

A write may be cut off between two of its steps or in the middle of one, because its process is
killed or the machine stops, or because a step is refused. When the machine stops, a file whose
content was not synced may hold anything, or be gone; what was synced stays, and a file is moved in
one step. Only the temporary file is ever filled, and it is moved after it was synced. So the index
holds the records that it held before or those that were to be written, whatever earlier writes have
left in the temporary file, and the next write puts its own records in place.
-/

namespace WorkQueue.Index

open Disk

/-! ### What a write leaves behind -/

/-- A step that is cut off halfway. The other steps are done at once or not at all. -/
inductive Torn (i : Index) (d : Disk) : Step → Disk → Prop where
  /-- the directories of the path are there down to some depth -/
  | makeDir (depth : Nat) {d' : Disk}
      (run : makeDirsFrom [] (i.dir.path.take depth) d = .ok ⟨⟩ d') : Torn i d .makeDir d'
  | openTemp {d' : Disk} (run : openFile i.temp.path 0o600 d = .ok ⟨⟩ d') : Torn i d .openTemp d'
  | fill {content : ByteArray} (length : Nat) {d' : Disk}
      (run : Disk.write i.temp.path (content.extract 0 length) d = .ok ⟨⟩ d') :
      Torn i d (.fill content) d'

/-- The file whose content is not synced after a step, where there is one; `p?` is that before it. A
file that is moved is as far synced as it was. -/
def Step.unsynced (i : Index) (p? : Option Path) : Step → Option Path
  | openTemp | fill _ => some i.temp.path
  | sync => none
  | rename => p?.map fun _ => i.file.path
  | makeDir | lock | restrict => p?

/-- The process ends, or the machine stops: the file that is not synced holds anything or is gone,
and all other files stay. What the system will refuse after that is left open. -/
structure Stopped (unsynced : Option Path) (d d' : Disk) : Prop where
  others : ∀ p, unsynced ≠ some p → d'.shape p = d.shape p
  file : ∀ p, unsynced = some p → ¬ d'.isDir p = true

/-- What may be left of the steps of a write that is cut off. -/
inductive CutOff (i : Index) : Option Path → List Step → Disk → Disk → Prop where
  | between {unsynced : Option Path} {steps : List Step} {d d' : Disk}
      (stopped : Stopped unsynced d d') : CutOff i unsynced steps d d'
  | within {unsynced : Option Path} {step : Step} {rest : List Step} {d d₁ d' : Disk}
      (torn : Torn i d step d₁) (stopped : Stopped (step.unsynced i unsynced) d₁ d') :
      CutOff i unsynced (step :: rest) d d'
  | refused {unsynced : Option Path} {step : Step} {rest : List Step} {e : StoreError}
      {d d₁ d' : Disk} (run : step.run i d = .error e d₁) (stopped : Stopped unsynced d₁ d') :
      CutOff i unsynced (step :: rest) d d'
  | after {unsynced : Option Path} {step : Step} {rest : List Step} {d d₁ d' : Disk}
      (run : step.run i d = .ok ⟨⟩ d₁) (later : CutOff i (step.unsynced i unsynced) rest d₁ d') :
      CutOff i unsynced (step :: rest) d d'

/-- A write of the records is cut off. What was in the temporary file need not be synced. -/
def WriteCutOff {R : Type} [Record R] (i : Index) (records : List R) (d d' : Disk) : Prop :=
  ∃ content, encode records = .ok content ∧ CutOff i (some i.temp.path) (steps content) d d'

variable {i : Index} {d d' d₁ : Disk} {unsynced : Option Path} {step : Step}

/-- Where a write is cut off, it is cut off before a step or after all steps up to it. -/
theorem CutOff.split {xs ys : List Step} (h : CutOff i unsynced (xs ++ ys) d d') :
    CutOff i unsynced xs d d' ∨ ∃ d₁, forM xs (Step.run i) d = .ok ⟨⟩ d₁ ∧
      CutOff i (xs.foldl (Step.unsynced i) unsynced) ys d₁ d' := by
  induction xs generalizing unsynced d with
  | nil => exact Or.inr ⟨d, rfl, h⟩
  | cons x xs ih =>
    cases h with
    | between stopped => exact Or.inl (.between stopped)
    | within torn stopped => exact Or.inl (.within torn stopped)
    | refused run stopped => exact Or.inl (.refused run stopped)
    | after run later =>
      rcases ih later with hfirst | ⟨d₁, hrun, hrest⟩
      · exact Or.inl (.after run hfirst)
      · right
        use d₁
        constructor
        · rw [List.forM_cons]
          exact (bind_of_ok run _).trans hrun
        · exact hrest

theorem CutOff.append {xs ys : List Step} (run : forM xs (Step.run i) d = .ok ⟨⟩ d₁)
    (h : CutOff i (xs.foldl (Step.unsynced i) unsynced) ys d₁ d') :
    CutOff i unsynced (xs ++ ys) d d' := by
  induction xs generalizing unsynced d with
  | nil =>
    cases run
    exact h
  | cons x xs ih =>
    rw [List.forM_cons] at run
    cases hx : x.run i d with
    | ok _ d₂ =>
      have hrest : forM xs (Step.run i) d₂ = .ok ⟨⟩ d₁ := (bind_of_ok hx _).symm.trans run
      exact .after hx (ih hrest h)
    | error e d₂ =>
      simp only [bind, EStateM.bind, hx] at run
      cases run

/-! ### Steps that leave the index alone -/

/-- No other file than the temporary one is lost. -/
def OnlyTemp (i : Index) (unsynced : Option Path) : Prop := ∀ p, unsynced = some p → p = i.temp.path

theorem Stopped.untouched (h : Stopped unsynced d d') (hu : i.OnlyTemp unsynced)
    (htemp : ¬ d.isDir i.temp.path = true) : i.Untouched d d' := by
  intro p
  by_cases hp : unsynced = some p
  · right
    left
    have hfile := h.file p hp
    obtain rfl := hu p hp
    rw [isDir_iff] at hfile htemp
    exact ⟨by simp, i.temp_not_prefix_dir, htemp, hfile⟩
  · left
    exact h.others p hp

/-- The steps that neither fill nor move the index file. -/
def Step.Quiet : Step → Prop
  | rename => False
  | _ => True

theorem Step.Quiet.onlyTemp (hq : step.Quiet) (hu : i.OnlyTemp unsynced) :
    i.OnlyTemp (step.unsynced i unsynced) := by
  intro p hp
  cases step with
  | rename => exact hq.elim
  | openTemp => exact (Option.some.inj hp).symm
  | fill content => exact (Option.some.inj hp).symm
  | sync => cases hp
  | makeDir => exact hu p hp
  | lock => exact hu p hp
  | restrict => exact hu p hp

theorem Torn.untouched (h : Torn i d step d') : i.Untouched d d' := by
  have hmem : i.temp.path ∈ [i.lock.path, i.temp.path] := by simp
  cases h with
  | makeDir depth run =>
    have hprefix : [] ++ i.dir.path.take depth <+: i.dir.path := List.take_prefix _ _
    have hroot : d.Reaches [] := by
      intro q hq
      rw [List.prefix_nil.1 hq]
      exact isDir_iff.2 (shape_nil d)
    exact ((leads_makeDirsFrom [] _ hprefix hroot).of_ok run).1
  | openTemp run => exact ((leads_openFile _ hmem i.temp_not_prefix_dir).of_ok run).1
  | fill length run => exact ((leads_write _ hmem i.temp_not_prefix_dir).of_ok run).1

theorem Step.Quiet.leads_run (hq : step.Quiet) : Leads (step.run i) d
    (fun _ d' => i.Untouched d d') (fun _ d' => i.Untouched d d') := by
  have hmem : i.temp.path ∈ [i.lock.path, i.temp.path] := by simp
  cases step with
  | rename => exact hq.elim
  | makeDir => exact leads_ensureDir.mono (fun _ _ h => h.1) fun _ _ h => h
  | lock => exact (leads_takeLock _).mono (fun _ _ h => h.1) fun _ _ h => h
  | openTemp =>
    apply (leads_attempt _ _).2
    exact leads_openEmpty _ hmem i.temp_not_prefix_dir
  | fill content =>
    apply (leads_attempt _ _).2
    apply (leads_write _ hmem i.temp_not_prefix_dir).mono
    · intro _ _ h
      exact h.1
    · intro _ _ h
      exact .of_shape_eq h
  | sync =>
    apply (leads_attempt _ _).2
    apply (leads_sync _).mono <;> exact fun _ _ h => .of_shape_eq h
  | restrict =>
    apply (leads_attempt _ _).2
    exact (leads_setMode _ _).imp fun _ _ h => .of_shape_eq h

theorem leads_quiet {steps : List Step} (hq : ∀ s ∈ steps, s.Quiet) :
    Leads (forM steps (Step.run i)) d
      (fun _ d' => i.Untouched d d') (fun _ d' => i.Untouched d d') := by
  induction steps generalizing d with
  | nil => exact (leads_pure _).2 .refl
  | cons s steps ih =>
    have hrest : ∀ s' ∈ steps, s'.Quiet := fun s' hs' => hq s' (List.mem_cons_of_mem s hs')
    rw [List.forM_cons, leads_bind]
    apply (hq s List.mem_cons_self).leads_run.imp
    intro _ d₁ h₁
    exact (ih hrest).mono (fun _ _ h => h₁.trans h) fun _ _ h => h₁.trans h

/-- A file at the place of the temporary one is no directory after a quiet step either. -/
theorem Untouched.not_isDir_temp (h : i.Untouched d d') (htemp : ¬ d.isDir i.temp.path = true) :
    ¬ d'.isDir i.temp.path = true :=
  Kept.not_isDir h i.temp_not_prefix_dir htemp

theorem CutOff.untouched {steps : List Step} (h : CutOff i unsynced steps d d')
    (hq : ∀ s ∈ steps, s.Quiet) (hu : i.OnlyTemp unsynced)
    (htemp : ¬ d.isDir i.temp.path = true) : i.Untouched d d' := by
  induction h with
  | between stopped => exact stopped.untouched hu htemp
  | within torn stopped =>
    have htorn := torn.untouched
    have hstopped := stopped.untouched ((hq _ List.mem_cons_self).onlyTemp hu)
      (htorn.not_isDir_temp htemp)
    exact htorn.trans hstopped
  | refused run stopped =>
    have hstep := (hq _ List.mem_cons_self).leads_run.of_error run
    exact hstep.trans (stopped.untouched hu (hstep.not_isDir_temp htemp))
  | after run later ih =>
    have hstep := (hq _ List.mem_cons_self).leads_run.of_ok run
    have hrest := ih (fun s hs => hq s (List.mem_cons_of_mem _ hs))
      ((hq _ List.mem_cons_self).onlyTemp hu) (hstep.not_isDir_temp htemp)
    exact hstep.trans hrest

/-! ### The pair of files -/

variable {R : Type} [Record R] {loaded loaded' : Loaded R}

/-- The index holds these records, and nothing stands in the way of it or of the temporary file. -/
structure Intact (i : Index) (d : Disk) (loaded : Loaded R) : Prop where
  clear : i.Clear d
  temp : ¬ d.isDir i.temp.path = true
  holds : i.Holds d loaded

theorem Intact.rewritten (h : i.Intact d loaded) (hr : i.Rewritten d d')
    (hh : i.Holds d' loaded') : i.Intact d' loaded' where
  clear := ⟨Kept.passable hr h.clear.dir, Kept.not_isDir hr i.file_not_prefix_dir h.clear.file,
    Kept.not_isDir hr i.lock_not_prefix_dir h.clear.lock⟩
  temp := Kept.not_isDir hr i.temp_not_prefix_dir h.temp
  holds := hh

theorem Intact.untouched (h : i.Intact d loaded) (hu : i.Untouched d d') : i.Intact d' loaded :=
  h.rewritten hu.rewritten (h.holds.of_content?_eq hu.content?_eq)

theorem Intact.writable (h : i.Intact d loaded) (hg : i.Granted d) : i.Writable d :=
  ⟨hg, h.clear, h.temp⟩

/-- The steps of a write before it moves the temporary file. -/
def preparing (content : ByteArray) : List Step :=
  [.makeDir, .lock, .openTemp, .fill content, .sync]

theorem quiet_of_mem_preparing {content : ByteArray} (h : step ∈ preparing content) :
    step.Quiet := by
  simp only [preparing, List.mem_cons, List.not_mem_nil, or_false] at h
  rcases h with rfl | rfl | rfl | rfl | rfl <;> trivial

/-- What was prepared is the content, in the temporary file. -/
theorem leads_preparing (content : ByteArray) : Leads (forM (preparing content) (Step.run i)) d
    (fun _ d' => d'.shape i.temp.path = some (some content)) (fun _ _ => True) := by
  have hmem : i.temp.path ∈ [i.lock.path, i.temp.path] := by simp
  have hany (steps : List Step) (d : Disk) :
      Leads (forM steps (Step.run i)) d (fun _ _ => True) (fun _ _ => True) :=
    leads_iff.2 ⟨fun _ _ _ => trivial, fun _ _ _ => trivial⟩
  have hsplit : preparing content = [.makeDir, .lock, .openTemp] ++ [.fill content, .sync] := rfl
  rw [hsplit, List.forM_append, leads_bind]
  apply (hany _ d).mono
  · intro _ d₁ _
    rw [List.forM_cons, leads_bind, Step.run, leads_attempt]
    apply (leads_write content hmem i.temp_not_prefix_dir).mono
    · intro _ d₂ h₂
      rw [List.forM_cons, leads_bind, Step.run, leads_attempt]
      apply (leads_sync _).mono
      · intro _ _ h
        exact (congrFun h _).trans h₂.2
      · intro _ _ _
        trivial
    · intro _ _ _
      trivial
  · intro _ _ _
    trivial

theorem leads_rename_run : Leads (Step.rename.run i) d
    (fun _ d' => i.Rewritten d d' ∧ ∃ content,
      d.shape i.temp.path = some (some content) ∧ d'.shape i.file.path = some (some content))
    (fun _ d' => i.Untouched d d') :=
  (leads_attempt _ _).2 leads_moveIntoPlace

variable {content : ByteArray} {records : List R}

/-- Wherever a write is cut off, the index holds what it held or what was to be written. -/
theorem CutOff.intact (h : CutOff i (some i.temp.path) (steps content) d d')
    (hi : i.Intact d loaded) (hdecode : decode content = .ok records) :
    i.Intact d' loaded ∨ i.Intact d' ⟨records, some (Digest.ofBytes content)⟩ := by
  have honly : i.OnlyTemp (some i.temp.path) := fun p hp => (Option.some.inj hp).symm
  have hnone : i.OnlyTemp none := fun p hp => by cases hp
  have hsteps : steps content = preparing content ++ [.rename, .restrict] := rfl
  rw [hsteps] at h
  rcases h.split with hearly | ⟨d₁, hrun, hlate⟩
  · left
    exact hi.untouched (hearly.untouched (fun _ => quiet_of_mem_preparing) honly hi.temp)
  have hprepared : i.Untouched d d₁ :=
    (leads_quiet fun _ => quiet_of_mem_preparing).of_ok hrun
  have htemp := (leads_preparing content).of_ok hrun
  have hi₁ := hi.untouched hprepared
  cases hlate with
  | between stopped =>
    left
    exact hi₁.untouched (stopped.untouched hnone hi₁.temp)
  | within torn stopped => cases torn
  | @refused _ _ _ _ _ d₂ _ run stopped =>
    left
    have hfailed : i.Untouched d₁ d₂ := leads_rename_run.of_error run
    have hi₂ := hi₁.untouched hfailed
    exact hi₂.untouched (stopped.untouched hnone hi₂.temp)
  | @after _ _ _ _ d₂ _ run later =>
    right
    obtain ⟨hmoved, content', hfrom, hto⟩ := leads_rename_run.of_ok run
    have hsame : content' = content := by simpa [htemp] using hfrom.symm
    have hholds : i.Holds d₂ (⟨records, some (Digest.ofBytes content)⟩ : Loaded R) := by
      unfold Holds
      rw [content?_eq_join, hto, hsame]
      exact ⟨hdecode, rfl⟩
    have hi₂ := hi₁.rewritten hmoved hholds
    have hquiet : ∀ s ∈ [Step.restrict], s.Quiet := by
      intro s hs
      obtain rfl := List.mem_singleton.1 hs
      trivial
    exact hi₂.untouched (later.untouched hquiet hnone hi₂.temp)

section Lawful

variable [LawfulRecord R]

theorem WriteCutOff.intact {kept : List R} (h : i.WriteCutOff records d d')
    (hi : i.Intact d loaded) (hkept : decode (written records) = .ok kept) :
    i.Intact d' loaded ∨ ∃ digest, i.Intact d' ⟨kept, some digest⟩ := by
  obtain ⟨content, hencode, hcut⟩ := h
  rw [encode_eq_written] at hencode
  obtain rfl := Except.ok.inj hencode
  rcases hcut.intact hi hkept with hold | hnew
  · exact Or.inl hold
  · exact Or.inr ⟨_, hnew⟩

/-- Writes of whatever records, one after the other, each of which is cut off. -/
def CutOffs (R : Type) [Record R] (i : Index) : Disk → Disk → Prop :=
  Relation.ReflTransGen fun d d' => ∃ records : List R, i.WriteCutOff records d d'

theorem CutOffs.intact (h : CutOffs R i d d') (hi : i.Intact d loaded) :
    ∃ loaded : Loaded R, i.Intact d' loaded := by
  induction h with
  | refl => exact ⟨loaded, hi⟩
  | tail _ hcut ih =>
    obtain ⟨loaded₁, hi₁⟩ := ih
    obtain ⟨records, hcut⟩ := hcut
    obtain ⟨kept, hkept⟩ := exists_decode_written records
    rcases hcut.intact hi₁ hkept with hold | ⟨digest, hnew⟩
    · exact ⟨_, hold⟩
    · exact ⟨_, hnew⟩

end Lawful

end WorkQueue.Index

namespace WorkQueue.Store

/-- Opening the store finds just these records, under this digest. -/
def Opens {R : Type} [Record R] (data : Location) (d : Disk) (loaded : Index.Loaded R) : Prop :=
  ∀ host : Host, host.disk = d → ∃ (s : Store R) (host' : Host),
    Store.open data host = .ok s host' ∧ s.records = loaded.records ∧ s.digest = loaded.digest

end WorkQueue.Store
