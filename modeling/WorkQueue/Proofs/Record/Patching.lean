import Mathlib.Tactic.MkIffOfInductiveProp
import WorkQueue.Proofs.Record.Laws

/-!
# What a patch does to a record

A field that a patch leaves unset stays as it is, one that it sets takes the value, and the empty
text clears a reference. The identity and the time of creation are in no patch. This says all there
is to say of a record after a patch, and so a patch has done its work the first time: applied to
what it has made it changes nothing, unless it asks for a status, which an item does not take twice.
-/

namespace WorkQueue

open Time

/-! ### Fields -/

/-- What becomes of a field by what is asked for it. -/
inductive Takes {α : Type} : Option α → α → α → Prop where
  | unset (old : α) : Takes none old old
  | set (old value : α) : Takes (some value) old value

/-- What becomes of a reference, which the empty text clears. -/
inductive Repoints : Option String → Option String → Option String → Prop where
  | unset (old : Option String) : Repoints none old old
  | cleared (old : Option String) : Repoints (some "") old none
  | set (old : Option String) {key : String} (nonempty : key ≠ "") :
      Repoints (some key) old (some key)

theorem takes_iff_eq {α : Type} {asked : Option α} {old new : α} :
    Takes asked old new ↔ new = asked.getD old := by
  constructor
  · intro h
    cases h <;> rfl
  · rintro rfl
    cases asked with
    | none => exact .unset old
    | some value => exact .set old value

theorem repoints_iff_eq {asked old new : Option String} :
    Repoints asked old new ↔ new = Work.patchedReference old asked := by
  constructor
  · intro h
    cases h with
    | unset => rfl
    | cleared => rfl
    | set _ nonempty => exact (if_neg nonempty).symm
  · rintro rfl
    cases asked with
    | none => exact .unset old
    | some key =>
      by_cases hkey : key = ""
      · subst hkey
        exact .cleared old
      · rw [Work.patchedReference, clearable, if_neg hkey]
        exact .set old hkey

theorem Takes.again {α : Type} {asked : Option α} {old new : α} (h : Takes asked old new) :
    Takes asked new new := by
  cases h with
  | unset => exact .unset _
  | set => exact .set _ _

theorem Repoints.again {asked old new : Option String} (h : Repoints asked old new) :
    Repoints asked new new := by
  cases h with
  | unset => exact .unset _
  | cleared => exact .cleared _
  | set _ nonempty => exact .set _ nonempty

/-! ### Records -/

/-- A work item before and after a patch at a time. -/
@[mk_iff] structure Work.Amended (p : Work.Patch) (now : Stamp) (w w' : Work) : Prop where
  id : w'.id = w.id
  kind : Takes p.kind w.kind w'.kind
  parentId : Repoints p.parentId w.parentId w'.parentId
  title : Takes p.title w.title w'.title
  body : Takes p.body w.body w'.body
  status : Takes p.status w.status w'.status
  roleId : Repoints p.roleId w.roleId w'.roleId
  sessionId : Repoints p.sessionId w.sessionId w'.sessionId
  priority : Takes p.priority w.priority w'.priority
  createdAt : w'.createdAt = w.createdAt
  updatedAt : w'.updatedAt = now

@[mk_iff] structure Role.Amended (p : Role.Patch) (now : Stamp) (r r' : Role) : Prop where
  id : r'.id = r.id
  name : Takes p.name r.name r'.name
  prompt : Takes p.prompt r.prompt r'.prompt
  createdAt : r'.createdAt = r.createdAt
  updatedAt : r'.updatedAt = now

@[mk_iff] structure Snippet.Amended (p : Snippet.Patch) (now : Stamp) (s s' : Snippet) : Prop where
  id : s'.id = s.id
  name : Takes p.name s.name s'.name
  content : Takes p.content s.content s'.content
  createdAt : s'.createdAt = s.createdAt
  updatedAt : s'.updatedAt = now

@[mk_iff] structure Session.Amended (p : Session.Patch) (now : Stamp) (s s' : Session) : Prop where
  id : s'.id = s.id
  title : Takes p.title s.title s'.title
  createdAt : s'.createdAt = s.createdAt
  updatedAt : s'.updatedAt = now

@[mk_iff] structure Settings.Amended (p : Settings.Patch) (now : Stamp) (s s' : Settings) :
    Prop where
  id : s'.id = s.id
  autorun : Takes p.autorun s.autorun s'.autorun
  createdAt : s'.createdAt = s.createdAt
  updatedAt : s'.updatedAt = now

theorem Work.amended_iff_eq {p : Patch} {now : Stamp} {w w' : Work} :
    Amended p now w w' ↔ w' = { patched p w with updatedAt := now } := by
  cases w'
  simp only [amended_iff, takes_iff_eq, repoints_iff_eq, patched, mk.injEq]

theorem Work.Amended.again {p : Patch} {now : Stamp} {w w' : Work} (h : Amended p now w w') :
    Amended p w'.updatedAt w' w' :=
  ⟨rfl, h.kind.again, h.parentId.again, h.title.again, h.body.again, h.status.again,
    h.roleId.again, h.sessionId.again, h.priority.again, rfl, rfl⟩

theorem Role.amended_iff_eq {p : Patch} {now : Stamp} {r r' : Role} :
    Amended p now r r' ↔ r' = { patched p r with updatedAt := now } := by
  cases r'
  simp only [amended_iff, takes_iff_eq, patched, mk.injEq]

theorem Role.Amended.again {p : Patch} {now : Stamp} {r r' : Role} (h : Amended p now r r') :
    Amended p r'.updatedAt r' r' :=
  ⟨rfl, h.name.again, h.prompt.again, rfl, rfl⟩

theorem Snippet.amended_iff_eq {p : Patch} {now : Stamp} {s s' : Snippet} :
    Amended p now s s' ↔ s' = { patched p s with updatedAt := now } := by
  cases s'
  simp only [amended_iff, takes_iff_eq, patched, mk.injEq]

theorem Snippet.Amended.again {p : Patch} {now : Stamp} {s s' : Snippet}
    (h : Amended p now s s') : Amended p s'.updatedAt s' s' :=
  ⟨rfl, h.name.again, h.content.again, rfl, rfl⟩

theorem Session.amended_iff_eq {p : Patch} {now : Stamp} {s s' : Session} :
    Amended p now s s' ↔ s' = { patched p s with updatedAt := now } := by
  cases s'
  simp only [amended_iff, takes_iff_eq, patched, mk.injEq]

theorem Session.Amended.again {p : Patch} {now : Stamp} {s s' : Session} (h : Amended p now s s') :
    Amended p s'.updatedAt s' s' :=
  ⟨rfl, h.title.again, rfl, rfl⟩

theorem Settings.amended_iff_eq {p : Patch} {now : Stamp} {s s' : Settings} :
    Amended p now s s' ↔ s' = { patched p s with updatedAt := now } := by
  cases s'
  simp only [amended_iff, takes_iff_eq, patched, mk.injEq]

theorem Settings.Amended.again {p : Patch} {now : Stamp} {s s' : Settings}
    (h : Amended p now s s') : Amended p s'.updatedAt s' s' :=
  ⟨rfl, h.autorun.again, rfl, rfl⟩

/-! ### Records of any kind -/

namespace Entity

/-- A record before and after a patch at a time. -/
def Amended : (e : Entity) → Record.Patch e.Rec → Stamp → e.Rec → e.Rec → Prop
  | work => Work.Amended
  | role => Role.Amended
  | command => Snippet.Amended
  | session => Session.Amended
  | settings => Settings.Amended

/-- The patch sets the status, which is a field of work items alone. -/
def asksStatus : (e : Entity) → Record.Patch e.Rec → Bool
  | work => fun p => (Work.Patch.status p).isSome
  | _ => fun _ => false

variable {e : Entity} {p : Record.Patch e.Rec} {now : Stamp} {previous patched next : e.Rec}

/-- What is said of the fields determines the record. -/
theorem amended_iff_eq (h : Record.patch p previous = .ok patched) :
    e.Amended p now previous next ↔ next = Record.touch now patched := by
  cases e with
  | work =>
    obtain rfl := Work.eq_patched_of_patch h
    exact Work.amended_iff_eq
  | role =>
    cases h
    exact Role.amended_iff_eq
  | command =>
    cases h
    exact Snippet.amended_iff_eq
  | session =>
    cases h
    exact Session.amended_iff_eq
  | settings =>
    cases h
    exact Settings.amended_iff_eq

theorem Amended.again (h : e.Amended p now previous next) :
    e.Amended p (Record.updatedAt next) next next := by
  cases e with
  | work => exact Work.Amended.again h
  | role => exact Role.Amended.again h
  | command => exact Snippet.Amended.again h
  | session => exact Session.Amended.again h
  | settings => exact Settings.Amended.again h

/-- Only a status can be refused by the record itself. -/
theorem exists_patch (h : e.asksStatus p = false) (r : e.Rec) :
    ∃ patched, Record.patch p r = .ok patched := by
  cases e with
  | work =>
    have hnone : Work.Patch.status p = none := by simpa [asksStatus] using h
    have hpatch : Work.patch p r = .ok (Work.patched p r) := by rw [Work.patch, hnone]
    exact ⟨_, hpatch⟩
  | role | command | session | settings => exact ⟨_, rfl⟩

@[simp] theorem touch_touch (now before : Stamp) (r : e.Rec) :
    Record.touch now (Record.touch before r) = Record.touch now r := by
  cases e <;> rfl

/-- The time of an update does not matter for whether a record is valid. -/
@[simp] theorem validate_touch (now : Stamp) (r : e.Rec) :
    Record.validate (Record.touch now r) = Record.validate r := by
  cases e <;> rfl

/-- A patch without a status finds nothing left to change in what it has made. -/
theorem Amended.patch_again (h : e.Amended p now previous next) (hs : e.asksStatus p = false) :
    ∃ patched, Record.patch p next = .ok patched ∧
      Record.validate patched = Record.validate next ∧
      ∀ t, Record.touch t patched = Record.touch t next := by
  obtain ⟨patched, hpatch⟩ := exists_patch hs next
  have hnext := (amended_iff_eq hpatch).1 h.again
  refine ⟨patched, hpatch, ?_, fun t => ?_⟩
  · rw [hnext, validate_touch]
  · rw [hnext, touch_touch]

end Entity

end WorkQueue
