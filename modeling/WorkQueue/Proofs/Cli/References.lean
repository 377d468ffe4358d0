import Mathlib
import WorkQueue.Cli.Run
import WorkQueue.Proofs.Work.References

/-!
# References that commands leave behind

A command opens the stores that it needs, so what it checks is what is on disk: a role is resolved
among the roles that are there, a parent among the items, and neither a parent nor the role of an
unfinished item is deleted. So on a data directory without records every reference leads somewhere
after every command, whatever it was asked and wherever it failed, as long as nothing else writes
the records.
-/

namespace WorkQueue.Cli

open Store (Desk Edit Edited Idle)
open Work (Resolved Refers Tended)

/-- The records on disk are such that every reference leads somewhere. -/
def Whole (data : Location) (d : Disk) : Prop :=
  ∃ (works : Index.Loaded Work) (roles : Index.Loaded Role),
    (Index.ofData Work data).Holds d works ∧ (Index.ofData Role data).Holds d roles ∧ Resolved works.records roles.records

/-- The store has in memory what is on disk. -/
structure Opened {R : Type} [Record R] (data : Location) (s : Store R) (d : Disk) : Prop where
  index : s.index = Index.ofData R data
  holds : (Index.ofData R data).Holds d ⟨s.records, s.digest⟩

/-- A request that concerns the data directory is carried out, or something else happens on the host
and leaves the items and the roles alone. -/
inductive Next (data : Location) (host : Host) : Host → Prop where
  | request {s : Surroundings} {format : Format} {r : Request}
      (located : ∀ found host', dataDirectory s r.dataDir host = .ok found host' →
        found.path = data.path) : Next data host (runRequest s format r host).2
  | outside {host' : Host}
      (works : host'.disk.content? (Index.ofData Work data).file.path =
        host.disk.content? (Index.ofData Work data).file.path)
      (roles : host'.disk.content? (Index.ofData Role data).file.path =
        host.disk.content? (Index.ofData Role data).file.path) : Next data host host'

variable {R : Type} [Record R] {α β : Type} {data : Location} {host host' : Host} {d d' : Disk}

/-- A call on the store made this change and wrote it. -/
def Wrote (s : Store R) (host : Host) (change : Change R) (host' : Host) : Prop :=
  ∃ desk, Edited ⟨s, host, []⟩ change desk ∧ desk.host = host'

/-- Whatever was asked of the store, nothing happened to it. -/
def Rested (s : Store R) (host host' : Host) : Prop :=
  ∃ desk, Idle ⟨s, host, []⟩ desk ∧ desk.host = host'

/-! ### Steps of commands -/

omit [Record R] in
theorem leads_during (context : String) (a : CommandM α) {done : α → Host → Prop}
    {failed : Failure → Host → Prop} : Leads (during context a) host done failed ↔
      Leads a host done fun f => failed (f.within context) := by
  unfold Leads during
  cases a host <;> rfl

omit [Record R] in
theorem leads_call (s : Store R) (a : StoreM R α) {done : α × Store R → Host → Prop}
    {failed : Failure → Host → Prop} : Leads (call s a) host done failed ↔
      Leads a ⟨s, host, []⟩ (fun x desk => done (x, desk.store) desk.host)
        fun e desk => failed [.store e] desk.host := by
  unfold Leads call
  cases a ⟨s, host, []⟩ <;> rfl

omit [Record R] in
theorem leads_run (s : Store R) (a : StoreM R α) {done : α → Host → Prop}
    {failed : Failure → Host → Prop} : Leads (run s a) host done failed ↔
      Leads a ⟨s, host, []⟩ (fun x desk => done x desk.host)
        fun e desk => failed [.store e] desk.host := by
  rw [run, leads_bind, leads_call]
  rfl

theorem leads_openStore (context : String) : Leads (openStore R data context) host
    (fun s host' => Opened data s host'.disk ∧
      (Index.ofData R data).Untouched host.disk host'.disk)
    (fun _ host' => (Index.ofData R data).Untouched host.disk host'.disk) := by
  have hread := Index.leads_indexRead (R := R) (i := Index.ofData R data) (d := host.disk)
  apply (leads_during _ _).2
  unfold Leads
  simp only [Store.open]
  cases hrun : Index.read (R := R) (Index.ofData R data) host.disk with
  | ok loaded disk =>
    obtain ⟨hkept, -, hholds⟩ := hread.of_ok hrun
    exact ⟨⟨rfl, hholds⟩, hkept⟩
  | error e disk => exact hread.of_error hrun

/-- What may be given is checked or left, and nothing happens. -/
theorem leads_mapM {f : α → CommandM β} {P : β → Prop} (o : Option α)
    (h : ∀ x, Leads (f x) host (fun y host' => host' = host ∧ P y) fun _ host' => host' = host) :
    Leads (o.mapM f) host (fun o' host' => host' = host ∧ ∀ y, o' = some y → P y)
      fun _ host' => host' = host := by
  cases o with
  | none => exact ⟨rfl, fun _ hy => nomatch hy⟩
  | some x =>
    change Leads (some <$> f x) host _ _
    rw [leads_map]
    apply (h x).imp
    intro y _ hy
    refine ⟨hy.1, ?_⟩
    rintro _ ⟨⟩
    exact hy.2

/-! ### What the disk holds -/

theorem Opened.untouched {S : Type} [Record S] {s : Store R} (h : Opened data s d)
    (hd : (Index.ofData S data).Untouched d d') : Opened data s d' :=
  ⟨h.index, h.holds.of_content?_eq hd.content?_eq_of_entity⟩

theorem Whole.of_content?_eq (h : Whole data d)
    (hworks : d'.content? (Index.ofData Work data).file.path =
      d.content? (Index.ofData Work data).file.path)
    (hroles : d'.content? (Index.ofData Role data).file.path =
      d.content? (Index.ofData Role data).file.path) : Whole data d' := by
  obtain ⟨works, roles, hw, hr, hresolved⟩ := h
  exact ⟨works, roles, hw.of_content?_eq hworks, hr.of_content?_eq hroles, hresolved⟩

theorem Whole.untouched (h : Whole data d) (hd : (Index.ofData R data).Untouched d d') :
    Whole data d' :=
  h.of_content?_eq hd.content?_eq_of_entity hd.content?_eq_of_entity

omit [Record R] in
theorem Rested.refl {s : Store R} : Rested s host host := ⟨_, .refl, rfl⟩

theorem Rested.untouched {s : Store R} (h : Rested s host host')
    (hindex : s.index = Index.ofData R data) :
    (Index.ofData R data).Untouched host.disk host'.disk := by
  obtain ⟨desk, hidle, rfl⟩ := h
  exact hindex ▸ hidle.disk

/-- Where an index is does not depend on how the path is written. -/
theorem file_path_congr {data' : Location} (hpath : data'.path = data.path) :
    (Index.ofData R data').file.path = (Index.ofData R data).file.path := by
  simp [Index.ofData, Index.file, Location.child, hpath]

theorem holds_iff_of_path_eq {data' : Location} (hpath : data'.path = data.path)
    {loaded : Index.Loaded R} :
    (Index.ofData R data').Holds d loaded ↔ (Index.ofData R data).Holds d loaded := by
  unfold Index.Holds
  rw [file_path_congr hpath]

theorem Whole.congr {data' : Location} (h : Whole data d) (hpath : data'.path = data.path) :
    Whole data' d := by
  obtain ⟨works, roles, hw, hr, hresolved⟩ := h
  exact ⟨works, roles, (holds_iff_of_path_eq hpath).2 hw, (holds_iff_of_path_eq hpath).2 hr,
    hresolved⟩

theorem whole_of_tended {loaded : Index.Loaded Role} {desk : Desk Work}
    (h : Tended data loaded desk) : Whole data desk.host.disk :=
  ⟨_, loaded, h.works, h.roles, h.resolved⟩

theorem Whole.tended {works : Store Work} {roles : Store Role} (h : Whole data host.disk)
    (hworks : Opened data works host.disk) (hroles : Opened data roles host.disk) :
    Tended data ⟨roles.records, roles.digest⟩ ⟨works, host, []⟩ := by
  obtain ⟨works', roles', hw, hr, hresolved⟩ := h
  obtain rfl := hw.unique hworks.holds
  obtain rfl := hr.unique hroles.holds
  exact ⟨hworks.index, hworks.holds, hroles.holds, hresolved⟩

theorem Whole.exists_tended {works : Store Work} (h : Whole data host.disk)
    (hworks : Opened data works host.disk) :
    ∃ roles, Tended data roles ⟨works, host, []⟩ := by
  obtain ⟨works', roles, hw, hr, hresolved⟩ := h
  obtain rfl := hw.unique hworks.holds
  exact ⟨roles, hworks.index, hworks.holds, hr, hresolved⟩

/-- What goes on with a store that was opened. -/
theorem Whole.leads_open_bind {context : String} {f : Store R → CommandM β}
    (h : Whole data host.disk) (hf : ∀ s host', Whole data host'.disk → Opened data s host'.disk →
      (Index.ofData R data).Untouched host.disk host'.disk → Leads (f s) host'
        (fun _ host' => Whole data host'.disk) fun _ host' => Whole data host'.disk) :
    Leads (openStore R data context >>= f) host (fun _ host' => Whole data host'.disk)
      fun _ host' => Whole data host'.disk := by
  apply (leads_bind _ _).2
  apply (leads_openStore context).mono
  · intro s host' hopened
    exact hf s host' (h.untouched hopened.2) hopened.1 hopened.2
  · intro _ host' hkept
    exact h.untouched hkept

/-! ### Roles -/

theorem mem_list {s : Store R} [LawfulRecord R] {r : R} : r ∈ s.list ↔ r ∈ s.records :=
  (LawfulRecord.order_perm s.records).mem_iff

theorem mem_of_findRole? {roles : Store Role} {key : String} {role : Role}
    (h : findRole? roles key = some role) : role ∈ roles.records := by
  unfold findRole? at h
  cases hget : roles.get? key with
  | some found =>
    rw [hget] at h
    obtain rfl : found = role := Option.some.inj h
    exact Record.mem_of_find? hget
  | none =>
    rw [hget] at h
    exact mem_list.1 (List.mem_of_find?_eq_some h)

theorem findRole?_eq_none_iff {roles : Store Role} {key : String} :
    findRole? roles key = none ↔ ∀ x ∈ roles.records, x.id ≠ key ∧ x.name ≠ key := by
  have hlist : roles.list = roles.records := rfl
  have hget : roles.get? key = roles.records.find? (·.id = key) := rfl
  simp [findRole?, hlist, hget, forall_and]

theorem findRole?_id {roles : Store Role} {r : Role} (hd : Record.Distinct roles.records)
    (hr : r ∈ roles.records) : findRole? roles r.id = some r := by
  have hget : roles.get? r.id = some r := hd.find?_of_mem hr
  simp [findRole?, hget]

theorem leads_needRole (roles : Store Role) (key : String) : Leads (needRole roles key) host
    (fun role host' => host' = host ∧ findRole? roles key = some role)
    fun _ host' => host' = host := by
  unfold needRole
  cases hfound : findRole? roles key with
  | none => rfl
  | some role => exact ⟨rfl, rfl⟩

theorem leads_roleId (roles : Store Role) (key : String) : Leads (roleId roles key) host
    (fun id host' => host' = host ∧ ∃ r ∈ roles.records, r.id = id)
    fun _ host' => host' = host := by
  unfold roleId
  cases hfound : findRole? roles key with
  | none => rfl
  | some role => exact ⟨rfl, role, mem_of_findRole? hfound, rfl⟩

variable {roles : Store Role} {works : Store Work}

/-- A change of the roles leaves every reference whole if no unfinished item has a role that is
deleted. -/
theorem Whole.roles_wrote {change : Change Role} (h : Whole data host.disk)
    (hroles : Opened data roles host.disk) (hwrote : Wrote roles host change host')
    (hkept : ∀ removed, change = .deleted removed → ∀ works : Index.Loaded Work,
      (Index.ofData Work data).Holds host.disk works → ∀ w ∈ works.records,
        w.status = .open ∨ w.status = .inProgress → w.roleId ≠ some removed.id) :
    Whole data host'.disk := by
  obtain ⟨desk, hedited, rfl⟩ := hwrote
  obtain ⟨works, loaded, hw, hr, hresolved⟩ := h
  obtain rfl := hr.unique hroles.holds
  have hdisk := hedited.committed.disk
  have hholds := hedited.holds hroles.holds.allRegular
  simp only [hroles.index] at hdisk hholds
  refine ⟨works, _, hw.of_content?_eq (hdisk.content?_eq (R := Work) (by decide)), hholds, ?_⟩
  apply hresolved.roles_edited hedited.edit
  intro removed hremoved
  exact hkept removed hremoved works hw

/-- A role is made under a new id where its name finds none. -/
theorem leads_addRole (draft : Role.Draft) : Leads (addRole roles draft) host
    (fun r host' => findRole? roles draft.name = none ∧ r.id = host.nextId ∧ r.name = draft.name ∧
      Wrote roles host (.created r) host')
    fun _ host' => Rested roles host host' := by
  unfold addRole
  by_cases hname : (findRole? roles draft.name).isSome = true
  · rw [if_pos hname]
    exact Rested.refl
  rw [if_neg hname]
  apply (leads_run _ _).2
  have hid : Idle (⟨roles, host, []⟩ : Desk Role) ⟨roles, host.afterId, []⟩ := ⟨rfl, rfl, .refl⟩
  rw [Store.newId, leads_bind, leads_modifyGet]
  apply (Store.leads_createWith (R := Role) host.nextId draft _).mono
  · rintro r desk ⟨hfresh, ⟨t, hprepare⟩, -, hcommitted⟩
    obtain rfl := Except.ok.inj hprepare
    exact ⟨Option.not_isSome_iff_eq_none.1 hname, rfl, rfl, desk,
      .of_edit (.created hfresh ⟨t.regular, t.regular⟩) (hid.committed hcommitted), rfl⟩
  · intro _ desk hidle
    exact ⟨desk, hid.trans hidle, rfl⟩

theorem leads_editRole (key : String) (patch : Role.Patch) : Leads (editRole roles key patch) host
    (fun r host' => ∃ role previous, findRole? roles key = some role ∧ previous.id = role.id ∧
      r.id = role.id ∧ r.name = patch.name.getD previous.name ∧
      Wrote roles host (.updated (some previous) r) host')
    fun _ host' => Rested roles host host' := by
  unfold editRole
  by_cases hpatch : patch = {}
  · rw [if_pos hpatch]
    exact Rested.refl
  rw [if_neg hpatch]
  apply (leads_bind _ _).2
  apply (leads_needRole roles key).mono
  · rintro role _ ⟨rfl, hfound⟩
    apply (leads_run _ _).2
    apply (Store.leads_updateWith_patched (R := Role) role.id patch _).mono
    · rintro _ desk ⟨i, previous, _, h, rfl, hcommitted⟩
      obtain rfl := Except.ok.inj h.patch
      have hedited := Edited.of_edit (h.edit _) hcommitted
      exact ⟨role, previous, hfound, h.same, h.same, rfl, desk, hedited, rfl⟩
    · intro _ desk hfailed
      exact ⟨desk, hfailed.1, rfl⟩
  · rintro _ _ rfl
    exact Rested.refl

/-- A role is deleted only where no unfinished item that was read has it. -/
theorem leads_removeRole (key : String) : Leads (removeRole roles works key) host
    (fun r host' => (∃ role, findRole? roles key = some role ∧ r.id = role.id) ∧
      Wrote roles host (.deleted r) host' ∧ ∀ w ∈ works.records,
        w.status = .open ∨ w.status = .inProgress → w.roleId ≠ some r.id)
    fun _ host' => Rested roles host host' := by
  unfold removeRole
  apply (leads_bind _ _).2
  apply (leads_needRole roles key).mono
  · rintro role _ ⟨rfl, hfound⟩
    dsimp only
    split
    · exact Rested.refl
    next hnone =>
    have hunused := List.filter_eq_nil_iff.1 (List.isEmpty_iff.1 (not_not.1 hnone))
    apply (leads_run _ _).2
    apply (Store.leads_delete_edited (R := Role) role.id).mono
    · rintro removed desk ⟨hid, hedited⟩
      refine ⟨⟨role, hfound, hid⟩, ⟨desk, hedited, rfl⟩, ?_⟩
      intro w hw hstatus hrole
      apply hunused w (mem_list.2 hw)
      have hsame : w.roleId = some role.id := hrole.trans (congrArg some hid)
      rcases hstatus with hstatus | hstatus <;> simp [hsame, hstatus, Status.isFinished]
    · intro _ desk hidle
      exact ⟨desk, hidle, rfl⟩
  · rintro _ _ rfl
    exact Rested.refl

theorem keeps_runRole (data : Location) (c : RoleCommand) :
    Keeps (fun host => Whole data host.disk) (runRole data c) := by
  intro host h
  apply h.leads_open_bind
  intro roles host₁ h₁ hroles _
  have hrested {host₁ host₂ : Host} (h₁ : Whole data host₁.disk) (h₂ : Rested roles host₁ host₂) :
      Whole data host₂.disk := h₁.untouched (h₂.untouched hroles.index)
  cases c with
  | list => exact h₁
  | add draft =>
    apply (leads_bind _ _).2
    apply (leads_during _ _).2
    apply (leads_addRole draft).mono
    · rintro r host₂ ⟨-, -, -, hwrote⟩
      apply h₁.roles_wrote hroles hwrote
      intro _ hdeleted
      cases hdeleted
    · intro _ host₂ h₂
      exact hrested h₁ h₂
  | edit key patch =>
    apply (leads_bind _ _).2
    apply (leads_during _ _).2
    apply (leads_editRole key patch).mono
    · rintro r host₂ ⟨role, previous, -, -, -, -, hwrote⟩
      apply h₁.roles_wrote hroles hwrote
      intro _ hdeleted
      cases hdeleted
    · intro _ host₂ h₂
      exact hrested h₁ h₂
  | remove key =>
    apply h₁.leads_open_bind
    intro works host₂ h₂ hworks hkept
    apply (leads_bind _ _).2
    apply (leads_during _ _).2
    apply (leads_removeRole key).mono
    · rintro r host₃ ⟨-, hwrote, hunused⟩
      apply h₂.roles_wrote (hroles.untouched hkept) hwrote
      rintro _ ⟨⟩ loaded hloaded
      obtain rfl := hloaded.unique hworks.holds
      exact hunused
    · intro _ host₃ h₃
      exact hrested h₂ h₃

/-! ### Work items -/

section Works

variable {done : Work → Host → Prop} {failed : Failure → Host → Prop}

/-- The role of a new item is one of those that were read. -/
theorem leads_addWork (draft : Work.Draft) (hrefused : ∀ f, failed f host)
    (hcreate : ∀ role?, (∀ id, role? = some id → ∃ r ∈ roles.records, r.id = id) →
      Leads (run works (Work.create { draft with roleId := role? })) host done failed) :
    Leads (addWork works roles draft) host done failed := by
  unfold addWork
  apply (leads_bind _ _).2
  apply (leads_mapM draft.roleId fun key => leads_roleId roles key).mono
  · rintro role? _ ⟨rfl, hrole⟩
    exact hcreate role? hrole
  · rintro f _ rfl
    exact hrefused f

/-- An item is given one of the roles that were read, or none. -/
theorem leads_editWork (id : String) (patch : Work.Patch) (hrefused : ∀ f, failed f host)
    (hupdate : ∀ role?, (∀ id, role? = some id → id ≠ "" → ∃ r ∈ roles.records, r.id = id) →
      Leads (run works (Work.update id { patch with roleId := role? })) host done failed) :
    Leads (editWork works roles id patch) host done failed := by
  unfold editWork
  apply (leads_bind _ _).2
  have hkey (key : String) : Leads (if key = "" then pure key else roleId roles key) host
      (fun id host' => host' = host ∧ (id ≠ "" → ∃ r ∈ roles.records, r.id = id))
      fun _ host' => host' = host := by
    by_cases hempty : key = ""
    · rw [if_pos hempty]
      exact ⟨rfl, fun hne => absurd hempty hne⟩
    · rw [if_neg hempty]
      exact (leads_roleId roles key).imp fun _ _ hr => ⟨hr.1, fun _ => hr.2⟩
  apply (leads_mapM patch.roleId hkey).mono
  · rintro role? _ ⟨rfl, hrole⟩
    dsimp only
    split
    · exact hrefused _
    · exact hupdate role? hrole
  · rintro f _ rfl
    exact hrefused f

/-- An item is deleted only where no item that was read has it as its parent. -/
theorem leads_removeWork (id : String) (hrefused : ∀ f, failed f host)
    (hdelete : (∀ c ∈ works.records, c.parentId ≠ some id) →
      Leads (run works (Work.delete id)) host done failed) :
    Leads (removeWork works id) host done failed := by
  unfold removeWork
  dsimp only
  split
  · exact hrefused _
  next hnone =>
  have hchildless := List.filter_eq_nil_iff.1 (List.isEmpty_iff.1 (not_not.1 hnone))
  apply hdelete
  intro c hc hparent
  exact hchildless c (mem_list.2 hc) (decide_eq_true hparent)

end Works

theorem leads_run_works {loaded : Index.Loaded Role} {a : StoreM Work Work}
    (ha : Leads a ⟨works, host, []⟩ (fun _ desk => Tended data loaded desk)
      fun _ desk => Tended data loaded desk) :
    Leads (run works a) host (fun _ host' => Whole data host'.disk)
      fun _ host' => Whole data host'.disk :=
  (leads_run _ _).2 (ha.mono (fun _ _ h => whole_of_tended h) fun _ _ h => whole_of_tended h)

theorem leads_patchWork (id : String) {patch : Work.Patch} (hrole : patch.roleId = none)
    (h : Whole data host.disk) (hworks : Opened data works host.disk) :
    Leads (run works (Work.update id patch)) host
      (fun _ host' => Whole data host'.disk) fun _ host' => Whole data host'.disk := by
  obtain ⟨loaded, htended⟩ := h.exists_tended hworks
  apply leads_run_works (Work.leads_update_tended id patch htended _)
  intro role hsome
  rw [hrole] at hsome
  cases hsome

theorem keeps_runWork (data : Location) (c : WorkCommand) :
    Keeps (fun host => Whole data host.disk) (runWork data c) := by
  intro host h
  apply h.leads_open_bind
  intro works host₁ h₁ hworks _
  cases c with
  | list filter => exact h₁
  | «show» id =>
    apply h₁.leads_open_bind
    intro roles host₂ h₂ _ _
    unfold detail
    cases works.get? id with
    | none => exact h₂
    | some work => exact h₂
  | add draft =>
    apply h₁.leads_open_bind
    intro roles host₂ h₂ hroles hkept
    apply (leads_bind _ _).2
    apply (leads_during _ _).2
    apply leads_addWork draft fun _ => h₂
    intro role? hrole
    have htended := h₂.tended (hworks.untouched hkept) hroles
    exact leads_run_works (Work.leads_create_tended _ htended hrole)
  | edit id patch =>
    apply h₁.leads_open_bind
    intro roles host₂ h₂ hroles hkept
    apply (leads_bind _ _).2
    apply (leads_during _ _).2
    apply leads_editWork id patch fun _ => h₂
    intro role? hrole
    have htended := h₂.tended (hworks.untouched hkept) hroles
    exact leads_run_works (Work.leads_update_tended id _ htended hrole)
  | done id =>
    apply (leads_bind _ _).2
    exact (leads_during _ _).2 (leads_patchWork id rfl h₁ hworks)
  | close id =>
    apply (leads_bind _ _).2
    exact (leads_during _ _).2 (leads_patchWork id rfl h₁ hworks)
  | remove id =>
    apply (leads_bind _ _).2
    apply (leads_during _ _).2
    apply leads_removeWork id fun _ => h₁
    intro hchildless
    obtain ⟨loaded, htended⟩ := h₁.exists_tended hworks
    exact leads_run_works (Work.leads_delete_tended id htended hchildless)

/-! ### Autorun -/

theorem leads_setAutorun (on : Bool) {desk : Desk Settings} : Leads (Settings.setAutorun on) desk
    (fun _ desk' => desk.store.index.Rewritten desk.host.disk desk'.host.disk)
    fun _ desk' => desk.store.index.Untouched desk.host.disk desk'.host.disk := by
  unfold Settings.setAutorun
  rw [Store.leads_get_bind]
  cases desk.store.list.head? with
  | some existing =>
    apply (Store.leads_updateWith_edited (R := Settings) existing.id _ _).mono
    · rintro _ _ ⟨_, hedited⟩
      exact hedited.committed.disk
    · intro _ _ hidle
      exact hidle.disk
  | none =>
    apply (Store.leads_createWith (R := Settings) Settings.globalId _ _).mono
    · rintro _ _ ⟨-, -, -, hcommitted⟩
      exact hcommitted.disk
    · intro _ _ hidle
      exact hidle.disk

theorem leads_switchAutorun (settings : Store Settings) (c : AutorunCommand) :
    Leads (switchAutorun settings c) host
      (fun _ host' => settings.index.Rewritten host.disk host'.disk)
      fun _ host' => settings.index.Untouched host.disk host'.disk := by
  have hset (on : Bool) : Leads (call settings (Settings.setAutorun on)) host
      (fun _ host' => settings.index.Rewritten host.disk host'.disk)
      fun _ host' => settings.index.Untouched host.disk host'.disk :=
    (leads_call _ _).2 (leads_setAutorun on)
  cases c with
  | on => exact (leads_during _ _).2 ((leads_bind _ _).2 (hset true))
  | off => exact (leads_during _ _).2 ((leads_bind _ _).2 (hset false))
  | status => exact Index.Untouched.rewritten .refl

/-- The switch is kept in an index of its own. -/
theorem keeps_runAutorun (data : Location) (c : AutorunCommand) :
    Keeps (fun host => Whole data host.disk) (runAutorun data c) := by
  intro host h
  apply h.leads_open_bind
  intro settings host₁ h₁ hsettings _
  apply h₁.leads_open_bind
  intro works host₂ h₂ _ _
  have hkept {disk : Disk} (hd : settings.index.Rewritten host₂.disk disk) : Whole data disk := by
    rw [hsettings.index] at hd
    exact h₂.of_content?_eq (hd.content?_eq (by decide)) (hd.content?_eq (by decide))
  apply (leads_bind _ _).2
  apply (leads_switchAutorun settings c).mono
  · intro _ _ hd
    exact hkept hd
  · intro _ _ hd
    exact hkept hd.rewritten

/-! ### Command lines -/

theorem keeps_runCommand (data : Location) (c : Command) :
    Keeps (fun host => Whole data host.disk) (runCommand data c) := by
  cases c with
  | work c => exact keeps_runWork data c
  | role c => exact keeps_runRole data c
  | autorun c => exact keeps_runAutorun data c

theorem leads_dataDirectory (s : Surroundings) (option : Option String) :
    Leads (dataDirectory s option) host
      (fun found host' => dataDirectory s option host = .ok found host' ∧ host' = host)
      fun _ host' => host' = host := by
  have hsame : Leads (dataDirectory s option) host (fun _ host' => host' = host)
      fun _ host' => host' = host := by
    unfold dataDirectory
    cases option with
    | some dir => rfl
    | none =>
      dsimp only
      rw [leads_bind, leads_get]
      cases Config.loadGlobal host.disk s.home with
      | ok config => rfl
      | error e => rfl
  exact ((leads_self _ host).and hsame).mono (fun _ _ h => h) fun _ _ h => h.2

/-- A host after a request is the one that its command leaves. -/
theorem runRequest_snd (s : Surroundings) (format : Format) (r : Request) {P : Host → Prop}
    (h : Leads (dataDirectory s r.dataDir >>= fun data => runCommand data r.command) host
      (fun _ host' => P host') fun _ host' => P host') : P (runRequest s format r host).2 := by
  unfold runRequest
  dsimp only
  split
  · next hrun => exact h.of_ok hrun
  · next hrun => exact h.of_error hrun

theorem Next.whole {host' : Host} (hnext : Next data host host') (h : Whole data host.disk) :
    Whole data host'.disk := by
  cases hnext with
  | @request s format r located =>
    apply runRequest_snd s format r (P := fun host' => Whole data host'.disk)
    apply (leads_bind _ _).2
    apply (leads_dataDirectory s r.dataDir).mono
    · rintro found _ ⟨hfound, rfl⟩
      have hpath := located found _ hfound
      apply (keeps_runCommand found r.command _ (h.congr hpath)).mono
      · intro _ _ hwhole
        exact hwhole.congr hpath.symm
      · intro _ _ hwhole
        exact hwhole.congr hpath.symm
    · rintro _ _ rfl
      exact h
  | outside works roles => exact h.of_content?_eq works roles

/-- After every command of a run on a data directory without records, whatever the commands were
asked and wherever they failed, the parent of every item is an item, and the role of every item that
is open or in progress is a role. -/
theorem whole_of_commands {later : List Host}
    (hworks : host.disk.content? (Index.ofData Work data).file.path = none)
    (hroles : host.disk.content? (Index.ofData Role data).file.path = none)
    (hrun : (host :: later).IsChain (Next data)) : ∀ h ∈ host :: later, Whole data h.disk := by
  have hempty : Whole data host.disk :=
    ⟨_, _, .of_missing hworks, .of_missing hroles, Work.resolved_nil []⟩
  apply hrun.induction (fun h => Whole data h.disk)
  · intro _ _ hnext hwhole
    exact hnext.whole hwhole
  · intro _
    exact hempty

theorem runRequest_of_runCommand {s : Surroundings} {format : Format} {r : Request}
    {found : Location} {host' : Host} {answer : Answer}
    (hdir : dataDirectory s r.dataDir host = .ok found host)
    (hrun : runCommand found r.command host = .ok answer host') :
    (runRequest s format r host).2 = host' := by
  unfold runRequest
  simp only [bind_of_ok hdir, hrun]

/-- A role is made, and an item for the role of that name. -/
private theorem exists_made : ∃ (host h₁ h₂ : Host) (a₁ a₂ : Answer), host.disk = {} ∧
    runCommand ⟨["d"], "/d"⟩ (.role (.add ⟨"dev", ""⟩)) host = .ok a₁ h₁ ∧
    runCommand ⟨["d"], "/d"⟩ (.work (.add { title := "item", roleId := some "dev" })) h₁ =
      .ok a₂ h₂ := by
  let host : Host := { ids := fun n => if n = 0 then "r" else "w", times := fun _ => .epoch }
  have hrun : ((Store.done? (runCommand ⟨["d"], "/d"⟩ (.role (.add ⟨"dev", ""⟩)) host)).bind
      fun a => (Store.done? (runCommand ⟨["d"], "/d"⟩
        (.work (.add { title := "item", roleId := some "dev" })) a.2)).map fun b => b.2.minted) =
      some 2 := by
    decide +kernel
  simp only [Option.bind_eq_some_iff, Option.map_eq_some_iff, Prod.exists,
    Store.done?_eq_some] at hrun
  obtain ⟨a₁, h₁, hfirst, a₂, h₂, hsecond, -⟩ := hrun
  exact ⟨host, h₁, h₂, a₁, a₂, rfl, hfirst, hsecond⟩

/-- An option that starts at the root is where the data is. -/
theorem dataDirectory_root (h : Host) :
    dataDirectory ⟨⟨["d"], "/d"⟩, none, []⟩ (some "/d") h = .ok ⟨["d"], "/d"⟩ h := by
  have hpath : ((⟨[], ""⟩ : Location).join "/d").path = ["d"] := by cbv
  change EStateM.Result.ok (⟨((⟨[], ""⟩ : Location).join "/d").path, "/d"⟩ : Location) h = _
  rw [hpath]

/-- A command that is answered is carried out by a request that names its data directory. -/
theorem exists_request_of_runCommand {c : Command} {h h' : Host} {answer : Answer}
    (hc : runCommand ⟨["d"], "/d"⟩ c h = .ok answer h') :
    ∃ (s : Surroundings) (format : Format) (r : Request), r.command = c ∧
      (∀ found host', dataDirectory s r.dataDir h = .ok found host' → found.path = ["d"]) ∧
      (runRequest s format r h).2 = h' := by
  let r : Request := ⟨some "/d", false, c⟩
  have hdir := dataDirectory_root h
  refine ⟨⟨⟨["d"], "/d"⟩, none, []⟩, .json, r, rfl, ?_, runRequest_of_runCommand (r := r) hdir hc⟩
  intro found host' hfound
  cases hdir.symm.trans hfound
  rfl

theorem whole_of_commands_made : ∃ (data : Location) (host h₁ h₂ : Host) (answer : Answer),
    [host, h₁, h₂].IsChain (Next data) ∧
    runCommand data (.work (.add { title := "item", roleId := some "dev" })) h₁ = .ok answer h₂ ∧
    ∀ h ∈ [host, h₁, h₂], Whole data h.disk := by
  obtain ⟨host, h₁, h₂, a₁, a₂, hempty, hfirst, hsecond⟩ := exists_made
  let data : Location := ⟨["d"], "/d"⟩
  have hnext {c : Command} {h h' : Host} {answer : Answer}
      (hc : runCommand data c h = .ok answer h') : Next data h h' := by
    obtain ⟨s, format, r, -, hlocated, rfl⟩ := exists_request_of_runCommand hc
    exact .request hlocated
  have hchain : [host, h₁, h₂].IsChain (Next data) :=
    .cons_cons (hnext hfirst) (.cons_cons (hnext hsecond) (.singleton _))
  have hnone (R : Type) [Record R] :
      host.disk.content? (Index.ofData R data).file.path = none := by
    rw [hempty]
    rfl
  have hwhole := whole_of_commands (hnone Work) (hnone Role) hchain
  exact ⟨data, host, h₁, h₂, a₂, hchain, hsecond, hwhole⟩

end WorkQueue.Cli
