import WorkQueue.Proofs.Cli.Served
import WorkQueue.Proofs.Work.Waiting

/-!
# Names of roles

A role is looked up by its id or by its name, and an id comes first. So a role is found by both as
long as no role has the name of another, or another's id for its name. The command that makes a role
refuses a name that finds one, and the command that changes a role does not. From a data directory
without roles every role is found by its id, and all are found by their names exactly as long as no
command gives a role a name that belongs to another, or makes a role under an id that is the name of
another.
-/

namespace WorkQueue.Cli

open Record (Distinct)
open Store (Edit)

/-- No role has the name of another, or another's id for its name. -/
def Identified (roles : List Role) : Prop :=
  ∀ r ∈ roles, ∀ x ∈ roles, x.id ≠ r.id → x.name ≠ r.name ∧ x.name ≠ r.id

/-- Every role is found by its id and by its name. -/
def Finds (roles : Store Role) : Prop :=
  ∀ r ∈ roles.records, findRole? roles r.id = some r ∧ findRole? roles r.name = some r

/-- The roles on disk are such that each is told by its name. -/
def Told (data : Location) (d : Disk) : Prop :=
  ∃ loaded : Index.Loaded Role, (Index.ofData Role data).Holds d loaded ∧ Identified loaded.records

/-- The roles on disk have ids of their own. -/
def Stored (data : Location) (d : Disk) : Prop :=
  ∃ loaded : Index.Loaded Role, (Index.ofData Role data).Holds d loaded ∧ Distinct loaded.records

/-- The name that the command asks for belongs to another role, as its name or its id; or the id
that it is about to give is the name of a role. -/
def RoleCommand.Confuses (roles : Store Role) (host : Host) : RoleCommand → Prop
  | .edit key patch => ∃ role name, findRole? roles key = some role ∧ patch.name = some name ∧
      ∃ x ∈ roles.records, x.id ≠ role.id ∧ (x.name = name ∨ x.id = name)
  | .add _ => ∃ x ∈ roles.records, x.name = host.nextId
  | .list | .remove _ => False

/-- A role command that concerns the data directory is carried out, or something else happens on the
host and leaves the roles alone. -/
inductive Turn (data : Location) (host : Host) : Host → Prop where
  | request {s : Surroundings} {format : Format} {r : Request} {c : RoleCommand}
      (asked : r.command = .role c)
      (located : ∀ found host', dataDirectory s r.dataDir host = .ok found host' →
        found.path = data.path) : Turn data host (runRequest s format r host).2
  | outside {host' : Host}
      (roles : host'.disk.content? (Index.ofData Role data).file.path =
        host.disk.content? (Index.ofData Role data).file.path) : Turn data host host'

/-- A command was answered that confuses the roles it has opened. -/
def Confuses (data : Location) (host host' : Host) : Prop :=
  ∃ (found : Location) (c : RoleCommand) (roles : Store Role) (host₁ : Host) (answer : Answer),
    found.path = data.path ∧ openRoles found host = .ok roles host₁ ∧
    runRole found c host = .ok answer host' ∧ c.Confuses roles host₁

/-! ### Looking up -/

section Lookup

variable {roles : Store Role} {key : String} {r : Role}

theorem findRole?_name_or_id (h : findRole? roles key = some r) : r.id = key ∨ r.name = key := by
  unfold findRole? at h
  cases hget : roles.get? key with
  | some x =>
    rw [hget] at h
    obtain rfl : x = r := Option.some.inj h
    exact Or.inl (Record.id_of_find? hget)
  | none =>
    rw [hget] at h
    have hname := List.find?_some h
    exact Or.inr (of_decide_eq_true hname)

theorem identified_iff_finds (hd : Distinct roles.records) :
    Identified roles.records ↔ Finds roles := by
  constructor
  · intro h r hr
    refine ⟨findRole?_id hd hr, ?_⟩
    cases hfound : findRole? roles r.name with
    | none => exact absurd rfl (findRole?_eq_none_iff.1 hfound r hr).2
    | some x =>
      have hx := mem_of_findRole? hfound
      have hid : x.id = r.id := by
        by_contra hne
        rcases findRole?_name_or_id hfound with hxid | hname
        · exact (h x hx r hr (Ne.symm hne)).2 hxid.symm
        · exact (h r hr x hx hne).1 hname
      rw [List.inj_on_of_nodup_map hd hx hr hid]
  · intro h r hr x hx hne
    have hfound := (h x hx).2
    constructor
    · intro hname
      rw [hname, (h r hr).2] at hfound
      exact hne (congrArg Role.id (Option.some.inj hfound)).symm
    · intro hid
      rw [hid, (h r hr).1] at hfound
      exact hne (congrArg Role.id (Option.some.inj hfound)).symm

end Lookup

/-! ### One change -/

/-- The role keeps apart from all others: neither has the name of the other, or its id for a
name. -/
def Apart (roles : List Role) (r : Role) : Prop :=
  ∀ x ∈ roles, x.id ≠ r.id → x.name ≠ r.name ∧ x.id ≠ r.name ∧ x.name ≠ r.id

theorem forall_value_iff {change : Change Role} {v : Role} {P : Role → Prop}
    (h : change.value? = some v) : (∀ x, change.value? = some x → P x) ↔ P v := by
  simp [h]

theorem Identified.edit_iff {roles roles' : List Role} {change : Change Role}
    (h : Identified roles) (hedit : Edit roles roles' change) (hd : Distinct roles) :
    Identified roles' ↔ ∀ v, change.value? = some v → Apart roles v := by
  have hmem {x : Role} := hedit.mem_iff hd (r := x)
  have hvalue {v : Role} (hv : change.value? = some v) : v.id = change.id :=
    Change.id_of_value? hv
  constructor
  · intro h' v hv x hx hne
    have hx' : x ∈ roles' := hmem.2 (Or.inr ⟨hx, hvalue hv ▸ hne⟩)
    have hv' : v ∈ roles' := hmem.2 (Or.inl hv)
    obtain ⟨hname, hid⟩ := h' v hv' x hx' hne
    exact ⟨hname, (h' x hx' v hv' hne.symm).2.symm, hid⟩
  · intro hapart r hr x hx hne
    rcases hmem.1 hr with hr | ⟨hr, -⟩ <;> rcases hmem.1 hx with hx | ⟨hx, -⟩
    · exact absurd ((hvalue hx).trans (hvalue hr).symm) hne
    · obtain ⟨hname, -, hid⟩ := hapart r hr x hx hne
      exact ⟨hname, hid⟩
    · obtain ⟨hname, hid, -⟩ := hapart x hx r hr hne.symm
      exact ⟨hname.symm, hid.symm⟩
    · exact h r hr x hx hne

/-- A role that was told by its name is kept apart from the others by its new name alone. -/
theorem Identified.apart_iff {roles : List Role} {previous next : Role} (h : Identified roles)
    (hprevious : previous ∈ roles) (hid : next.id = previous.id) : Apart roles next ↔
      ∀ x ∈ roles, x.id ≠ previous.id → x.name ≠ next.name ∧ x.id ≠ next.name := by
  refine forall₂_congr fun x hx => ?_
  rw [hid]
  refine forall_congr' fun hne => ?_
  have hkept := (h previous hprevious x hx hne).2
  tauto

/-! ### Commands -/

/-- What is on disk after a command, which confuses the roles if and only if `bad` holds. -/
def Turned (data : Location) (roles : List Role) (bad : Prop) (d : Disk) : Prop :=
  ∃ after : Index.Loaded Role, (Index.ofData Role data).Holds d after ∧ Distinct after.records ∧
    (Identified roles → (Identified after.records ↔ ¬ bad))

variable {data : Location} {host host' : Host} {roles : Store Role}

/-- The roles on disk are those that were there. -/
def SameRoles (data : Location) (d d' : Disk) : Prop :=
  d'.content? (Index.ofData Role data).file.path = d.content? (Index.ofData Role data).file.path

theorem turned_of_same {d d' : Disk} (h : SameRoles data d d') (hroles : Opened data roles d)
    (hd : Distinct roles.records) : Turned data roles.records False d' :=
  ⟨_, hroles.holds.of_content?_eq h, hd, fun hn => iff_of_true hn not_false⟩

theorem sameRoles_of_rested (hindex : roles.index = Index.ofData Role data)
    (h : Rested roles host host') : SameRoles data host.disk host'.disk :=
  (h.untouched hindex).content?_eq

theorem Wrote.legal {change : Change Role} (h : Wrote roles host change host')
    (hd : Distinct roles.records) : change.Legal (Record.find? roles.records) := by
  obtain ⟨desk, hedited, rfl⟩ := h
  exact hedited.edit.legal hd

/-- The role that a change is of is the one that was found. -/
theorem Wrote.eq_of_findRole? {change : Change Role} {key : String} {previous role : Role}
    (h : Wrote roles host change host') (hd : Distinct roles.records)
    (hbefore : change.before? = some previous) (hfound : findRole? roles key = some role)
    (hid : previous.id = role.id) : previous = role := by
  have hprevious := (h.legal hd).eq_before?.trans hbefore
  exact List.inj_on_of_nodup_map hd (Record.mem_of_find? hprevious) (mem_of_findRole? hfound) hid

theorem turned_of_wrote {change : Change Role} {bad : Prop}
    (hroles : Opened data roles host.disk) (hd : Distinct roles.records)
    (h : Wrote roles host change host')
    (hbad : Identified roles.records →
      ((∀ v, change.value? = some v → Apart roles.records v) ↔ ¬ bad)) :
    Turned data roles.records bad host'.disk := by
  obtain ⟨desk, hedited, rfl⟩ := h
  have hholds := hedited.holds hroles.holds.allRegular
  simp only [hroles.index] at hholds
  refine ⟨_, hholds, hedited.edit.distinct hd, ?_⟩
  intro hn
  exact (hn.edit_iff hedited.edit hd).trans (hbad hn)

/-- A role whose name found none is kept apart from the others, unless its id is the name of one. -/
theorem apart_made_iff {draft : Role.Draft} {r : Role} (hname : r.name = draft.name)
    (hid : r.id = host.nextId) (hnone : findRole? roles draft.name = none)
    (hfresh : roles.get? r.id = none) :
    Apart roles.records r ↔ ¬ (RoleCommand.add draft).Confuses roles host := by
  have hnew (x : Role) (hx : x ∈ roles.records) : x.id ≠ r.id :=
    of_decide_eq_false (Bool.eq_false_iff.2 (List.find?_eq_none.1 hfresh x hx))
  constructor
  · rintro hapart ⟨x, hx, htaken⟩
    exact (hapart x hx (hnew x hx)).2.2 (htaken.trans hid.symm)
  · intro hn x hx _
    obtain ⟨hxid, hxname⟩ := findRole?_eq_none_iff.1 hnone x hx
    rw [hname, hid]
    exact ⟨hxname, hxid, fun htaken => hn ⟨x, hx, htaken⟩⟩

/-- A patched role is kept apart from the others, unless the name that the patch sets is taken. -/
theorem apart_patched_iff {key : String} {patch : Role.Patch} {role next : Role}
    (hfound : findRole? roles key = some role) (hid : next.id = role.id)
    (hname : next.name = patch.name.getD role.name) (hn : Identified roles.records) :
    Apart roles.records next ↔ ¬ (RoleCommand.edit key patch).Confuses roles host := by
  have hrole := mem_of_findRole? hfound
  rw [hn.apart_iff hrole hid, hname]
  simp only [RoleCommand.Confuses, hfound, Option.some.injEq]
  cases hset : patch.name with
  | none =>
    apply iff_of_true
    · intro x hx hne
      exact ⟨(hn role hrole x hx hne).1, (hn x hx role hrole hne.symm).2.symm⟩
    · rintro ⟨_, _, -, hsome, -⟩
      cases hsome
  | some name => simp

theorem leads_addRole_turned (draft : Role.Draft) (hroles : Opened data roles host.disk)
    (hd : Distinct roles.records) : Leads (addRole roles draft) host
      (fun _ host' => Turned data roles.records ((RoleCommand.add draft).Confuses roles host)
        host'.disk)
      fun _ host' => SameRoles data host.disk host'.disk := by
  apply (leads_addRole draft).mono
  · rintro r host' ⟨hnone, hid, hname, hwrote⟩
    have hfresh : roles.get? r.id = none := (hwrote.legal hd).eq_before?
    apply turned_of_wrote hroles hd hwrote
    intro _
    rw [forall_value_iff rfl]
    exact apart_made_iff hname hid hnone hfresh
  · intro _ host' hrested
    exact sameRoles_of_rested hroles.index hrested

theorem leads_editRole_turned (key : String) (patch : Role.Patch)
    (hroles : Opened data roles host.disk) (hd : Distinct roles.records) :
    Leads (editRole roles key patch) host
      (fun _ host' => Turned data roles.records ((RoleCommand.edit key patch).Confuses roles host)
        host'.disk)
      fun _ host' => SameRoles data host.disk host'.disk := by
  apply (leads_editRole key patch).mono
  · rintro r host' ⟨role, previous, hfound, hsame, hid, hname, hwrote⟩
    obtain rfl := hwrote.eq_of_findRole? hd rfl hfound hsame
    apply turned_of_wrote hroles hd hwrote
    intro hn
    rw [forall_value_iff rfl]
    exact apart_patched_iff hfound hid hname hn
  · intro _ host' hrested
    exact sameRoles_of_rested hroles.index hrested

theorem leads_removeRole_turned {works : Store Work} (key : String)
    (hroles : Opened data roles host.disk) (hd : Distinct roles.records) :
    Leads (removeRole roles works key) host
      (fun _ host' => Turned data roles.records False host'.disk)
      fun _ host' => SameRoles data host.disk host'.disk := by
  apply (leads_removeRole key).mono
  · rintro r host' ⟨-, hwrote, -⟩
    apply turned_of_wrote hroles hd hwrote
    intro _
    exact iff_of_true (fun _ hv => nomatch hv) not_false
  · intro _ host' hrested
    exact sameRoles_of_rested hroles.index hrested

/-- A role command that is answered has turned the roles that it opened, and one that is not has
left them as they were. -/
theorem leads_runRole_turned (c : RoleCommand) (hs : Stored data host.disk) :
    Leads (runRole data c) host
      (fun _ host' => ∃ roles host₁, openRoles data host = .ok roles host₁ ∧
        Opened data roles host.disk ∧
        Turned data roles.records (c.Confuses roles host₁) host'.disk)
      fun _ host' => SameRoles data host.disk host'.disk := by
  apply (leads_bind _ _).2
  apply ((leads_self (openRoles data) host).and (leads_openStore _)).mono
  · rintro roles host₁ ⟨hopen, hopened, hkept⟩
    have hsame : SameRoles data host.disk host₁.disk := hkept.content?_eq
    have hbefore : Opened data roles host.disk :=
      ⟨hopened.index, hopened.holds.of_content?_eq hsame.symm⟩
    have hd : Distinct roles.records := by
      obtain ⟨loaded, hholds, hd⟩ := hs
      obtain rfl := hholds.unique hbefore.holds
      exact hd
    have hrest {a : CommandM Answer} (ha : Leads a host₁
        (fun _ host' => Turned data roles.records (c.Confuses roles host₁) host'.disk)
        fun _ host' => SameRoles data host₁.disk host'.disk) : Leads a host₁
        (fun _ host' => ∃ roles host₁, openRoles data host = .ok roles host₁ ∧
          Opened data roles host.disk ∧
          Turned data roles.records (c.Confuses roles host₁) host'.disk)
        fun _ host' => SameRoles data host.disk host'.disk :=
      ha.mono (fun _ _ h => ⟨roles, host₁, hopen, hbefore, h⟩) fun _ _ h => h.trans hsame
    apply hrest
    cases c with
    | list => exact turned_of_same rfl hopened hd
    | add draft =>
      apply (leads_bind _ _).2
      exact (leads_during _ _).2 (leads_addRole_turned draft hopened hd)
    | edit key patch =>
      apply (leads_bind _ _).2
      exact (leads_during _ _).2 (leads_editRole_turned key patch hopened hd)
    | remove key =>
      apply (leads_bind _ _).2
      apply (leads_openStore (R := Work) _).mono
      · rintro works host₂ ⟨-, hworks⟩
        have hsame₂ : SameRoles data host₁.disk host₂.disk := hworks.content?_eq_of_entity
        apply (leads_bind _ _).2
        apply (leads_during _ _).2
        apply (leads_removeRole_turned key (hopened.untouched hworks) hd).mono
        · intro _ _ h
          exact h
        · intro _ _ h
          exact h.trans hsame₂
      · intro _ _ hworks
        exact hworks.content?_eq_of_entity
  · rintro _ _ ⟨-, hkept⟩
    exact hkept.content?_eq

/-! ### Requests -/

variable {data' : Location} {d d' : Disk}

theorem Stored.congr (h : Stored data d) (hpath : data'.path = data.path) : Stored data' d := by
  obtain ⟨loaded, hholds, hd⟩ := h
  exact ⟨loaded, (holds_iff_of_path_eq hpath).2 hholds, hd⟩

theorem Told.congr (h : Told data d) (hpath : data'.path = data.path) : Told data' d := by
  obtain ⟨loaded, hholds, hn⟩ := h
  exact ⟨loaded, (holds_iff_of_path_eq hpath).2 hholds, hn⟩

theorem Stored.same (h : Stored data d) (hd : SameRoles data d d') : Stored data d' := by
  obtain ⟨loaded, hholds, hdistinct⟩ := h
  exact ⟨loaded, hholds.of_content?_eq hd, hdistinct⟩

theorem Told.same (h : Told data d) (hd : SameRoles data d d') : Told data d' := by
  obtain ⟨loaded, hholds, hn⟩ := h
  exact ⟨loaded, hholds.of_content?_eq hd, hn⟩

theorem Turned.stored {bad : Prop} (h : Turned data roles.records bad d) : Stored data d := by
  obtain ⟨after, hholds, hd, -⟩ := h
  exact ⟨after, hholds, hd⟩

theorem Turned.told_iff {bad : Prop} (h : Turned data roles.records bad d')
    (hroles : Opened data roles d) (ht : Told data d) : Told data d' ↔ ¬ bad := by
  obtain ⟨loaded, hbefore, hn⟩ := ht
  obtain rfl := hbefore.unique hroles.holds
  obtain ⟨after, hafter, -, hiff⟩ := h
  rw [← hiff hn]
  constructor
  · rintro ⟨loaded', hholds, hn'⟩
    obtain rfl := hholds.unique hafter
    exact hn'
  · intro hn'
    exact ⟨after, hafter, hn'⟩

theorem Confuses.not_told (h : Confuses data host host') (hs : Stored data host.disk)
    (ht : Told data host.disk) : ¬ Told data host'.disk := by
  obtain ⟨found, c, roles, host₁, answer, hpath, hopen, hrun, hbad⟩ := h
  obtain ⟨roles', host₁', hopen', hroles, hturned⟩ :=
    (leads_runRole_turned c (hs.congr hpath)).of_ok hrun
  cases hopen.symm.trans hopen'
  intro ht'
  exact (hturned.told_iff hroles (ht.congr hpath)).1 (ht'.congr hpath) hbad

theorem Turn.stored (h : Turn data host host') (hs : Stored data host.disk) :
    Stored data host'.disk := by
  cases h with
  | outside same => exact hs.same same
  | @request s format r c asked located =>
    apply runRequest_snd s format r (P := fun host' => Stored data host'.disk)
    apply (leads_bind _ _).2
    apply (leads_dataDirectory s r.dataDir).mono
    · rintro found _ ⟨hfound, rfl⟩
      have hpath := located found _ hfound
      rw [asked]
      apply (leads_runRole_turned c (hs.congr hpath)).mono
      · rintro _ _ ⟨_, _, -, -, hturned⟩
        exact hturned.stored.congr hpath.symm
      · intro _ _ hsame
        exact ((hs.congr hpath).same hsame).congr hpath.symm
    · rintro _ _ rfl
      exact hs

theorem Turn.told_or_confuses (h : Turn data host host') (hs : Stored data host.disk)
    (ht : Told data host.disk) : Told data host'.disk ∨ Confuses data host host' := by
  cases h with
  | outside same => exact Or.inl (ht.same same)
  | @request s format r c asked located =>
    apply runRequest_snd s format r
      (P := fun host' => Told data host'.disk ∨ Confuses data host host')
    apply (leads_bind _ _).2
    apply (leads_dataDirectory s r.dataDir).mono
    · rintro found _ ⟨hfound, rfl⟩
      have hpath := located found _ hfound
      rw [asked]
      apply ((leads_self (runRole found c) _).and (leads_runRole_turned c (hs.congr hpath))).mono
      · rintro answer host' ⟨hrun, roles, host₁, hopen, hroles, hturned⟩
        by_cases hbad : c.Confuses roles host₁
        · exact Or.inr ⟨found, c, roles, host₁, answer, hpath, hopen, hrun, hbad⟩
        · have ht' := (hturned.told_iff hroles (ht.congr hpath)).2 hbad
          exact Or.inl (ht'.congr hpath.symm)
      · rintro _ _ ⟨-, hsame⟩
        exact Or.inl (((ht.congr hpath).same hsame).congr hpath.symm)
    · rintro _ _ rfl
      exact Or.inl ht

theorem Turn.stored_and_told_iff (h : Turn data host host') (hs : Stored data host.disk)
    (ht : Told data host.disk) :
    Stored data host'.disk ∧ (Told data host'.disk ↔ ¬ Confuses data host host') := by
  refine ⟨h.stored hs, ?_⟩
  constructor
  · intro ht' hconfuses
    exact hconfuses.not_told hs ht ht'
  · exact (h.told_or_confuses hs ht).resolve_right

/-! ### Runs -/

theorem stored_of_missing
    (hmissing : host.disk.content? (Index.ofData Role data).file.path = none) :
    Stored data host.disk ∧ Told data host.disk := by
  have hholds := Index.Holds.of_missing (R := Role) hmissing
  exact ⟨⟨_, hholds, List.nodup_nil⟩, ⟨_, hholds, fun _ hr => nomatch hr⟩⟩

theorem stored_of_run {later : List Host} (hs : Stored data host.disk)
    (hrun : (host :: later).IsChain (Turn data)) : ∀ h ∈ host :: later, Stored data h.disk := by
  apply hrun.induction (fun h => Stored data h.disk)
  · intro _ _ hturn hs
    exact hturn.stored hs
  · intro _
    exact hs

theorem told_iff_finds (hs : Stored data d) (hroles : Opened data roles d) :
    Told data d ↔ Finds roles := by
  obtain ⟨loaded, hholds, hd⟩ := hs
  obtain rfl := hholds.unique hroles.holds
  rw [← identified_iff_finds hd]
  constructor
  · rintro ⟨loaded', hholds', hn⟩
    obtain rfl := hholds'.unique hroles.holds
    exact hn
  · intro hn
    exact ⟨_, hroles.holds, hn⟩

/-- After every command of a run on a data directory without roles, the roles have ids of their
own, and each is told by its name exactly if looking it up by its id or by its name gives it. All
are told by their names throughout, exactly as long as no command gives a role a name that belongs
to another, or makes one under an id that is the name of another. -/
theorem told_iff_no_command_confuses {later : List Host}
    (hmissing : host.disk.content? (Index.ofData Role data).file.path = none)
    (hrun : (host :: later).IsChain (Turn data)) :
    (∀ h ∈ host :: later, Stored data h.disk ∧ ∀ roles : Store Role, Opened data roles h.disk →
      (Told data h.disk ↔ Finds roles)) ∧
    ((∀ h ∈ host :: later, Told data h.disk) ↔
      (host :: later).IsChain fun h h' => ¬ Confuses data h h') := by
  obtain ⟨hstored, htold⟩ := stored_of_missing hmissing
  constructor
  · intro h hh
    have hs := stored_of_run hstored hrun h hh
    exact ⟨hs, fun _ hroles => told_iff_finds hs hroles⟩
  · exact Work.forall_iff_isChain_not (fun hturn hs ht => hturn.stored_and_told_iff hs ht)
      later host hstored htold hrun

theorem turn_of_runRole {c : RoleCommand} {answer : Answer}
    (hrun : runRole ⟨["d"], "/d"⟩ c host = .ok answer host') :
    Turn ⟨["d"], "/d"⟩ host host' := by
  obtain ⟨s, format, r, hasked, hlocated, rfl⟩ :=
    exists_request_of_runCommand (c := .role c) hrun
  exact .request hasked hlocated

theorem Ready.told {rs : List Role} (h : Ready data rs host) (hn : Identified rs) :
    Told data host.disk := by
  obtain ⟨digest, hholds⟩ := h.holds
  exact ⟨_, hholds, hn⟩

/-- Two roles are made, and the second is given the name of the first. -/
private theorem exists_renaming_run : ∃ (data : Location) (host h₁ h₂ h₃ : Host),
    host.disk.content? (Index.ofData Role data).file.path = none ∧
    [host, h₁, h₂, h₃].IsChain (Turn data) ∧ (∀ h ∈ [host, h₁, h₂], Told data h.disk) ∧
    ¬ Told data h₃.disk := by
  let data : Location := ⟨["d"], "/d"⟩
  let host : Host := { ids := fun n => if n = 0 then "r" else "s", times := fun _ => .epoch }
  have hempty : Ready data [] host := ready_empty data rfl
  obtain ⟨a₁, h₁, hfirst, hsupply, t₁, hready₁⟩ := hempty.exists_add { name := "a" }
    (by simp) (by simp) rfl
  have hnext : h₁.nextId = "s" := by
    change h₁.supply.1 h₁.supply.2 = "s"
    rw [hsupply]
    rfl
  let a : Role := .ofDraft "r" t₁.toStamp { name := "a" }
  have hready₁ : Ready data [a] h₁ := hready₁
  obtain ⟨a₂, h₂, hsecond, -, t₂, hready₂⟩ := hready₁.exists_add { name := "b" }
    (by simp [a, Role.ofDraft]) (by simp [hnext, a, Role.ofDraft]) rfl
  let b : Role := .ofDraft "s" t₂.toStamp { name := "b" }
  rw [hnext] at hready₂
  have hready₂ : Ready data [a, b] h₂ := hready₂
  have hd : Distinct [a, b] := by
    change ["r", "s"].Nodup
    decide
  have hb : b ∈ [a, b] := List.mem_cons_of_mem _ List.mem_cons_self
  obtain ⟨a₃, h₃, hthird⟩ := hready₂.exists_edit hd hb "a" rfl
  have htold₂ : Told data h₂.disk := hready₂.told (by simp [Identified, a, b, Role.ofDraft])
  have hconfuses : Confuses data h₂ h₃ := by
    obtain ⟨roles, disk, hopen, hroles, -⟩ := hready₂.exists_open
    have hfound : findRole? roles b.id = some b :=
      findRole?_id (hroles ▸ hd) (hroles ▸ List.mem_cons_of_mem _ List.mem_cons_self)
    exact ⟨data, _, roles, _, a₃, rfl, hopen, hthird, b, "a", hfound, rfl, a, by simp [hroles],
      by simp [a, b, Role.ofDraft], Or.inl rfl⟩
  have hstored₂ : Stored data h₂.disk := by
    obtain ⟨digest, hholds⟩ := hready₂.holds
    exact ⟨_, hholds, hd⟩
  refine ⟨data, host, h₁, h₂, h₃, rfl, ?_, ?_, hconfuses.not_told hstored₂ htold₂⟩
  · exact .cons_cons (turn_of_runRole hfirst) (.cons_cons (turn_of_runRole hsecond)
      (.cons_cons (turn_of_runRole hthird) (.singleton _)))
  · simp only [List.forall_mem_cons]
    exact ⟨hempty.told (by simp [Identified]), hready₁.told (by simp [Identified]), htold₂,
      List.forall_mem_nil _⟩

/-- Two roles are made under names of their own. -/
theorem told_iff_no_command_confuses_made : ∃ (data : Location) (host h₁ h₂ : Host),
    host.disk.content? (Index.ofData Role data).file.path = none ∧
    [host, h₁, h₂].IsChain (Turn data) ∧ [host, h₁, h₂].IsChain (fun h h' => ¬ Confuses data h h') ∧
    ∀ h ∈ [host, h₁, h₂], Told data h.disk := by
  obtain ⟨data, host, h₁, h₂, h₃, hmissing, hrun, htold, -⟩ := exists_renaming_run
  have hrun₂ : [host, h₁, h₂].IsChain (Turn data) := by
    simp only [List.isChain_cons_cons] at hrun ⊢
    exact ⟨hrun.1, hrun.2.1, .singleton _⟩
  exact ⟨data, host, h₁, h₂, hmissing, hrun₂,
    (told_iff_no_command_confuses hmissing hrun₂).2.1 htold, htold⟩

/-- A role that is given the name of another is no longer told by its own. -/
theorem renaming_confuses_roles : ¬ ∀ (data : Location) (host : Host) (later : List Host),
    host.disk.content? (Index.ofData Role data).file.path = none →
    (host :: later).IsChain (Turn data) → ∀ h ∈ host :: later, Told data h.disk := by
  intro h
  obtain ⟨data, host, h₁, h₂, h₃, hmissing, hrun, -, hconfused⟩ := exists_renaming_run
  exact hconfused (h data host _ hmissing hrun h₃ (by simp))

end WorkQueue.Cli
