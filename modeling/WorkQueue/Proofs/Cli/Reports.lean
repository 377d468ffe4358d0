import WorkQueue.Proofs.Cli.Names
import WorkQueue.Proofs.Work.Answers

/-!
# What commands report

A command that fails has done nothing, as long as the system refuses nothing: what it checks goes
before the one call that writes, and a call that is refused writes nothing. That a cascade is not
refused midway rests on all items being valid, which every command keeps. A command that succeeds
shows the record as it then is on disk, or as it last was where the record is deleted.
-/

namespace WorkQueue.Cli

open Record (Distinct find?)
open Store (Desk Idle)
open Work (Sound Tended)

variable {R : Type} [Record R] {data data' : Location} {d d' before before' after after' : Disk}

/-! ### What is on disk -/

/-- Every index file of the one place has the content that it has in the other. -/
def Alike (data : Location) (d : Disk) (data' : Location) (d' : Disk) : Prop :=
  ∀ e : Entity, d'.content? (Index.ofData e.Rec data').file.path =
    d.content? (Index.ofData e.Rec data).file.path

/-- All five index files are as they were. -/
def Unchanged (data : Location) (d d' : Disk) : Prop := Alike data d data d'

/-- What is on disk under an id, if anything. -/
def Has (data : Location) (d : Disk) (id : String) (value? : Option R) : Prop :=
  ∃ loaded : Index.Loaded R, (Index.ofData R data).Holds d loaded ∧ find? loaded.records id = value?

/-- What a change tells of its record, before and after, is what was and is on disk. -/
structure Shows (data : Location) (before after : Disk) (c : Change R) : Prop where
  before : Has data before c.id c.before?
  after : Has data after c.id c.value?

/-- The change of an item that a command is for. -/
def WorkCommand.Asks : WorkCommand → Change Work → Prop
  | .add _, .created _ => True
  | .edit id _, .updated (some _) w => w.id = id
  | .done id, .updated (some _) w => w.id = id
  | .close id, .updated (some _) w => w.id = id
  | .remove id, .deleted w => w.id = id
  | _, _ => False

/-- The change of a role that a command is for, which may name the role. -/
def RoleCommand.Asks (roles : Store Role) : RoleCommand → Change Role → Prop
  | .add _, .created _ => True
  | .edit key _, .updated (some role) _ => findRole? roles key = some role
  | .remove key, .deleted role => findRole? roles key = some role
  | _, _ => False

/-- A command for a change of a record has made that change on disk and shows the record. -/
def Reports (data : Location) (before after : Disk) : Command → Json → Prop
  | .work (.list _), _ | .work (.show _), _ | .role .list, _ | .autorun _, _ => True
  | .work c, j => ∃ change : Change Work, c.Asks change ∧ Shows data before after change ∧
      j = Record.shown change.record
  | .role c, j => ∃ (roles : Store Role) (change : Change Role),
      (Index.ofData Role data).Holds before ⟨roles.records, roles.digest⟩ ∧
      c.Asks roles change ∧ Shows data before after change ∧ j = Record.shown change.record

/-- The state of the disk between commands: references lead somewhere, items are valid, and ids are
distinct. -/
structure Tidy (data : Location) (d : Disk) : Prop where
  whole : Whole data d
  works : ∃ loaded : Index.Loaded Work, (Index.ofData Work data).Holds d loaded ∧
    Sound loaded.records
  roles : Stored data d

def Cause.IsIo : Cause → Prop
  | .store e => e.IsIo
  | _ => False

instance (c : Cause) : Decidable c.IsIo := by
  cases c <;> unfold Cause.IsIo <;> infer_instance

/-- The failure comes from something that the system refused. -/
def Failure.IsIo (f : Failure) : Prop := ∃ c ∈ f, c.IsIo

instance (f : Failure) : Decidable f.IsIo := inferInstanceAs (Decidable (∃ c ∈ f, c.IsIo))

/-- What an answered command leaves. -/
def Carried (data : Location) (before : Disk) (c : Command) (a : Answer) (host : Host) : Prop :=
  Tidy data host.disk ∧ Reports data before host.disk c a.json

/-- What a failed command leaves. -/
def Refused (data : Location) (before : Disk) (f : Failure) (host : Host) : Prop :=
  Unchanged data before host.disk ∨ f.IsIo ∧ Tidy data host.disk

/-- A request up to its report. -/
def carryOut (s : Surroundings) (r : Request) : CommandM Answer := do
  runCommand (← dataDirectory s r.dataDir) r.command

/-! ### The same content -/

theorem holds_iff (h : d'.content? (Index.ofData R data').file.path =
    d.content? (Index.ofData R data).file.path) {loaded : Index.Loaded R} :
    (Index.ofData R data').Holds d' loaded ↔ (Index.ofData R data).Holds d loaded := by
  unfold Index.Holds
  rw [h]

theorem alike_of_path_eq (h : data'.path = data.path) : Alike data d data' d :=
  fun e => congrArg d.content? (file_path_congr (R := e.Rec) h)

theorem Alike.symm (h : Alike data d data' d') : Alike data' d' data d := fun e => (h e).symm

theorem Unchanged.refl : Unchanged data d d := fun _ => rfl

theorem Unchanged.trans {d'' : Disk} (h : Unchanged data d d') (h' : Unchanged data d' d'') :
    Unchanged data d d'' := fun e => (h' e).trans (h e)

theorem unchanged_of_untouched (h : (Index.ofData R data).Untouched d d') : Unchanged data d d' :=
  fun e => h.content?_eq_of_entity (R := e.Rec)

theorem Unchanged.congr (h : Unchanged data d d') (hpath : data'.path = data.path) :
    Unchanged data' d d' := by
  intro e
  rw [alike_of_path_eq hpath e, alike_of_path_eq hpath e]
  exact h e

theorem Has.congr {id : String} {value? : Option R} (h : Has data d id value?)
    (hc : d'.content? (Index.ofData R data').file.path =
      d.content? (Index.ofData R data).file.path) : Has data' d' id value? := by
  obtain ⟨loaded, hholds, hfound⟩ := h
  exact ⟨loaded, (holds_iff hc).2 hholds, hfound⟩

theorem Reports.congr {c : Command} {j : Json} (h : Reports data before after c j)
    (hb : Alike data before data' before') (ha : Alike data after data' after') :
    Reports data' before' after' c j := by
  have hwork {change : Change Work} (hs : Shows data before after change) :
      Shows data' before' after' change := ⟨hs.before.congr (hb .work), hs.after.congr (ha .work)⟩
  have hrole {change : Change Role} (hs : Shows data before after change) :
      Shows data' before' after' change := ⟨hs.before.congr (hb .role), hs.after.congr (ha .role)⟩
  have hroles {loaded : Index.Loaded Role} (hl : (Index.ofData Role data).Holds before loaded) :
      (Index.ofData Role data').Holds before' loaded := (holds_iff (hb .role)).2 hl
  cases c with
  | autorun c => trivial
  | work c =>
    cases c with
    | list | «show» => trivial
    | add | edit | done | close | remove =>
      obtain ⟨change, hasks, hshows, hj⟩ := h
      exact ⟨change, hasks, hwork hshows, hj⟩
  | role c =>
    cases c with
    | list => trivial
    | add | edit | remove =>
      obtain ⟨roles, change, hholds, hasks, hshows, hj⟩ := h
      exact ⟨roles, change, hroles hholds, hasks, hrole hshows, hj⟩

theorem Tidy.congr (h : Tidy data d)
    (hworks : d'.content? (Index.ofData Work data').file.path =
      d.content? (Index.ofData Work data).file.path)
    (hroles : d'.content? (Index.ofData Role data').file.path =
      d.content? (Index.ofData Role data).file.path) : Tidy data' d' := by
  obtain ⟨⟨works, roles, hw, hr, hresolved⟩, ⟨_, hsound⟩, ⟨_, hdistinct⟩⟩ := h
  exact ⟨⟨works, roles, (holds_iff hworks).2 hw, (holds_iff hroles).2 hr, hresolved⟩,
    ⟨_, (holds_iff hworks).2 hsound.1, hsound.2⟩,
    ⟨_, (holds_iff hroles).2 hdistinct.1, hdistinct.2⟩⟩

theorem Tidy.alike (h : Tidy data d) (hd : Alike data d data' d') : Tidy data' d' :=
  h.congr (hd .work) (hd .role)

theorem Tidy.unchanged (h : Tidy data d) (hd : Unchanged data d d') : Tidy data d' := h.alike hd

theorem tidy_of_missing (hworks : d.content? (Index.ofData Work data).file.path = none)
    (hroles : d.content? (Index.ofData Role data).file.path = none) : Tidy data d where
  whole := ⟨_, _, .of_missing hworks, .of_missing hroles, Work.resolved_nil []⟩
  works := ⟨_, .of_missing hworks, Work.sound_nil⟩
  roles := ⟨_, .of_missing hroles, List.nodup_nil⟩

variable {host host' : Host} {works : Store Work} {roles : Store Role} {f : Failure} {c : Command}

theorem Tidy.sound (h : Tidy data d) (hworks : Opened data works d) : Sound works.records := by
  obtain ⟨loaded, hholds, hs⟩ := h.works
  obtain rfl := hholds.unique hworks.holds
  exact hs

theorem Tidy.distinct (h : Tidy data d) (hroles : Opened data roles d) :
    Distinct roles.records := by
  obtain ⟨loaded, hholds, hd⟩ := h.roles
  obtain rfl := hholds.unique hroles.holds
  exact hd

/-! ### Failures -/

theorem Refused.within (h : Refused data d f host') (context : String) :
    Refused data d (f.within context) host' := by
  apply h.imp_right
  rintro ⟨⟨cause, hcause, hio⟩, htidy⟩
  exact ⟨⟨cause, List.mem_cons_of_mem _ hcause, hio⟩, htidy⟩

theorem Refused.of_unchanged (h : Refused data d' f host') (hd : Unchanged data d d') :
    Refused data d f host' := h.imp_left hd.trans

theorem Refused.tidy (h : Refused data d f host') (hd : Tidy data d) : Tidy data host'.disk := by
  rcases h with hsame | ⟨-, htidy⟩
  · exact hd.unchanged hsame
  · exact htidy

theorem Refused.congr (h : Refused data d f host') (hpath : data'.path = data.path) :
    Refused data' d f host' :=
  h.imp (fun hsame => hsame.congr hpath) fun hio =>
    ⟨hio.1, hio.2.alike (alike_of_path_eq hpath)⟩

theorem Carried.of_unchanged {a : Answer} (h : Carried data d' c a host')
    (hd : Unchanged data d d') : Carried data d c a host' :=
  ⟨h.1, h.2.congr (Alike.symm hd) fun _ => rfl⟩

theorem Carried.congr {a : Answer} (h : Carried data d c a host') (hpath : data'.path = data.path) :
    Carried data' d c a host' :=
  ⟨h.1.alike (alike_of_path_eq hpath), h.2.congr (alike_of_path_eq hpath) (alike_of_path_eq hpath)⟩

theorem refused_of_rested {s : Store R} (hindex : s.index = Index.ofData R data)
    (h : Rested s host host') : Refused data host.disk f host' :=
  Or.inl (unchanged_of_untouched (h.untouched hindex))

theorem exit_ofCode_ne_success (code : String) : ExitStatus.ofCode code ≠ .success := by
  unfold ExitStatus.ofCode
  split_ifs <;> simp

theorem Failure.exit_ne_success (f : Failure) : f.exit ≠ .success := by
  unfold Failure.exit
  cases hexit : f.findSome? Cause.exit? with
  | none => simp
  | some status =>
    obtain ⟨c, -, hc⟩ := List.exists_of_findSome?_eq_some hexit
    cases c with
    | note => cases hc
    | store e => exact Option.some.inj hc ▸ exit_ofCode_ne_success e.code
    | validation => cases hc; nofun
    | usage => cases hc; nofun

/-! ### Steps of commands -/

/-- What shows its record, answers with that. -/
theorem leads_during_reported {context : String} {a : CommandM R} {answer : R → Answer}
    (hanswer : ∀ r, (answer r).json = Record.shown r)
    (ha : Leads a host
      (fun r host' => ∀ a : Answer, a.json = Record.shown r → Carried data d c a host')
      (Refused data d)) :
    Leads (do return answer (← during context a)) host (Carried data d c) (Refused data d) := by
  apply (leads_bind _ _).2
  apply (leads_during _ _).2
  apply ha.mono
  · intro r host' hcarried
    exact hcarried _ (hanswer r)
  · intro f host' hrefused
    exact hrefused.within context

/-- What goes on with a store that was opened, before which nothing was changed. -/
theorem Tidy.leads_open_bind {context : String} {f : Store R → CommandM Answer} {c : Command}
    (h : Tidy data host.disk) (hf : ∀ s host', Tidy data host'.disk → Opened data s host'.disk →
      (Index.ofData R data).Untouched host.disk host'.disk →
      Leads (f s) host' (Carried data host'.disk c) (Refused data host'.disk)) :
    Leads (openStore R data context >>= f) host (Carried data host.disk c)
      (Refused data host.disk) := by
  apply (leads_bind _ _).2
  apply (leads_openStore context).mono
  · rintro s host' ⟨hopened, hkept⟩
    have hsame : Unchanged data host.disk host'.disk := unchanged_of_untouched hkept
    apply (hf s host' (h.unchanged hsame) hopened hkept).mono
    · intro _ _ hcarried
      exact hcarried.of_unchanged hsame
    · intro _ _ hrefused
      exact hrefused.of_unchanged hsame
  · intro _ _ hkept
    exact Or.inl (unchanged_of_untouched hkept)

/-! ### Roles -/

theorem Tidy.roles_wrote {change : Change Role} (h : Tidy data host.disk)
    (hroles : Opened data roles host.disk) (hwrote : Wrote roles host change host')
    (hkept : ∀ removed, change = .deleted removed → ∀ works : Index.Loaded Work,
      (Index.ofData Work data).Holds host.disk works → ∀ w ∈ works.records,
        w.status = .open ∨ w.status = .inProgress → w.roleId ≠ some removed.id) :
    Tidy data host'.disk ∧ Shows data host.disk host'.disk change := by
  have hd : Distinct roles.records := h.distinct hroles
  have hwhole : Whole data host'.disk := h.whole.roles_wrote hroles hwrote hkept
  have hbefore := (hwrote.legal hd).eq_before?
  obtain ⟨works, hworks, hsound⟩ := h.works
  obtain ⟨desk, hedited, rfl⟩ := hwrote
  have hdisk := hedited.committed.disk
  have hholds := hedited.holds hroles.holds.allRegular
  simp only [hroles.index] at hdisk hholds
  have hworks' := hworks.of_content?_eq (hdisk.content?_eq (R := Work) (by decide))
  have hroles' : Stored data desk.host.disk := ⟨_, hholds, hedited.edit.distinct hd⟩
  have htidy : Tidy data desk.host.disk := ⟨hwhole, ⟨works, hworks', hsound⟩, hroles'⟩
  exact ⟨htidy, ⟨_, hroles.holds, hbefore⟩, ⟨_, hholds, hedited.edit.find?_id hd⟩⟩

theorem leads_runRole_reported (c : RoleCommand) (h : Tidy data host.disk) :
    Leads (runRole data c) host (Carried data host.disk (.role c)) (Refused data host.disk) := by
  apply h.leads_open_bind
  intro roles host₁ h₁ hroles _
  have hd : Distinct roles.records := h₁.distinct hroles
  cases c with
  | list => exact ⟨h₁, trivial⟩
  | add draft =>
    apply leads_during_reported fun _ => rfl
    apply (leads_addRole draft).mono
    · rintro r host₂ ⟨-, -, -, hwrote⟩ a ha
      obtain ⟨htidy, hshows⟩ := h₁.roles_wrote hroles hwrote fun _ hdeleted => nomatch hdeleted
      exact ⟨htidy, roles, .created r, hroles.holds, trivial, hshows, ha⟩
    · intro f host₂ hrested
      exact refused_of_rested hroles.index hrested
  | edit key patch =>
    apply leads_during_reported fun _ => rfl
    apply (leads_editRole key patch).mono
    · rintro r host₂ ⟨role, previous, hfound, hid, -, -, hwrote⟩ a ha
      obtain rfl := hwrote.eq_of_findRole? hd rfl hfound hid
      obtain ⟨htidy, hshows⟩ := h₁.roles_wrote hroles hwrote fun _ hdeleted => nomatch hdeleted
      exact ⟨htidy, roles, .updated (some previous) r, hroles.holds, hfound, hshows, ha⟩
    · intro f host₂ hrested
      exact refused_of_rested hroles.index hrested
  | remove key =>
    apply h₁.leads_open_bind
    intro works host₂ h₂ hworks hkept
    have hroles₂ := hroles.untouched hkept
    apply leads_during_reported fun _ => rfl
    apply (leads_removeRole key).mono
    · rintro r host₃ ⟨⟨role, hfound, hid⟩, hwrote, hunused⟩ a ha
      obtain rfl := hwrote.eq_of_findRole? hd rfl hfound hid
      have hafter : Tidy data host₃.disk ∧ Shows data host₂.disk host₃.disk (.deleted r) := by
        apply h₂.roles_wrote hroles₂ hwrote
        rintro _ ⟨⟩ loaded hloaded
        obtain rfl := hloaded.unique hworks.holds
        exact hunused
      exact ⟨hafter.1, roles, .deleted r, hroles₂.holds, hfound, hafter.2, ha⟩
    · intro f host₃ hrested
      exact refused_of_rested hroles.index hrested

/-! ### Work items -/

/-- In memory, too, the change is one that the command is for. -/
def WorkCommand.Made (c : WorkCommand) (works works' : List Work) (w : Work) : Prop :=
  ∃ change : Change Work, c.Asks change ∧ change.record = w ∧
    find? works change.id = change.before? ∧ find? works' change.id = change.value?

theorem WorkCommand.made_of_edit {c : WorkCommand} {works works' : List Work}
    {change : Change Work} (hasks : c.Asks change) (hedit : Store.Edit works works' change)
    (hd : Distinct works) : c.Made works works' change.record :=
  ⟨change, hasks, rfl, (hedit.legal hd).eq_before?, hedit.find?_id hd⟩

theorem reports_of_asks {c : WorkCommand} {change : Change Work} (hasks : c.Asks change)
    (hshows : Shows data before after change) :
    Reports data before after (.work c) (Record.shown change.record) := by
  cases c with
  | list => exact hasks.elim
  | «show» => exact hasks.elim
  | add | edit | done | close | remove => exact ⟨change, hasks, hshows, rfl⟩

theorem leads_run_reported {c : WorkCommand} {q : Work.Request} {loaded : Index.Loaded Role}
    (h : Tidy data host.disk) (htended : Tended data loaded ⟨works, host, []⟩)
    (hkeeps : Leads q.run ⟨works, host, []⟩ (fun _ desk => Tended data loaded desk)
      fun _ desk => Tended data loaded desk)
    (hmade : Leads q.run ⟨works, host, []⟩
      (fun w desk => c.Made works.records desk.store.records w)
      fun e desk => Idle ⟨works, host, []⟩ desk ∨ e.IsIo) :
    Leads (run works q.run) host
      (fun w host' => ∀ a : Answer, a.json = Record.shown w →
        Carried data host.disk (.work c) a host')
      (Refused data host.disk) := by
  have hworks : Opened data works host.disk := ⟨htended.index, htended.works⟩
  have hs : Sound works.records := h.sound hworks
  have hd : Distinct loaded.records := by
    obtain ⟨loaded', hloaded, hd⟩ := h.roles
    obtain rfl := hloaded.unique htended.roles
    exact hd
  have htidy {desk : Desk Work} (ht : Tended data loaded desk)
      (hp : Work.Performed q ⟨works, host, []⟩ desk) : Tidy data desk.host.disk :=
    ⟨whole_of_tended ht, ⟨_, ht.works, hp.sound hs⟩, ⟨_, ht.roles, hd⟩⟩
  apply (leads_run _ _).2
  apply ((hkeeps.and q.leads_performed).and hmade).mono
  · rintro w desk ⟨⟨ht, hp⟩, change, hasks, rfl, hbefore, hafter⟩ a ha
    have hshows : Shows data host.disk desk.host.disk change :=
      ⟨⟨_, hworks.holds, hbefore⟩, ⟨_, ht.works, hafter⟩⟩
    exact ⟨htidy ht hp, ha ▸ reports_of_asks hasks hshows⟩
  · rintro e desk ⟨⟨ht, hp⟩, hidle | hio⟩
    · exact refused_of_rested hworks.index ⟨desk, hidle, rfl⟩
    · exact Or.inr ⟨⟨.store e, List.mem_singleton_self _, hio⟩, htidy ht hp⟩

theorem leads_create_made {c : WorkCommand} (hc : ∀ w, c.Asks (.created w)) (draft : Work.Draft)
    {desk : Desk Work} (hd : Distinct desk.store.records) : Leads (Work.create draft) desk
      (fun w desk' => c.Made desk.store.records desk'.store.records w)
      fun e desk' => Idle desk desk' ∨ e.IsIo := by
  apply (Work.leads_create_made draft).mono
  · intro w desk' hmade
    rw [hmade.committed.records_eq]
    exact WorkCommand.made_of_edit (hc w) hmade.edit hd
  · intro _ _ hidle
    exact Or.inl hidle

theorem leads_delete_made {c : WorkCommand} {id : String}
    (hc : ∀ w : Work, w.id = id → c.Asks (.deleted w)) {desk : Desk Work}
    (hd : Distinct desk.store.records) : Leads (Work.delete id) desk
      (fun w desk' => c.Made desk.store.records desk'.store.records w)
      fun e desk' => Idle desk desk' ∨ e.IsIo := by
  apply (Store.leads_delete_edited (R := Work) id).mono
  · rintro w desk' ⟨hid, hedited⟩
    exact WorkCommand.made_of_edit (hc w hid) hedited.edit hd
  · intro _ _ hidle
    exact Or.inl hidle

/-- Whatever has closed with it, the item is answered as it is kept. -/
theorem leads_update_made {c : WorkCommand} {id : String}
    (hc : ∀ previous w : Work, w.id = id → c.Asks (.updated (some previous) w)) (p : Work.Patch)
    {desk : Desk Work} (hs : Sound desk.store.records) : Leads (Work.update id p) desk
      (fun w desk' => c.Made desk.store.records desk'.store.records w)
      fun e desk' => Idle desk desk' ∨ e.IsIo := by
  apply (Work.leads_update_answered id p hs.valid).imp
  rintro w desk' ⟨⟨previous, hprevious⟩, rfl, hfound⟩
  exact ⟨.updated (some previous) w, hc previous w rfl, rfl, hprevious, hfound⟩

theorem leads_runWork_reported (c : WorkCommand) (h : Tidy data host.disk) :
    Leads (runWork data c) host (Carried data host.disk (.work c)) (Refused data host.disk) := by
  apply h.leads_open_bind
  intro works host₁ h₁ hworks _
  have hs : Sound works.records := h₁.sound hworks
  have hpatch {c : WorkCommand} {id : String} {p : Work.Patch} (hrole : p.roleId = none)
      (hc : ∀ previous w : Work, w.id = id → c.Asks (.updated (some previous) w)) :
      Leads (run works (Work.update id p)) host₁
        (fun w host' => ∀ a : Answer, a.json = Record.shown w →
          Carried data host₁.disk (.work c) a host')
        (Refused data host₁.disk) := by
    obtain ⟨loaded, htended⟩ := h₁.whole.exists_tended hworks
    apply leads_run_reported (q := .update id p) h₁ htended
    · apply Work.leads_update_tended id p htended
      intro role hsome
      rw [hrole] at hsome
      cases hsome
    · exact leads_update_made hc p hs
  cases c with
  | list filter => exact ⟨h₁, trivial⟩
  | «show» id =>
    apply h₁.leads_open_bind
    intro roles host₂ h₂ _ _
    unfold detail
    cases works.get? id with
    | none => exact Or.inl .refl
    | some work => exact ⟨h₂, trivial⟩
  | add draft =>
    apply h₁.leads_open_bind
    intro roles host₂ h₂ hroles hkept
    have htended := h₂.whole.tended (hworks.untouched hkept) hroles
    apply leads_during_reported fun _ => rfl
    apply leads_addWork draft fun _ => Or.inl .refl
    intro role? hrole
    apply leads_run_reported (q := .create _) h₂ htended
    · exact Work.leads_create_tended _ htended hrole
    · exact leads_create_made (c := .add draft) (fun _ => trivial) _ hs.distinct
  | edit id patch =>
    apply h₁.leads_open_bind
    intro roles host₂ h₂ hroles hkept
    have htended := h₂.whole.tended (hworks.untouched hkept) hroles
    apply leads_during_reported fun _ => rfl
    apply leads_editWork id patch fun _ => Or.inl .refl
    intro role? hrole
    apply leads_run_reported (q := .update id _) h₂ htended
    · exact Work.leads_update_tended id _ htended hrole
    · exact leads_update_made (c := .edit id patch) (fun _ _ hid => hid) _ hs
  | done id =>
    apply leads_during_reported fun _ => rfl
    exact hpatch (c := .done id) rfl fun _ _ hid => hid
  | close id =>
    apply leads_during_reported fun _ => rfl
    exact hpatch (c := .close id) rfl fun _ _ hid => hid
  | remove id =>
    obtain ⟨loaded, htended⟩ := h₁.whole.exists_tended hworks
    apply leads_during_reported fun _ => rfl
    apply leads_removeWork id fun _ => Or.inl .refl
    intro hchildless
    apply leads_run_reported (q := .delete id) h₁ htended
    · exact Work.leads_delete_tended id htended hchildless
    · exact leads_delete_made (c := .remove id) (fun _ hid => hid) hs.distinct

/-! ### Command lines -/

theorem leads_runAutorun_reported (c : AutorunCommand) (h : Tidy data host.disk) :
    Leads (runAutorun data c) host (Carried data host.disk (.autorun c))
      (Refused data host.disk) := by
  apply h.leads_open_bind
  intro settings host₁ h₁ hsettings _
  apply h₁.leads_open_bind
  intro works host₂ h₂ _ _
  apply (leads_bind _ _).2
  apply (leads_switchAutorun settings c).mono
  · intro _ _ hd
    rw [hsettings.index] at hd
    exact ⟨h₂.congr (hd.content?_eq (by decide)) (hd.content?_eq (by decide)), trivial⟩
  · intro _ _ hd
    rw [hsettings.index] at hd
    exact Or.inl (unchanged_of_untouched hd)

theorem leads_runCommand_reported (c : Command) (h : Tidy data host.disk) :
    Leads (runCommand data c) host (Carried data host.disk c) (Refused data host.disk) := by
  cases c with
  | work c => exact leads_runWork_reported c h
  | role c => exact leads_runRole_reported c h
  | autorun c => exact leads_runAutorun_reported c h

variable {s : Surroundings} {format : Format} {r : Request}

theorem leads_carryOut (h : Tidy data host.disk)
    (located : ∀ found host', dataDirectory s r.dataDir host = .ok found host' →
      found.path = data.path) :
    Leads (carryOut s r) host (Carried data host.disk r.command) (Refused data host.disk) := by
  apply (leads_bind _ _).2
  apply (leads_dataDirectory s r.dataDir).mono
  · rintro found _ ⟨hfound, rfl⟩
    have hpath := located found _ hfound
    apply (leads_runCommand_reported r.command (h.alike (alike_of_path_eq hpath))).mono
    · intro _ _ hcarried
      exact hcarried.congr hpath.symm
    · intro _ _ hrefused
      exact hrefused.congr hpath.symm
  · rintro _ _ rfl
    exact Or.inl .refl

theorem runRequest_of_carryOut {a : Answer} (h : carryOut s r host = .ok a host') :
    runRequest s format r host = (a.report (if r.json then .json else format), host') := by
  simp only [carryOut] at h
  simp only [runRequest, h]

theorem runRequest_of_failure (h : carryOut s r host = .error f host') :
    runRequest s format r host = (f.report (if r.json then .json else format), host') := by
  simp only [carryOut] at h
  simp only [runRequest, h]

theorem Next.tidy (hnext : Next data host host') (h : Tidy data host.disk) :
    Tidy data host'.disk := by
  cases hnext with
  | @request s format r located =>
    apply runRequest_snd s format r (P := fun host' => Tidy data host'.disk)
    apply (leads_carryOut h located).mono
    · intro _ _ hcarried
      exact hcarried.1
    · intro _ _ hrefused
      exact hrefused.tidy h
  | outside works roles => exact h.congr works roles

theorem tidy_of_run {later : List Host} (h : Tidy data host.disk)
    (hrun : (host :: later).IsChain (Next data)) : ∀ h ∈ host :: later, Tidy data h.disk := by
  apply hrun.induction (fun h => Tidy data h.disk)
  · intro _ _ hnext htidy
    exact hnext.tidy htidy
  · intro _
    exact h

theorem number_ne_zero {e : ExitStatus} (h : e ≠ .success) : e.number ≠ 0 := by
  cases e with
  | success => exact absurd rfl h
  | error | usage | notFound | invalidTransition => exact Nat.succ_ne_zero _

/-- Whatever commands have gone before on a data directory without items and roles, a command that
ends in an error changes no index file unless the system refused something. A command that makes,
changes or deletes an item or a role, and succeeds, prints in JSON the record as it is then on disk,
or as it last was where it is deleted. -/
theorem commands_report_what_is_stored {later : List Host}
    (hworks : host.disk.content? (Index.ofData Work data).file.path = none)
    (hroles : host.disk.content? (Index.ofData Role data).file.path = none)
    (hrun : (host :: later).IsChain (Next data)) {h : Host} (hh : h ∈ host :: later)
    (s : Surroundings) (format : Format) (r : Request)
    (located : ∀ found host', dataDirectory s r.dataDir h = .ok found host' →
      found.path = data.path) :
    ((∀ f host', carryOut s r h = .error f host' → ¬ f.IsIo) →
      (runRequest s format r h).1.exit ≠ 0 →
      Unchanged data h.disk (runRequest s format r h).2.disk) ∧
    ((runRequest s format r h).1.exit = 0 → r.json = true ∨ format = .json →
      ∃ j, (runRequest s format r h).1.out = Json.compact j ++ "\n" ∧
        Reports data h.disk (runRequest s format r h).2.disk r.command j) := by
  have htidy := tidy_of_run (tidy_of_missing hworks hroles) hrun h hh
  have hlead := leads_carryOut htidy located
  cases hcarried : carryOut s r h with
  | ok a host' =>
    rw [runRequest_of_carryOut hcarried]
    refine ⟨fun _ hexit => absurd rfl hexit, ?_⟩
    intro _ hjson
    have hformat : (if r.json then .json else format) = Format.json := by
      rcases hjson with hjson | hjson <;> simp [hjson]
    refine ⟨a.json, ?_, (hlead.of_ok hcarried).2⟩
    rw [hformat]
    rfl
  | error f host' =>
    rw [runRequest_of_failure hcarried]
    constructor
    · intro hio _
      rcases hlead.of_error hcarried with hsame | ⟨hfailed, -⟩
      · exact hsame
      · exact absurd hfailed (hio f host' rfl)
    · intro hexit
      exact absurd hexit (number_ne_zero f.exit_ne_success)

theorem carryOut_root (json : Bool) (c : Command) (h : Host) :
    carryOut ⟨⟨["d"], "/d"⟩, none, []⟩ ⟨some "/d", json, c⟩ h = runCommand ⟨["d"], "/d"⟩ c h :=
  bind_of_ok (dataDirectory_root h) _

/-- A role is made, then an item for it; the role is not made again. -/
private theorem exists_made_once : ∃ (host h h₁ h₂ : Host) (a a₁ : Answer) (f : Failure),
    host.disk = {} ∧ runCommand ⟨["d"], "/d"⟩ (.role (.add ⟨"dev", ""⟩)) host = .ok a h ∧
    runCommand ⟨["d"], "/d"⟩ (.work (.add { title := "item", roleId := some "dev" })) h =
      .ok a₁ h₁ ∧
    runCommand ⟨["d"], "/d"⟩ (.role (.add ⟨"dev", ""⟩)) h = .error f h₂ ∧ ¬ f.IsIo := by
  let host : Host := { ids := fun n => if n = 0 then "r" else "w", times := fun _ => .epoch }
  have hrun : (Store.done? (runCommand ⟨["d"], "/d"⟩ (.role (.add ⟨"dev", ""⟩)) host)).map
      (fun a => ((Store.done? (runCommand ⟨["d"], "/d"⟩
        (.work (.add { title := "item", roleId := some "dev" })) a.2)).isSome,
        (Store.failed? (runCommand ⟨["d"], "/d"⟩ (.role (.add ⟨"dev", ""⟩)) a.2)).map
          fun b => decide b.1.IsIo)) = some (true, some false) := by
    decide +kernel
  simp only [Option.map_eq_some_iff, Prod.exists, Prod.mk.injEq, Option.isSome_iff_exists,
    Store.done?_eq_some, Store.failed?_eq_some, decide_eq_false_iff_not] at hrun
  obtain ⟨a, h, hfirst, ⟨a₁, h₁, hsecond⟩, f, h₂, hagain, hio⟩ := hrun
  exact ⟨host, h, h₁, h₂, a, a₁, f, rfl, hfirst, hsecond, hagain, hio⟩

theorem commands_report_what_is_stored_made : ∃ (data : Location) (host h : Host)
    (s : Surroundings) (r r' : Request), [host, h].IsChain (Next data) ∧
    r.command = .work (.add { title := "item", roleId := some "dev" }) ∧
    (∃ j, (runRequest s .json r h).1.out = Json.compact j ++ "\n" ∧
      Reports data h.disk (runRequest s .json r h).2.disk r.command j) ∧
    r'.command = .role (.add ⟨"dev", ""⟩) ∧ (runRequest s .json r' h).1.exit ≠ 0 ∧
    Unchanged data h.disk (runRequest s .json r' h).2.disk := by
  obtain ⟨host, h, h₁, h₂, a, a₁, f, hempty, hfirst, hsecond, hagain, hio⟩ := exists_made_once
  let data : Location := ⟨["d"], "/d"⟩
  let s : Surroundings := ⟨data, none, []⟩
  let r : Request := ⟨some "/d", false, .work (.add { title := "item", roleId := some "dev" })⟩
  let r' : Request := ⟨some "/d", false, .role (.add ⟨"dev", ""⟩)⟩
  have hlocated (h : Host) (found : Location) (host' : Host)
      (hfound : dataDirectory s (some "/d") h = .ok found host') : found.path = data.path := by
    cases (dataDirectory_root h).symm.trans hfound
    rfl
  have hnext : Next data host h := by
    have hrequest : Next data host (runRequest s .json r' host).2 := .request (hlocated host)
    rwa [runRequest_of_carryOut ((carryOut_root false _ _).trans hfirst)] at hrequest
  have hchain : [host, h].IsChain (Next data) := .cons_cons hnext (.singleton _)
  have hnone (R : Type) [Record R] :
      host.disk.content? (Index.ofData R data).file.path = none := by
    rw [hempty]
    rfl
  have hmem : h ∈ [host, h] := List.mem_cons_of_mem _ (List.mem_singleton_self h)
  have hadd : carryOut s r h = .ok a₁ h₁ := (carryOut_root false _ _).trans hsecond
  have hrefuse : carryOut s r' h = .error f h₂ := (carryOut_root false _ _).trans hagain
  have hexit : (runRequest s .json r' h).1.exit ≠ 0 := by
    rw [runRequest_of_failure hrefuse]
    exact number_ne_zero f.exit_ne_success
  have hdone : (runRequest s .json r h).1.exit = 0 := by
    rw [runRequest_of_carryOut hadd]
    rfl
  have hserved (f' : Failure) (host' : Host) (hf : carryOut s r' h = .error f' host') :
      ¬ f'.IsIo := by
    cases hrefuse.symm.trans hf
    exact hio
  have hshown := (commands_report_what_is_stored (hnone Work) (hnone Role) hchain hmem s .json r
    (hlocated h)).2 hdone (Or.inr rfl)
  have hkept := (commands_report_what_is_stored (hnone Work) (hnone Role) hchain hmem s .json r'
    (hlocated h)).1 hserved hexit
  exact ⟨data, host, h, s, r, r', hchain, rfl, hshown, rfl, hexit, hkept⟩

end WorkQueue.Cli
