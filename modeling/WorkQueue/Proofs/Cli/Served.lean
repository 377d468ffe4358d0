import WorkQueue.Proofs.Cli.References
import WorkQueue.Proofs.Store.Served

/-!
# Role commands that the disk serves

Where the directory of the roles can be read and written, it is opened by every command and left so.
A role is then made whose name and id are new, and a role is given any name that is a name at all.
-/

namespace WorkQueue.Cli

open Record (Distinct)
open Store (Desk Supplied Committed)

/-- These roles are on disk, where they can be read and written. -/
structure Ready (data : Location) (rs : List Role) (host : Host) : Prop where
  writable : (Index.ofData Role data).Writable host.disk
  readable : host.disk.Permits .read (Index.ofData Role data).file.path
  holds : ∃ digest, (Index.ofData Role data).Holds host.disk (⟨rs, digest⟩ : Index.Loaded Role)

variable {data : Location} {rs : List Role} {host : Host} {roles : Store Role} {desk : Desk Role}

theorem ready_empty (data : Location) (h : host.disk = {}) : Ready data [] host where
  writable := h ▸ Index.writable_empty _
  readable := h ▸ fun _ _ => rfl
  holds := by
    refine ⟨none, .of_missing ?_⟩
    simp [h, Disk.content?, Disk.node?, Index.file_path]

theorem Ready.allRegular (h : Ready data rs host) : Record.AllRegular rs := by
  obtain ⟨digest, hholds⟩ := h.holds
  exact hholds.allRegular

theorem Ready.exists_open (h : Ready data rs host) : ∃ (roles : Store Role) (disk : Disk),
    openRoles data host = .ok roles { host with disk } ∧ roles.records = rs ∧
      roles.index = Index.ofData Role data ∧ Ready data rs { host with disk } := by
  obtain ⟨digest, hholds⟩ := h.holds
  have hreadable : (Index.ofData Role data).Readable host.disk :=
    ⟨h.writable.makeDir, h.writable.lock, h.readable⟩
  obtain ⟨disk, hread, hkept, -, hlenient⟩ :=
    Index.indexRead_eq_ok h.writable.clear hreadable hholds
  let roles : Store Role := { index := Index.ofData Role data, records := rs, digest := digest }
  refine ⟨roles, disk, ?_, rfl, rfl, ?_⟩
  · simp only [openRoles, openStore, during, Store.open_of_read hread, roles]
  · exact ⟨h.writable.rewritten hkept.rewritten rfl hlenient, hlenient _ _ h.readable, digest,
      hholds.of_content?_eq hkept.content?_eq⟩

/-- What a command has written can be read and written again. -/
theorem Ready.committed {rs' : List Role} {change : Change Role}
    (h : Ready data rs host) (hindex : roles.index = Index.ofData Role data)
    (hregular : Record.AllRegular rs')
    (hc : Committed ⟨roles, host, []⟩ rs' change desk) (hserved : desk.Served)
    (hlenient : host.disk.Lenient desk.host.disk) : Ready data rs' desk.host := by
  have hsame : desk.store.index = Index.ofData Role data := hc.index_eq.trans hindex
  have hholds := hc.holds hregular
  simp only [hindex, hc.records_eq] at hholds
  exact ⟨hsame ▸ hserved, hlenient _ _ h.readable, desk.store.digest, hholds⟩

theorem Ready.leads_create (h : Ready data roles.records host)
    (hindex : roles.index = Index.ofData Role data) {id : String} (hmissing : roles.get? id = none)
    {draft : Role.Draft} (hname : requireText "name" draft.name = .ok ()) :
    Leads (Store.create id draft) (⟨roles, host, []⟩ : Desk Role)
      (fun _ desk => desk.host.supply = host.supply ∧
        ∃ t : Time.Instant,
          Ready data (roles.records ++ [Role.ofDraft id t.toStamp draft]) desk.host)
      fun _ _ => False := by
  have hserved : Desk.Served (⟨roles, host, []⟩ : Desk Role) := by
    unfold Desk.Served
    rw [hindex]
    exact h.writable
  have hdraft (t : Time.Stamp) : ∃ r : Role,
      (Except.ok (Record.ofDraft id t draft) : Except StoreError Role) = .ok r ∧
        Record.validate r = .ok () := ⟨_, rfl, hname⟩
  have hsupply := Store.keeps_create (R := Role) (Store.blind_supplied host.supply) id draft _
    (Store.supplied_start roles host)
  have hblind := (Store.detached_lenient (R := Role) host.disk).toBlind
  have hlenient := Store.keeps_create hblind id draft (⟨roles, host, []⟩ : Desk Role) .refl
  have hmade := Store.leads_createWith_of_served id draft (fun _ r => .ok r) hserved hmissing hdraft
  have hcommitted : Leads _ (⟨roles, host, []⟩ : Desk Role) _ _ :=
    Store.leads_createWith id draft fun _ r => .ok r
  apply (((hmade.and hcommitted).and hsupply).and hlenient).mono
  · rintro r desk ⟨⟨⟨hserved', -, ⟨t, hr⟩, -, hc⟩, hs⟩, hsame⟩
    obtain rfl := Except.ok.inj hr
    have hregular : Record.AllRegular (roles.records ++ [Role.ofDraft id t.toStamp draft]) :=
      List.forall_mem_append.2
        ⟨h.allRegular, List.forall_mem_singleton.2 ⟨t.regular, t.regular⟩⟩
    exact ⟨hs.host, t, h.committed hindex hregular hc hserved' hsame⟩
  · rintro _ _ ⟨⟨⟨hfalse, -⟩, -⟩, -⟩
    exact hfalse

theorem Ready.leads_update (h : Ready data roles.records host)
    (hindex : roles.index = Index.ofData Role data) {role : Role}
    (hfound : roles.get? role.id = some role) {name : String}
    (hname : requireText "name" name = .ok ()) :
    Leads (Store.update role.id ({ name := some name } : Role.Patch))
      (⟨roles, host, []⟩ : Desk Role) (fun _ _ => True) fun _ _ => False := by
  have hserved : Desk.Served (⟨roles, host, []⟩ : Desk Role) := by
    unfold Desk.Served
    rw [hindex]
    exact h.writable
  apply (Store.leads_updateWith_of_served (R := Role) role.id _ _ hserved).mono
  · intro _ _ _
    trivial
  · rintro e _ hrefused
    have hpatch : Record.patch (R := Role) ({ name := some name } : Role.Patch) role =
      .ok (Role.patched { name := some name } role) := rfl
    rcases hrefused.veto_or_invalid hfound hpatch with hveto | ⟨v, -, hinvalid⟩
    · cases hveto
    · cases hname.symm.trans hinvalid

/-! ### Commands -/

/-- A role is made where its name finds none and its id is new. -/
theorem Ready.exists_add (h : Ready data rs host) (draft : Role.Draft)
    (hfree : ∀ x ∈ rs, x.id ≠ draft.name ∧ x.name ≠ draft.name)
    (hfresh : ∀ x ∈ rs, x.id ≠ host.nextId) (hname : requireText "name" draft.name = .ok ()) :
    ∃ (answer : Answer) (host' : Host), runRole data (.add draft) host = .ok answer host' ∧
      host'.supply = host.afterId.supply ∧
      ∃ t : Time.Instant,
        Ready data (rs ++ [Role.ofDraft host.nextId t.toStamp draft]) host' := by
  obtain ⟨roles, disk, hopen, rfl, hindex, hready⟩ := h.exists_open
  have hnone : findRole? roles draft.name = none := findRole?_eq_none_iff.2 hfree
  have hmissing : roles.get? host.nextId = none := by
    apply List.find?_eq_none.2
    intro x hx
    exact decide_eq_false (hfresh x hx) ▸ Bool.false_ne_true
  have hnext : Ready data roles.records { host.afterId with disk } :=
    ⟨hready.writable, hready.readable, hready.holds⟩
  apply Leads.exists_ok
  apply (leads_bind _ _).2
  apply (leads_of_ok hopen).2
  apply (leads_bind _ _).2
  apply (leads_during _ _).2
  rw [addRole, hnone, if_neg (by simp)]
  apply (leads_run _ _).2
  apply (leads_bind _ _).2
  exact hnext.leads_create hindex hmissing hname

/-- A role is given a name, whoever has that already. -/
theorem Ready.exists_edit (h : Ready data rs host) (hd : Distinct rs) {role : Role}
    (hrole : role ∈ rs) (name : String) (hname : requireText "name" name = .ok ()) :
    ∃ (answer : Answer) (host' : Host),
      runRole data (.edit role.id { name := some name }) host = .ok answer host' := by
  obtain ⟨roles, disk, hopen, rfl, hindex, hready⟩ := h.exists_open
  have hlead : Leads (runRole data (.edit role.id { name := some name })) host (fun _ _ => True)
      fun _ _ => False := by
    apply (leads_bind _ _).2
    apply (leads_of_ok hopen).2
    apply (leads_bind _ _).2
    apply (leads_during _ _).2
    rw [editRole, if_neg (by simp), needRole, findRole?_id hd hrole]
    apply (leads_run _ _).2
    exact hready.leads_update hindex (hd.find?_of_mem hrole) hname
  obtain ⟨answer, host', hrun, -⟩ := hlead.exists_ok
  exact ⟨answer, host', hrun⟩

end WorkQueue.Cli
