import WorkQueue.Proofs.Disk.Shape

/-!
# Writing to a disk that refuses nothing

Where a directory is there, and no directory stands in the place of a file in it, only the system
keeps that file from being opened, filled and moved.
-/

namespace WorkQueue.Disk

variable {d : Disk} {dir : Path} {p : Path}

theorem leads_fill_of_file (content : ByteArray) {old : ByteArray}
    (hp : d.shape p = some (some old)) :
    Leads (fill p content) d (fun _ _ => True) (fun _ _ => False) := by
  rw [fill, leads_bind, leads_get]
  cases hn : d.node? p with
  | none => simp [shape_eq_none.2 hn] at hp
  | some n =>
    cases n with
    | dir m => simp [shape_eq_of_node? hn, Node.content?] at hp
    | file m content' => exact (leads_modify _).2 trivial

theorem leads_openEmpty_of_reaches {c : String} (mode : Nat) (h : d.Reaches dir)
    (hp : ¬ d.isDir (dir ++ [c]) = true) (hr : d.Permits .openFile (dir ++ [c])) :
    Leads (openEmpty (dir ++ [c]) mode) d
      (fun _ d' => d'.shape (dir ++ [c]) = some (some .empty))
      (fun _ _ => False) := by
  have hfile : dir ++ [c] ∈ [dir ++ [c]] := List.mem_singleton_self _
  have hdir : ¬ dir ++ [c] <+: dir := by
    intro hprefix
    have hlength := hprefix.length_le
    rw [List.length_append, List.length_singleton] at hlength
    omega
  rw [openEmpty, leads_bind]
  refine (leads_permit_of_permits hr).mono ?_ fun _ _ h => h
  rintro _ _ rfl
  have hopened := leads_openFile_of_reaches (d := d.ask) mode h hp
  rw [leads_bind]
  refine ((leads_openFile mode hfile hdir).and hopened).mono (fun _ d₂ h₂ => ?_) fun _ _ h => h.2
  obtain ⟨⟨-, old, hold⟩, -⟩ := h₂
  refine ((leads_fill .empty hfile hdir).and (leads_fill_of_file .empty hold)).mono
    (fun _ d₃ h₃ => ?_) fun _ _ h => h.2
  exact h₃.1.2

theorem leads_write_of_file (content : ByteArray) {old : ByteArray}
    (hp : d.shape p = some (some old)) (hr : d.Permits .write p) :
    Leads (write p content) d (fun _ _ => True) (fun _ _ => False) := by
  rw [write, leads_bind]
  refine (leads_permit_of_permits hr).mono ?_ fun _ _ h => h
  rintro _ _ rfl
  exact leads_fill_of_file (d := d.ask) content hp

theorem leads_rename_of_reaches {c c' : String} {content : ByteArray} (h : d.Reaches dir)
    (hp : d.shape (dir ++ [c]) = some (some content)) (hq : ¬ d.isDir (dir ++ [c']) = true)
    (hr : d.Permits .rename (dir ++ [c'])) : Leads (rename (dir ++ [c]) (dir ++ [c'])) d
      (fun _ _ => True) (fun _ _ => False) := by
  rw [rename, leads_bind]
  refine (leads_permit_of_permits hr).mono ?_ fun _ _ h => h
  rintro _ _ rfl
  rw [leads_bind, leads_lookAt, look_ask, look_of_reaches h]
  refine ⟨fun _ hl => by simp at hl, fun node hnode => ?_⟩
  have hn := Except.ok.inj hnode
  cases node with
  | none => simp [shape_eq_none.2 hn] at hp
  | some n =>
    cases n with
    | dir m => simp [shape_eq_of_node? hn, Node.content?] at hp
    | file m content' =>
      rw [leads_bind, leads_lookAt, look_ask, look_of_reaches h]
      refine ⟨fun _ hl => by simp at hl, fun node' hnode' => ?_⟩
      have hn' := Except.ok.inj hnode'
      cases node' with
      | none => exact (leads_modify _).2 trivial
      | some n' =>
        cases n' with
        | dir m' => exact absurd (isDir_iff.2 (shape_eq_of_node? hn')) hq
        | file m' content'' => exact (leads_modify _).2 trivial

end WorkQueue.Disk
