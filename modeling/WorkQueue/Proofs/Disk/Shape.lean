import WorkQueue.Proofs.Disk.Permits

/-!
# What disk calls change

The shape of a disk forgets permissions: at a path there is nothing, a directory, or a file with a
content. Every call changes the shape at few paths, and no call but the removal of a tree turns a
directory into anything else.
-/

namespace WorkQueue

/-- The content of a file; a directory has none. -/
def Node.content? : Node → Option ByteArray
  | file _ content => some content
  | dir _ => none

namespace Disk

def shape (d : Disk) (p : Path) : Option (Option ByteArray) := (d.node? p).map Node.content?

theorem content?_eq_join (d : Disk) (p : Path) : d.content? p = (d.shape p).join := by
  unfold content? shape
  cases d.node? p with
  | none => rfl
  | some n => cases n <;> rfl

theorem isDir_iff {d : Disk} {p : Path} : d.isDir p = true ↔ d.shape p = some none := by
  unfold isDir shape
  cases d.node? p with
  | none => simp
  | some n => cases n <;> simp [Node.content?]

theorem shape_eq_of_node? {d : Disk} {p : Path} {n : Node} (h : d.node? p = some n) :
    d.shape p = some n.content? := by
  rw [shape, h, Option.map_some]

theorem shape_eq_none {d : Disk} {p : Path} : d.shape p = none ↔ d.node? p = none := by
  rw [shape, Option.map_eq_none_iff]

theorem shape_nil (d : Disk) : d.shape [] = some none := rfl

@[simp] theorem shape_touch (d : Disk) (p q : Path) : (d.touch p).shape q = d.shape q := rfl

@[simp] theorem shape_ask (d : Disk) : d.ask.shape = d.shape := rfl

theorem wayFault?_ask (d : Disk) (done p : Path) :
    d.ask.wayFault? done p = d.wayFault? done p := by
  induction p generalizing done with
  | nil => rfl
  | cons c rest ih =>
    cases rest with
    | nil => rfl
    | cons c' rest =>
      have hnode : d.ask.node? (done ++ [c]) = d.node? (done ++ [c]) := rfl
      unfold wayFault?
      simp only [hnode, ih]

@[simp] theorem look_ask (d : Disk) (p : Path) : d.ask.look p = d.look p := by
  rw [look, look, wayFault?_ask]
  rfl

theorem lookup_filter_ne (nodes : List (Path × Node)) (p q : Path) (h : q ≠ p) :
    (nodes.filter (·.1 ≠ p)).lookup q = nodes.lookup q := by
  induction nodes with
  | nil => rfl
  | cons e nodes ih =>
    obtain ⟨r, n⟩ := e
    by_cases hr : r = p
    · have hq : (q == r) = false := beq_false_of_ne fun h' => h (h'.trans hr)
      rw [List.filter_cons_of_neg (by simpa using hr), ih, List.lookup_cons, hq]
    · rw [List.filter_cons_of_pos (by simpa using hr), List.lookup_cons, List.lookup_cons, ih]

theorem node?_set_of_ne (d : Disk) {p q : Path} (n : Node) (h : q ≠ p) :
    (d.set p n).node? q = d.node? q := by
  have hq : (q == p) = false := beq_false_of_ne h
  unfold node? set
  simp only [List.lookup_cons, hq, lookup_filter_ne d.nodes p q h]

theorem node?_set_self (d : Disk) {p : Path} (hp : p ≠ []) (n : Node) :
    (d.set p n).node? p = some n := by
  rw [node?, if_neg hp, set, List.lookup_cons, beq_self_eq_true]

theorem shape_set_of_ne (d : Disk) {p q : Path} (n : Node) (h : q ≠ p) :
    (d.set p n).shape q = d.shape q := by
  rw [shape, node?_set_of_ne d n h, shape]

theorem shape_set_self (d : Disk) {p : Path} (hp : p ≠ []) (n : Node) :
    (d.set p n).shape p = some n.content? :=
  shape_eq_of_node? (node?_set_self d hp n)

theorem shape_unset_of_ne (d : Disk) {p q : Path} (h : q ≠ p) :
    (d.unset p).shape q = d.shape q := by
  unfold shape node? unset
  simp only [lookup_filter_ne d.nodes p q h]

theorem lookup_filter_self (nodes : List (Path × Node)) (p : Path) :
    (nodes.filter (·.1 ≠ p)).lookup p = none := by
  rw [List.lookup_eq_none_iff]
  intro e he
  have hne : e.1 ≠ p := by simpa using (List.mem_filter.1 he).2
  exact bne_iff_ne.2 hne.symm

theorem shape_unset_self (d : Disk) {p : Path} (hp : p ≠ []) : (d.unset p).shape p = none := by
  rw [shape_eq_none, node?, if_neg hp, unset, lookup_filter_self]

/-! ### Calls -/

variable {d : Disk}

theorem leads_lookAt (p : Path) {done : Option Node → Disk → Prop}
    {failed : Fault → Disk → Prop} : Leads (lookAt p) d done failed ↔
      (∀ fault, d.look p = .error fault → failed fault d) ∧
        ∀ node, d.look p = .ok node → done node d := by
  rw [lookAt, leads_bind, leads_get]
  cases h : d.look p <;> simp

theorem look_eq_ok {p : Path} {node : Option Node} (h : d.look p = .ok node) :
    node = d.node? p := by
  unfold look at h
  split at h
  · cases h
  · cases h
    rfl

/-- Permissions are no part of the shape. -/
theorem leads_setMode (p : Path) (mode : Nat) {failed : Fault → Disk → Prop} :
    Leads (setMode p mode) d (fun _ d' => d'.shape = d.shape) failed := by
  have same (n n' : Node) (h : d.node? p = some n) (hc : n'.content? = n.content?) :
      (d.set p n').shape = d.shape := by
    funext q
    by_cases hq : q = p
    · subst hq
      by_cases hnil : q = []
      · subst hnil
        rfl
      · rw [shape_set_self d hnil, hc, shape_eq_of_node? h]
    · exact shape_set_of_ne d n' hq
  rw [setMode, leads_bind, leads_get]
  cases h : d.node? p with
  | none => exact (leads_pure _).2 rfl
  | some n =>
    cases n with
    | file m content => exact (leads_modify _).2 (same _ _ h rfl)
    | dir m => exact (leads_modify _).2 (same _ _ h rfl)

/-- What is at a path is the same, or neither a directory before nor one after where the path is
one of `files`, or a directory that is new on the way to `dir`. -/
def Kept (dir : Path) (files : List Path) (d d' : Disk) : Prop :=
  ∀ p, d'.shape p = d.shape p ∨
    (p ∈ files ∧ ¬ p <+: dir ∧ d.shape p ≠ some none ∧ d'.shape p ≠ some none) ∨
    (p <+: dir ∧ d.shape p = none ∧ d'.shape p = some none)

namespace Kept

variable {dir : Path} {files : List Path} {d' d'' : Disk}

theorem of_shape_eq (h : d'.shape = d.shape) : Kept dir files d d' := fun p =>
  Or.inl (congrFun h p)

theorem refl : Kept dir files d d := of_shape_eq rfl

theorem ask : Kept dir files d d.ask := of_shape_eq rfl

theorem trans (h : Kept dir files d d') (h' : Kept dir files d' d'') : Kept dir files d d'' := by
  intro p
  rcases h p with e | ⟨hp, hd, hn, hn'⟩ | ⟨hd, hn, hs⟩
  · rcases h' p with e' | c | c
    · exact Or.inl (e'.trans e)
    · exact Or.inr (Or.inl (e ▸ c))
    · exact Or.inr (Or.inr (e ▸ c))
  · rcases h' p with e' | ⟨-, -, -, hn''⟩ | ⟨hp', -, -⟩
    · exact Or.inr (Or.inl ⟨hp, hd, hn, e' ▸ hn'⟩)
    · exact Or.inr (Or.inl ⟨hp, hd, hn, hn''⟩)
    · exact absurd hp' hd
  · rcases h' p with e' | ⟨-, hd', -⟩ | ⟨-, -, hs'⟩
    · exact Or.inr (Or.inr ⟨hd, hn, e'.trans hs⟩)
    · exact absurd hd hd'
    · exact Or.inr (Or.inr ⟨hd, hn, hs'⟩)

theorem mono {more : List Path} (h : Kept dir files d d') (hsub : files ⊆ more) :
    Kept dir more d d' := fun p => (h p).imp_right (Or.imp_left fun c => ⟨hsub c.1, c.2⟩)

theorem isDir (h : Kept dir files d d') {p : Path} (hp : d.isDir p = true) : d'.isDir p = true := by
  rw [isDir_iff] at hp ⊢
  rcases h p with e | ⟨-, -, hn, -⟩ | ⟨-, hn, -⟩
  · exact e.trans hp
  · exact absurd hp hn
  · rw [hp] at hn
    cases hn

theorem not_isDir (h : Kept dir files d d') {p : Path} (hd : ¬ p <+: dir)
    (hp : ¬ d.isDir p = true) : ¬ d'.isDir p = true := by
  rw [isDir_iff] at hp ⊢
  rcases h p with e | ⟨-, -, -, hn⟩ | ⟨hp', -, -⟩
  · rwa [e]
  · exact hn
  · exact absurd hp' hd

theorem shape_eq (h : Kept dir files d d') {p : Path} (hf : p ∉ files) (hd : ¬ p <+: dir) :
    d'.shape p = d.shape p := by
  rcases h p with e | ⟨hp, -⟩ | ⟨hp, -⟩
  · exact e
  · exact absurd hp hf
  · exact absurd hp hd

/-- A file call changes one path, at which there is no directory. -/
theorem of_file {p : Path} (hf : p ∈ files) (hd : ¬ p <+: dir)
    (hother : ∀ q, q ≠ p → d'.shape q = d.shape q) (hp : d.shape p ≠ some none)
    (hp' : d'.shape p ≠ some none) : Kept dir files d d' := by
  intro q
  by_cases hq : q = p
  · subst hq
    exact Or.inr (Or.inl ⟨hf, hd, hp, hp'⟩)
  · exact Or.inl (hother q hq)

end Kept

variable {dir : Path} {files : List Path}

theorem ne_nil_of_not_prefix_dir {p : Path} (h : ¬ p <+: dir) : p ≠ [] := by
  rintro rfl
  exact h List.nil_prefix

theorem leads_openFile {p : Path} (mode : Nat) (hf : p ∈ files) (hd : ¬ p <+: dir) :
    Leads (openFile p mode) d
      (fun _ d' => Kept dir files d d' ∧ ∃ content, d'.shape p = some (some content))
      (fun _ d' => d' = d) := by
  have hne := ne_nil_of_not_prefix_dir hd
  rw [openFile, leads_bind, leads_lookAt]
  refine ⟨fun _ _ => rfl, fun node hnode => ?_⟩
  have hn := look_eq_ok hnode
  cases node with
  | none =>
    have hself : ((d.set p (.file mode .empty)).touch p).shape p = some (some .empty) :=
      shape_set_self d hne _
    refine (leads_modify _).2 ⟨.of_file hf hd (fun q hq => ?_) ?_ ?_, _, hself⟩
    · exact shape_set_of_ne d _ hq
    · rw [shape_eq_none.2 hn.symm]
      simp
    · rw [hself]
      simp
  | some n =>
    cases n with
    | dir m => exact (leads_throw _).2 rfl
    | file m content => exact (leads_pure _).2 ⟨.refl, content, shape_eq_of_node? hn.symm⟩

theorem leads_fill {p : Path} (content : ByteArray) (hf : p ∈ files) (hd : ¬ p <+: dir) :
    Leads (fill p content) d
      (fun _ d' => Kept dir files d d' ∧ d'.shape p = some (some content))
      (fun _ d' => d' = d) := by
  have hne := ne_nil_of_not_prefix_dir hd
  rw [fill, leads_bind, leads_get]
  cases hn : d.node? p with
  | none => exact (leads_throw _).2 rfl
  | some n =>
    cases n with
    | dir m => exact (leads_throw _).2 rfl
    | file m old =>
      have hself : ((d.set p (.file m content)).touch p).shape p = some (some content) :=
        shape_set_self d hne _
      refine (leads_modify _).2 ⟨.of_file hf hd (fun q hq => ?_) ?_ ?_, hself⟩
      · exact shape_set_of_ne d _ hq
      · rw [shape_eq_of_node? hn]
        simp [Node.content?]
      · rw [hself]
        simp

theorem leads_openLock {p : Path} (hf : p ∈ files) (hd : ¬ p <+: dir) :
    Leads (openLock p) d
      (fun _ d' => Kept dir files d d' ∧ ∃ content, d'.shape p = some (some content))
      (fun _ d' => Kept dir files d d') := by
  rw [openLock, leads_bind, leads_permit]
  refine ⟨fun _ _ => .ask, fun _ => ?_⟩
  exact (leads_openFile _ hf hd).mono (fun _ _ h => ⟨Kept.ask.trans h.1, h.2⟩) fun _ _ h => h ▸ .ask

theorem leads_openEmpty {p : Path} (mode : Nat) (hf : p ∈ files) (hd : ¬ p <+: dir) :
    Leads (openEmpty p mode) d (fun _ d' => Kept dir files d d')
      (fun _ d' => Kept dir files d d') := by
  rw [openEmpty, leads_bind, leads_permit]
  refine ⟨fun _ _ => .ask, fun _ => ?_⟩
  rw [leads_bind]
  refine (leads_openFile mode hf hd).mono (fun _ d₁ h₁ => ?_) fun _ _ h => h ▸ .ask
  have hopened := Kept.ask.trans h₁.1
  refine (leads_fill .empty hf hd).mono (fun _ d₂ h₂ => hopened.trans h₂.1) ?_
  rintro _ _ rfl
  exact hopened

theorem leads_write {p : Path} (content : ByteArray) (hf : p ∈ files) (hd : ¬ p <+: dir) :
    Leads (write p content) d
      (fun _ d' => Kept dir files d d' ∧ d'.shape p = some (some content))
      (fun _ d' => d'.shape = d.shape) := by
  rw [write, leads_bind, leads_permit]
  refine ⟨fun _ _ => rfl, fun _ => ?_⟩
  exact (leads_fill content hf hd).mono (fun _ _ h => ⟨Kept.ask.trans h.1, h.2⟩)
    fun _ _ h => h ▸ rfl

theorem leads_sync (p : Path) :
    Leads (sync p) d (fun _ d' => d'.shape = d.shape) (fun _ d' => d'.shape = d.shape) :=
  (leads_permit _ _).2 ⟨fun _ _ => rfl, fun _ => rfl⟩

theorem leads_read (p : Path) : Leads (read p) d
    (fun content d' => d'.shape = d.shape ∧ d.shape p = some (some content))
    (fun fault d' => d'.shape = d.shape ∧
      (fault = .missing → d.look p = .error .missing ∨ d.shape p = none)) := by
  rw [read, leads_bind, leads_permit]
  refine ⟨fun _ _ => ⟨rfl, by simp⟩, fun _ => ?_⟩
  rw [leads_bind, leads_lookAt, look_ask]
  refine ⟨fun fault hl => ⟨rfl, ?_⟩, fun node hl => ?_⟩
  · rintro rfl
    exact Or.inl hl
  have hn := look_eq_ok hl
  cases node with
  | none => exact (leads_throw _).2 ⟨rfl, fun _ => Or.inr (shape_eq_none.2 hn.symm)⟩
  | some n =>
    cases n with
    | dir m => exact (leads_throw _).2 ⟨rfl, by simp⟩
    | file m content => exact (leads_pure _).2 ⟨rfl, shape_eq_of_node? hn.symm⟩

theorem leads_rename {p q : Path} (hp : p ∈ files) (hpd : ¬ p <+: dir) (hq : q ∈ files)
    (hqd : ¬ q <+: dir) : Leads (rename p q) d
      (fun _ d' => Kept dir files d d' ∧ ∃ content,
        d.shape p = some (some content) ∧ d'.shape q = some (some content))
      (fun _ d' => d'.shape = d.shape) := by
  rw [rename, leads_bind, leads_permit]
  refine ⟨fun _ _ => rfl, fun _ => ?_⟩
  rw [leads_bind, leads_lookAt, look_ask]
  refine ⟨fun _ _ => rfl, fun node hnode => ?_⟩
  have hn := look_eq_ok hnode
  cases node with
  | none => exact (leads_throw _).2 rfl
  | some n =>
    cases n with
    | dir m => exact (leads_throw _).2 rfl
    | file m content =>
      have hshape := shape_eq_of_node? hn.symm
      rw [leads_bind, leads_lookAt, look_ask]
      refine ⟨fun _ _ => rfl, fun node' hnode' => ?_⟩
      have hn' := look_eq_ok hnode'
      have hmoved (hq' : d.shape q ≠ some none) :
          Kept dir files d ((((d.ask.unset p).set q (.file m content)).touch p).touch q) := by
        have hself : ((d.ask.unset p).set q (.file m content)).shape q = some (some content) :=
          shape_set_self _ (ne_nil_of_not_prefix_dir hqd) _
        have hunset : Kept dir files d (d.ask.unset p) := by
          refine .of_file hp hpd (fun r hr => shape_unset_of_ne d.ask hr) ?_ ?_
          · rw [hshape]
            simp [Node.content?]
          · rw [shape_unset_self d.ask (ne_nil_of_not_prefix_dir hpd)]
            simp
        refine hunset.trans (.of_file hq hqd (fun r hr => shape_set_of_ne _ _ hr) ?_ ?_)
        · rw [Ne, ← isDir_iff] at hq' ⊢
          exact hunset.not_isDir hqd hq'
        · rw [shape_touch, shape_touch, hself]
          simp
      have hself : ((((d.ask.unset p).set q (.file m content)).touch p).touch q).shape q =
          some (some content) := shape_set_self _ (ne_nil_of_not_prefix_dir hqd) _
      cases node' with
      | none =>
        have hq' : d.shape q ≠ some none := by simp [shape_eq_none.2 hn'.symm]
        exact (leads_modify _).2 ⟨hmoved hq', content, hshape, hself⟩
      | some n' =>
        cases n' with
        | dir m' => exact (leads_throw _).2 rfl
        | file m' content' =>
          have hq' : d.shape q ≠ some none := by
            simp [shape_eq_of_node? hn'.symm, Node.content?]
          exact (leads_modify _).2 ⟨hmoved hq', content, hshape, hself⟩

theorem leads_remove {p : Path} (hf : p ∈ files) (hd : ¬ p <+: dir) :
    Leads (remove p) d (fun _ d' => Kept dir files d d') (fun _ d' => d' = d) := by
  rw [remove, leads_bind, leads_lookAt]
  refine ⟨fun _ _ => rfl, fun node hnode => ?_⟩
  have hn := look_eq_ok hnode
  cases node with
  | none => exact (leads_throw _).2 rfl
  | some n =>
    cases n with
    | dir m => exact (leads_throw _).2 rfl
    | file m content =>
      refine (leads_modify _).2 (.of_file hf hd (fun q hq => shape_unset_of_ne d hq) ?_ ?_)
      · simp [shape_eq_of_node? hn.symm, Node.content?]
      · simp [shape_unset_self d (ne_nil_of_not_prefix_dir hd)]

/-! ### Making directories -/

/-- Every place on the way to `p`, and `p` itself, is a directory. -/
def Reaches (d : Disk) (p : Path) : Prop := ∀ q, q <+: p → d.isDir q = true

theorem Reaches.kept {d' : Disk} {p : Path} (h : d.Reaches p) (hk : Kept dir files d d') :
    d'.Reaches p := fun q hq => hk.isDir (h q hq)

theorem leads_makeDirsFrom (done rest : Path) (h : done ++ rest <+: dir) (hdone : d.Reaches done) :
    Leads (makeDirsFrom done rest) d
      (fun _ d' => Kept dir files d d' ∧ d'.Reaches (done ++ rest))
      (fun _ d' => Kept dir files d d') := by
  induction rest generalizing done d with
  | nil => exact (leads_pure _).2 ⟨.refl, by rwa [List.append_nil]⟩
  | cons c rest ih =>
    have happend : done ++ [c] ++ rest = done ++ c :: rest := by simp
    have hp : done ++ [c] <+: dir := ⟨rest ++ h.choose, by
      rw [← List.append_assoc, happend]
      exact h.choose_spec⟩
    have reaches {d' : Disk} (hdone : d'.Reaches done) (hself : d'.isDir (done ++ [c]) = true) :
        d'.Reaches (done ++ [c]) := by
      intro q hq
      rcases List.prefix_concat_iff.1 hq with rfl | hq
      · exact hself
      · exact hdone q hq
    rw [← happend] at h
    rw [makeDirsFrom, leads_bind, leads_get, ← happend]
    cases hn : d.node? (done ++ [c]) with
    | none =>
      have hself : (d.set (done ++ [c]) (.dir 0o755)).shape (done ++ [c]) = some none :=
        shape_set_self d (by simp) _
      have hset : Kept dir files d (d.set (done ++ [c]) (.dir 0o755)) := by
        intro q
        by_cases hq : q = done ++ [c]
        · subst hq
          exact Or.inr (Or.inr ⟨hp, shape_eq_none.2 hn, hself⟩)
        · exact Or.inl (shape_set_of_ne d _ hq)
      have hrest := ih (done ++ [c]) h (reaches (hdone.kept hset) (isDir_iff.2 hself))
      rw [leads_bind, leads_modify]
      exact hrest.mono (fun _ _ h' => ⟨hset.trans h'.1, h'.2⟩) fun _ _ h' => hset.trans h'
    | some n =>
      cases n with
      | dir m => exact ih (done ++ [c]) h (reaches hdone (isDir_iff.2 (shape_eq_of_node? hn)))
      | file m content => exact (leads_throw _).2 .refl

theorem leads_makePrivateDir : Leads (makePrivateDir dir) d
    (fun _ d' => Kept dir files d d' ∧ d'.Reaches dir) (fun _ d' => Kept dir files d d') := by
  have hroot : d.Reaches [] := fun q hq => by
    rw [List.prefix_nil.1 hq]
    exact isDir_iff.2 (shape_nil d)
  rw [makePrivateDir, leads_bind, makeDirs, leads_bind, leads_permit]
  refine ⟨fun _ _ => .ask, fun _ => ?_⟩
  refine (leads_makeDirsFrom [] dir List.prefix_rfl (d := d.ask) hroot).mono (fun _ d₁ h₁ => ?_)
    fun _ _ h => Kept.ask.trans h
  refine (leads_setMode dir 0o700).mono (fun _ d₂ h₂ => ?_) fun _ _ h => h
  have hsame : Kept dir files d₁ d₂ := .of_shape_eq h₂
  exact ⟨(Kept.ask.trans h₁.1).trans hsame, h₁.2.kept hsame⟩

/-! ### Calls that nothing keeps from succeeding -/

/-- No file stands where a directory on the way to `p` is needed, or in the place of `p` itself. -/
def Passable (d : Disk) (p : Path) : Prop := ∀ q, q <+: p → d.content? q = none

theorem Reaches.passable {p : Path} (h : d.Reaches p) : d.Passable p := fun q hq => by
  rw [content?_eq_join, isDir_iff.1 (h q hq)]
  rfl

theorem Kept.passable {d' : Disk} (h : Kept dir files d d') (hp : d.Passable dir) :
    d'.Passable dir := by
  intro q hq
  rw [content?_eq_join]
  rcases h q with e | ⟨-, hn, -, -⟩ | ⟨-, -, hs⟩
  · rw [e, ← content?_eq_join]
    exact hp q hq
  · exact absurd hq hn
  · rw [hs]
    rfl

theorem Passable.set_dir {p : Path} (h : d.Passable p) {q : Path} (hq : q ≠ []) (mode : Nat) :
    (d.set q (.dir mode)).Passable p := by
  intro r hr
  rw [content?_eq_join]
  by_cases he : r = q
  · rw [he, shape_set_self d hq]
    rfl
  · rw [shape_set_of_ne d _ he, ← content?_eq_join]
    exact h r hr

theorem leads_makeDirsFrom_of_passable (done rest : Path) (h : d.Passable (done ++ rest)) :
    Leads (makeDirsFrom done rest) d (fun _ _ => True) (fun _ _ => False) := by
  induction rest generalizing done d with
  | nil => exact (leads_pure _).2 trivial
  | cons c rest ih =>
    have happend : done ++ [c] ++ rest = done ++ c :: rest := by simp
    have hself := h (done ++ [c]) ⟨rest, happend⟩
    rw [← happend] at h
    rw [makeDirsFrom, leads_bind, leads_get]
    unfold content? at hself
    cases hn : d.node? (done ++ [c]) with
    | none =>
      rw [leads_bind, leads_modify]
      exact ih (done ++ [c]) (h.set_dir (by simp) 0o755)
    | some n =>
      cases n with
      | dir m => exact ih (done ++ [c]) h
      | file m content => simp [hn] at hself

theorem wayFault?_of_reaches (done p : Path) (c : String) (h : d.Reaches (done ++ p)) :
    d.wayFault? done (p ++ [c]) = none := by
  induction p generalizing done with
  | nil => rfl
  | cons a p ih =>
    have happend : done ++ [a] ++ p = done ++ a :: p := by simp
    have hself := h (done ++ [a]) ⟨p, happend⟩
    have hrest := ih (done ++ [a]) (by rwa [happend])
    unfold isDir at hself
    split at hself
    next m hn =>
      obtain ⟨b, r, hr⟩ := List.exists_cons_of_ne_nil (List.concat_ne_nil c p)
      rw [hr] at hrest
      rw [List.cons_append, hr, wayFault?]
      · simpa only [hn] using hrest
      · simp
    next => exact absurd hself Bool.false_ne_true

theorem look_of_reaches {p : Path} {c : String} (h : d.Reaches p) :
    d.look (p ++ [c]) = .ok (d.node? (p ++ [c])) := by
  rw [look, wayFault?_of_reaches [] p c h]

theorem leads_makePrivateDir_of_passable (h : d.Passable dir) (hr : d.Permits .makeDir dir) :
    Leads (makePrivateDir dir) d (fun _ _ => True) (fun _ _ => False) := by
  rw [makePrivateDir, leads_bind, makeDirs, leads_bind]
  refine (leads_permit_of_permits hr).mono ?_ fun _ _ h => h
  rintro _ _ rfl
  refine (leads_makeDirsFrom_of_passable [] dir (d := d.ask) h).imp fun _ d₁ _ => ?_
  exact (leads_setMode dir 0o700).imp fun _ _ _ => trivial

theorem leads_openFile_of_reaches {c : String} (mode : Nat) (h : d.Reaches dir)
    (hp : ¬ d.isDir (dir ++ [c]) = true) : Leads (openFile (dir ++ [c]) mode) d
      (fun _ _ => True) (fun _ _ => False) := by
  rw [openFile, leads_bind, leads_lookAt, look_of_reaches h]
  refine ⟨fun _ hl => by simp at hl, fun node hnode => ?_⟩
  have hn := Except.ok.inj hnode
  cases node with
  | none => exact (leads_modify _).2 trivial
  | some n =>
    cases n with
    | dir m => exact absurd (isDir_iff.2 (shape_eq_of_node? hn)) hp
    | file m content => exact (leads_pure _).2 trivial

theorem leads_openLock_of_reaches {c : String} (h : d.Reaches dir)
    (hp : ¬ d.isDir (dir ++ [c]) = true) (hr : d.Permits .lock (dir ++ [c])) :
    Leads (openLock (dir ++ [c])) d (fun _ _ => True) (fun _ _ => False) := by
  rw [openLock, leads_bind]
  refine (leads_permit_of_permits hr).mono ?_ fun _ _ h => h
  rintro _ _ rfl
  exact leads_openFile_of_reaches (d := d.ask) _ h hp

theorem leads_read_of_reaches {c : String} (h : d.Reaches dir)
    (hp : ¬ d.isDir (dir ++ [c]) = true) (hr : d.Permits .read (dir ++ [c])) :
    Leads (read (dir ++ [c])) d (fun _ _ => True) (fun fault _ => fault = .missing) := by
  rw [read, leads_bind]
  refine (leads_permit_of_permits hr).mono ?_ fun _ _ h => h
  rintro _ _ rfl
  rw [leads_bind, leads_lookAt, look_ask, look_of_reaches h]
  refine ⟨fun _ hl => by simp at hl, fun node hnode => ?_⟩
  have hn := Except.ok.inj hnode
  cases node with
  | none => exact (leads_throw _).2 rfl
  | some n =>
    cases n with
    | dir m => exact absurd (isDir_iff.2 (shape_eq_of_node? hn)) hp
    | file m content => exact (leads_pure _).2 trivial

end Disk

end WorkQueue
