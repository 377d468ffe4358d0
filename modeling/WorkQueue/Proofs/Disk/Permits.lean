import WorkQueue.Disk.Basic
import WorkQueue.Proofs.Leads

/-!
# What the system permits

Why the system refuses a call lies outside the tree of files, and it is asked each time anew. What
it permits from some moment on, it still permits after every call on the disk, whether that succeeds
or fails.
-/

namespace WorkQueue.Disk

/-- The system does not refuse the call from now on. -/
def Permits (d : Disk) (c : Call) (p : Path) : Prop := ∀ n, d.asked ≤ n → d.refusal n c p = none

/-- What the system permits from now on, it still permits on the other disk. -/
def Lenient (d d' : Disk) : Prop := ∀ c p, d.Permits c p → d'.Permits c p

variable {d d₀ : Disk}

theorem Lenient.refl : d.Lenient d := fun _ _ h => h

theorem Lenient.trans {d' d'' : Disk} (h : d.Lenient d') (h' : d'.Lenient d'') : d.Lenient d'' :=
  fun c p hp => h' c p (h c p hp)

theorem lenient_ask (d : Disk) : d.Lenient d.ask := fun _ _ h n hn => h n (Nat.le_of_succ_le hn)

/-- A computation that never makes the disk less lenient than it was. -/
theorem leads_and_lenient {ε α : Type} {a : EStateM ε Disk α} {done : α → Disk → Prop}
    {failed : ε → Disk → Prop} (h : Leads a d done failed) (hk : Keeps d.Lenient a) :
    Leads a d (fun x d' => done x d' ∧ d.Lenient d') failed :=
  (h.and (hk d .refl)).mono (fun _ _ h => h) fun _ _ h => h.1

/-! ### Calls -/

theorem leads_permit (c : Call) (p : Path) {done : PUnit → Disk → Prop}
    {failed : Fault → Disk → Prop} : Leads (permit c p) d done failed ↔
      (∀ reason, d.refusal d.asked c p = some reason → failed (.other reason) d.ask) ∧
        (d.refusal d.asked c p = none → done ⟨⟩ d.ask) := by
  rw [permit, leads_bind, leads_modifyGet]
  cases h : d.refusal d.asked c p <;> simp

theorem leads_permit_of_permits {c : Call} {p : Path} (hr : d.Permits c p)
    {failed : Fault → Disk → Prop} : Leads (permit c p) d (fun _ d' => d' = d.ask) failed :=
  (leads_permit _ _).2 ⟨fun reason hs => by simp [hr d.asked (Nat.le_refl _)] at hs, fun _ => rfl⟩

theorem keeps_permit (c : Call) (p : Path) : Keeps d₀.Lenient (permit c p) := by
  intro d h
  have hasked : d₀.Lenient d.ask := h.trans (lenient_ask d)
  exact (leads_permit c p).2 ⟨fun _ _ => hasked, fun _ => hasked⟩

theorem keeps_lookAt (p : Path) : Keeps d₀.Lenient (lookAt p) := by
  apply keeps_get_bind
  intro d
  cases d.look p with
  | ok node => exact keeps_pure _
  | error fault => exact keeps_throw _

theorem keeps_set (p : Path) (n : Node) :
    Keeps d₀.Lenient (modify (·.set p n) : Act Unit) := keeps_modify fun _ h => h

theorem keeps_makeDirsFrom (done rest : Path) :
    Keeps d₀.Lenient (makeDirsFrom done rest) := by
  induction rest generalizing done with
  | nil => exact keeps_pure _
  | cons c rest ih =>
    apply keeps_get_bind
    intro d
    cases d.node? (done ++ [c]) with
    | none => exact (keeps_set _ _).bind fun _ => ih _
    | some n =>
      cases n with
      | dir m => exact ih _
      | file m content => exact keeps_throw _

theorem keeps_setMode (p : Path) (mode : Nat) : Keeps d₀.Lenient (setMode p mode) := by
  apply keeps_get_bind
  intro d
  cases d.node? p with
  | none => exact keeps_pure _
  | some n => cases n <;> exact keeps_set _ _

theorem keeps_makePrivateDir (p : Path) : Keeps d₀.Lenient (makePrivateDir p) := by
  apply Keeps.bind
  · exact (keeps_permit _ _).bind fun _ => keeps_makeDirsFrom _ _
  · exact fun _ => keeps_setMode _ _

theorem keeps_openFile (p : Path) (mode : Nat) : Keeps d₀.Lenient (openFile p mode) := by
  apply (keeps_lookAt p).bind
  intro node
  cases node with
  | none => exact keeps_modify fun _ h => h
  | some n =>
    cases n with
    | dir m => exact keeps_throw _
    | file m content => exact keeps_pure _

theorem keeps_openLock (p : Path) : Keeps d₀.Lenient (openLock p) :=
  (keeps_permit _ _).bind fun _ => keeps_openFile _ _

theorem keeps_fill (p : Path) (content : ByteArray) :
    Keeps d₀.Lenient (fill p content) := by
  apply keeps_get_bind
  intro d
  cases d.node? p with
  | none => exact keeps_throw _
  | some n =>
    cases n with
    | dir m => exact keeps_throw _
    | file m old => exact keeps_modify fun _ h => h

theorem keeps_openEmpty (p : Path) (mode : Nat) :
    Keeps d₀.Lenient (openEmpty p mode) := by
  apply (keeps_permit _ _).bind
  intro _
  exact (keeps_openFile _ _).bind fun _ => keeps_fill _ _

theorem keeps_write (p : Path) (content : ByteArray) :
    Keeps d₀.Lenient (write p content) :=
  (keeps_permit _ _).bind fun _ => keeps_fill _ _

theorem keeps_read (p : Path) : Keeps d₀.Lenient (read p) := by
  apply (keeps_permit _ _).bind
  intro _
  apply (keeps_lookAt p).bind
  intro node
  cases node with
  | none => exact keeps_throw _
  | some n =>
    cases n with
    | dir m => exact keeps_throw _
    | file m content => exact keeps_pure _

theorem keeps_rename (p q : Path) : Keeps d₀.Lenient (rename p q) := by
  apply (keeps_permit _ _).bind
  intro _
  apply (keeps_lookAt p).bind
  intro node
  cases node with
  | none => exact keeps_throw _
  | some n =>
    cases n with
    | dir m => exact keeps_throw _
    | file m content =>
      apply (keeps_lookAt q).bind
      intro node'
      cases node' with
      | none => exact keeps_modify fun _ h => h
      | some n' =>
        cases n' with
        | dir m' => exact keeps_throw _
        | file m' content' => exact keeps_modify fun _ h => h

theorem keeps_remove (p : Path) : Keeps d₀.Lenient (remove p) := by
  apply (keeps_lookAt p).bind
  intro node
  cases node with
  | none => exact keeps_throw _
  | some n =>
    cases n with
    | dir m => exact keeps_throw _
    | file m content => exact keeps_modify fun _ h => h

end WorkQueue.Disk
