import Mathlib.Data.List.Chain
import WorkQueue.Proofs.Store.Durable
import WorkQueue.Proofs.Store.World

/-!
# A store among other writers

The index of a store is replaced by the store itself and by others. Passes of the store read it and
absorb what they have read at any later time. The contents that the file has had are its versions,
numbered in the order in which they were written. At every moment the records in memory are those of
one version. No pass takes back what the store wrote itself; but a pass can take back what another
pass took over, and the version in memory falls exactly where a pass is applied after one that had
read a later version.
-/

namespace WorkQueue

namespace Index

variable {R : Type} [Record R]

/-- What is loaded from such a content of the file, or where there is no file. -/
def Gives (content? : Option ByteArray) (loaded : Loaded R) : Prop :=
  match content? with
  | none => loaded.records = [] ∧ loaded.digest = none
  | some content =>
    decode content = .ok loaded.records ∧ loaded.digest = some (Digest.ofBytes content)

theorem holds_iff_gives {i : Index} {d : Disk} {loaded : Loaded R} :
    i.Holds d loaded ↔ Gives (d.content? i.file.path) loaded := Iff.rfl

theorem Gives.allRegular [LawfulRecord R] {content? : Option ByteArray} {loaded : Loaded R}
    (h : Gives content? loaded) : Record.AllRegular loaded.records := by
  cases content? with
  | none =>
    rw [h.1]
    exact List.forall_mem_nil _
  | some content => exact regular_of_decode h.1

end Index

namespace Store

variable {R : Type} [Record R]

/-- After a call that was answered, the index is laid out and holds the records of the store. -/
theorem laid_and_holds_of_run [LawfulRecord R] {data : Location} {host host' : Host} {s : Store R}
    (hopen : Store.open data host = .ok s host') {q : Request R} {a : Answer R} {desk : Desk R}
    (hrun : q.run ⟨s, host', []⟩ = .ok a desk) :
    (Index.ofData R data).Laid desk.host.disk ∧
      (Index.ofData R data).Holds desk.host.disk ⟨desk.store.records, desk.store.digest⟩ := by
  have hmirrored := (mirrored_of_open hopen).step (.answered hrun)
  have hsame : desk.store.index = s.index :=
    (Process.Step.answered (p := ⟨s, []⟩) hrun).index_eq
  have hindex : desk.store.index = Index.ofData R data :=
    hsame.trans (World.content?_of_open hopen).1
  exact ⟨hindex ▸ hmirrored.laid, hindex ▸ hmirrored.holds⟩

/-- An index can be read after a call, where from the opening on the system refuses nothing. -/
theorem readable_of_run {data : Location} {host host' : Host} {s : Store R}
    (hopen : Store.open data host = .ok s host') {q : Request R} {a : Answer R} {desk : Desk R}
    (hrun : q.run ⟨s, host', []⟩ = .ok a desk) (hr : ∀ c p, host.disk.Permits c p) (i : Index) :
    i.Readable desk.host.disk := by
  have hlenient : host.disk.Lenient desk.host.disk :=
    (q.keeps_run (detached_lenient host.disk) ⟨s, host', []⟩ (lenient_of_open hopen)).of_ok hrun
  exact ⟨hlenient _ _ (hr _ _), hlenient _ _ (hr _ _), hlenient _ _ (hr _ _)⟩

/-- A pass that has read the index and has not absorbed it yet. -/
structure Pass (R : Type) where
  /-- the number of the version that it has read -/
  version : Nat
  reading : Reading R

structure Follower (R : Type) where
  store : Store R
  host : Host
  /-- the contents that the index file has had, `none` where there was no file -/
  versions : List (Option ByteArray)
  /-- the version that the records in memory are those of -/
  held : Nat := 0
  /-- the version that the store was opened on or wrote last -/
  own : Nat := 0
  passes : List (Pass R) := []
  /-- the versions that passes have taken over -/
  applied : List Nat := []

namespace Follower

def desk (f : Follower R) : Desk R := ⟨f.store, f.host, []⟩

/-- A store as it was opened. -/
def opened (s : Store R) (host : Host) : Follower R where
  store := s
  host := host
  versions := [host.disk.content? s.index.file.path]

/-- The index file was written on the way to a host. -/
def rewritten (f : Follower R) (host : Host) : Follower R where
  store := f.store
  host := host
  versions := f.versions ++ [host.disk.content? f.store.index.file.path]
  held := f.held
  own := f.own
  passes := f.passes
  applied := f.applied

/-- One step of a store, of its passes or of others. The write generation of a pass may have been
looked at long before the pass reads the index. -/
inductive Step (f : Follower R) : Follower R → Prop where
  | wrote {q : Request R} {a : Answer R} {r : R} {desk : Desk R} (run : q.run f.desk = .ok a desk)
      (written : a.record? = some r) : Step f { f.rewritten desk.host with
        store := desk.store
        held := f.versions.length
        own := f.versions.length }
  | failed {q : Request R} {e : StoreError} {desk : Desk R} (run : q.run f.desk = .error e desk) :
      Step f { f with store := desk.store, host := desk.host }
  | foreign (host : Host) : Step f (f.rewritten host)
  | elsewhere {host : Host} (same : host.disk.content? f.store.index.file.path =
      f.host.disk.content? f.store.index.file.path) : Step f { f with host }
  | read {generation : Nat} {loaded : Index.Loaded R} {disk : Disk}
      (seen : generation ≤ f.store.generation)
      (run : f.store.index.read f.host.disk = .ok loaded disk) : Step f { f with
        host := { f.host with disk }
        passes := f.passes ++ [⟨f.versions.length - 1, generation, loaded⟩] }
  | unread {e : StoreError} {disk : Disk}
      (run : Index.read (R := R) f.store.index f.host.disk = .error e disk) :
      Step f { f with host := { f.host with disk } }
  | absorbed {before after : List (Pass R)} {pass : Pass R} {outcome : Absorbed} {desk : Desk R}
      (passes : f.passes = before ++ pass :: after)
      (run : absorb pass.reading f.desk = .ok outcome desk) (fresh : outcome ≠ .stale) :
      Step f { f with
        store := desk.store
        host := desk.host
        held := pass.version
        passes := before ++ after
        applied := pass.version :: f.applied }
  /-- the write generation has gone up since the pass looked at it, or its digest was known -/
  | discarded {before after : List (Pass R)} {pass : Pass R}
      (passes : f.passes = before ++ pass :: after) : Step f { f with passes := before ++ after }

/-- A pass is applied after one that had read a later version. -/
inductive Overtaken (f : Follower R) : Follower R → Prop where
  | intro {before after : List (Pass R)} {pass : Pass R} {outcome : Absorbed} {desk : Desk R}
      {later : Nat} (passes : f.passes = before ++ pass :: after)
      (run : absorb pass.reading f.desk = .ok outcome desk) (fresh : outcome ≠ .stale)
      (applied : later ∈ f.applied) (older : pass.version < later) : Overtaken f { f with
        store := desk.store
        host := desk.host
        held := pass.version
        passes := before ++ after
        applied := pass.version :: f.applied }

/-- This is what the version of that number gives. -/
def Shows (f : Follower R) (n : Nat) (loaded : Index.Loaded R) : Prop :=
  ∃ content?, f.versions[n]? = some content? ∧ Index.Gives content? loaded

/-- What the store has in memory. -/
def inMemory (f : Follower R) : Index.Loaded R := ⟨f.store.records, f.store.digest⟩

/-- A pass has read the version that it says, and if no write of the store has overtaken it, that
version is not older than the store's own last one. -/
structure PassOk (f : Follower R) (pass : Pass R) : Prop where
  shows : f.Shows pass.version pass.reading.loaded
  seen : pass.reading.generation ≤ f.store.generation
  current : pass.reading.generation = f.store.generation → f.own ≤ pass.version

structure Sound (i : Index) (f : Follower R) : Prop where
  index : f.store.index = i
  latest : f.versions.getLast? = some (f.host.disk.content? i.file.path)
  held : f.Shows f.held f.inMemory
  own_le : f.own ≤ f.held
  origin : f.held = f.own ∨ f.held ∈ f.applied
  passes : ∀ pass ∈ f.passes, f.PassOk pass

variable {f f' : Follower R} {i : Index}

theorem Shows.append {n : Nat} {loaded : Index.Loaded R} (h : f.Shows n loaded)
    {more : List (Option ByteArray)} (hv : f'.versions = f.versions ++ more) :
    f'.Shows n loaded := by
  obtain ⟨content?, hn, hg⟩ := h
  exact ⟨content?, by rw [hv, List.getElem?_append_left (List.getElem?_eq_some_iff.1 hn).1, hn], hg⟩

theorem Shows.lt_length {n : Nat} {loaded : Index.Loaded R} (h : f.Shows n loaded) :
    n < f.versions.length := by
  obtain ⟨content?, hn, -⟩ := h
  exact (List.getElem?_eq_some_iff.1 hn).1

/-- The last version is what is on disk. -/
theorem shows_last {content? : Option ByteArray} (h : f.versions.getLast? = some content?)
    {loaded : Index.Loaded R} (hg : Index.Gives content? loaded) :
    f.Shows (f.versions.length - 1) loaded :=
  ⟨content?, by rw [← List.getLast?_eq_getElem?, h], hg⟩

theorem PassOk.append {pass : Pass R} (h : f.PassOk pass) {more : List (Option ByteArray)}
    (hv : f'.versions = f.versions ++ more) (hs : f'.store.generation = f.store.generation)
    (ho : f'.own = f.own) : f'.PassOk pass :=
  ⟨h.shows.append hv, hs ▸ h.seen, fun hg => ho ▸ h.current (hs ▸ hg)⟩

theorem sound_opened {data : Location} {s : Store R} {host host' : Host}
    (hopen : Store.open data host = .ok s host') :
    (opened s host').Sound (Index.ofData R data) := by
  obtain ⟨loaded, disk, hread, rfl, rfl⟩ := eq_of_open hopen
  obtain ⟨-, -, hh⟩ := Index.leads_indexRead.of_ok hread
  refine ⟨rfl, rfl, ?_, Nat.le_refl 0, Or.inl rfl, by simp [opened]⟩
  exact ⟨_, rfl, Index.holds_iff_gives.1 hh⟩

omit [Record R] in
theorem mem_of_split {before after : List (Pass R)} {pass : Pass R}
    (h : f.passes = before ++ pass :: after) {other : Pass R} (ho : other ∈ before ++ after) :
    other ∈ f.passes := by
  rw [h]
  exact List.perm_middle.symm.subset (List.mem_cons_of_mem pass ho)

/-- Nothing happened to the records in memory and to the file. -/
theorem Sound.keep (h : f.Sound i) (hstore : f'.store = f.store)
    (hcontent : f'.host.disk.content? i.file.path = f.host.disk.content? i.file.path)
    (hversions : f'.versions = f.versions) (hheld : f'.held = f.held) (hown : f'.own = f.own)
    (happlied : f'.applied = f.applied) (hpasses : ∀ pass ∈ f'.passes, f.PassOk pass) :
    f'.Sound i := by
  have hmore : f'.versions = f.versions ++ [] := by rw [hversions, List.append_nil]
  refine ⟨hstore ▸ h.index, ?_, ?_, ?_, ?_, fun pass hp => ?_⟩
  · rw [hversions, hcontent]
    exact h.latest
  · rw [hheld, inMemory, hstore]
    exact h.held.append hmore
  · rw [hheld, hown]
    exact h.own_le
  · rw [hheld, hown, happlied]
    exact h.origin
  · exact (hpasses pass hp).append hmore (by rw [hstore]) hown

theorem Sound.foreign (h : f.Sound i) (host : Host) : (f.rewritten host).Sound i := by
  refine ⟨h.index, ?_, h.held.append rfl, h.own_le, h.origin, fun pass hp => ?_⟩
  · rw [rewritten, List.getLast?_concat, h.index]
  · exact (h.passes pass hp).append rfl rfl rfl

theorem Sound.read (h : f.Sound i) {generation : Nat} {loaded : Index.Loaded R} {disk : Disk}
    (seen : generation ≤ f.store.generation)
    (run : f.store.index.read f.host.disk = .ok loaded disk) :
    f.PassOk ⟨f.versions.length - 1, generation, loaded⟩ := by
  obtain ⟨hkept, -, hholds⟩ := Index.leads_indexRead.of_ok run
  have hbefore : f.store.index.Holds f.host.disk loaded :=
    hholds.of_content?_eq hkept.content?_eq.symm
  rw [h.index] at hbefore
  refine ⟨shows_last h.latest (Index.holds_iff_gives.1 hbefore), seen, fun _ => ?_⟩
  have hle := h.own_le
  have hlt := h.held.lt_length
  change f.own ≤ f.versions.length - 1
  omega

/-- A pass that is absorbed has read what no write of the store has replaced since. -/
theorem PassOk.own_le {pass : Pass R} {outcome : Absorbed} {desk : Desk R} (h : f.PassOk pass)
    (run : absorb pass.reading f.desk = .ok outcome desk) (fresh : outcome ≠ .stale) :
    f.own ≤ pass.version ∧ TookOver f.desk pass.reading.loaded desk := by
  rcases (leads_absorb _).of_ok run with ⟨hstale, -, -⟩ | ⟨-, hgeneration, htook⟩
  · exact absurd hstale fresh
  · exact ⟨h.current hgeneration, htook⟩

theorem Sound.absorbed (h : f.Sound i) {before after : List (Pass R)} {pass : Pass R}
    {outcome : Absorbed} {desk : Desk R} (passes : f.passes = before ++ pass :: after)
    (run : absorb pass.reading f.desk = .ok outcome desk) (fresh : outcome ≠ .stale) :
    Sound i { f with
      store := desk.store
      host := desk.host
      held := pass.version
      passes := before ++ after
      applied := pass.version :: f.applied } := by
  have hpass := h.passes pass (by simp [passes])
  obtain ⟨hown, htook⟩ := hpass.own_le run fresh
  have hstore := htook.store
  have hcontent := htook.disk.content?_eq
  have hindex : desk.store.index = i := by
    rw [hstore]
    exact h.index
  refine ⟨hindex, ?_, ?_, hown, Or.inr List.mem_cons_self, fun other ho => ?_⟩
  · have hi : f.desk.store.index = i := h.index
    rw [hi] at hcontent
    rw [hcontent]
    exact h.latest
  · simp only [inMemory, hstore]
    exact hpass.shows
  · have hgeneration : desk.store.generation = f.store.generation := by
      rw [hstore]
      rfl
    exact (h.passes other (mem_of_split passes ho)).append (List.append_nil _).symm hgeneration rfl

variable [LawfulRecord R]

theorem Sound.wrote (h : f.Sound i) {q : Request R} {a : Answer R} {r : R} {desk : Desk R}
    (run : q.run f.desk = .ok a desk) (written : a.record? = some r) :
    Sound i { f.rewritten desk.host with
      store := desk.store
      held := f.versions.length
      own := f.versions.length } := by
  have hi : f.desk.store.index = i := h.index
  cases q.leads_run.of_ok run with
  | idle => cases written
  | tookOver => cases written
  | changed tells edit committed =>
    obtain ⟨content, -, -, hstore⟩ := committed.written
    have hindex : desk.store.index = i := by
      rw [hstore]
      exact hi
    obtain ⟨_, -, hbefore⟩ := h.held
    have hheld := Index.holds_iff_gives.1 (committed.holds (edit.allRegular hbefore.allRegular))
    refine ⟨hindex, ?_, ?_, Nat.le_refl _, Or.inl rfl, fun pass hp => ?_⟩
    · rw [rewritten, List.getLast?_concat, h.index]
    · exact ⟨_, List.getElem?_concat_length, hheld⟩
    · have hpass := h.passes pass hp
      have hgeneration : desk.store.generation = f.store.generation + 1 := by
        rw [hstore]
        rfl
      have hseen := hpass.seen
      refine ⟨hpass.shows.append rfl, ?_, fun hg => ?_⟩
      · change pass.reading.generation ≤ desk.store.generation
        omega
      · have hg : pass.reading.generation = desk.store.generation := hg
        omega

theorem Step.sound (hs : f.Step f') (h : f.Sound i) : f'.Sound i := by
  have hi : f.store.index = i := h.index
  cases hs with
  | wrote run written => exact h.wrote run written
  | failed run =>
    have hidle := (Request.leads_run _).of_error run
    have hcontent := hidle.disk.content?_eq
    have hindex : f.desk.store.index = i := hi
    rw [hindex] at hcontent
    exact h.keep hidle.store hcontent rfl rfl rfl rfl h.passes
  | foreign host => exact h.foreign host
  | elsewhere same => exact h.keep rfl (hi ▸ same) rfl rfl rfl rfl h.passes
  | read seen run =>
    have hcontent := (Index.leads_indexRead.of_ok run).1.content?_eq
    refine h.keep rfl (hi ▸ hcontent) rfl rfl rfl rfl fun pass hp => ?_
    rcases List.mem_append.1 hp with hp | hp
    · exact h.passes pass hp
    · obtain rfl := List.mem_singleton.1 hp
      exact h.read seen run
  | unread run =>
    have hcontent := (Index.leads_indexRead.of_error run).content?_eq
    exact h.keep rfl (hi ▸ hcontent) rfl rfl rfl rfl h.passes
  | absorbed passes run fresh => exact h.absorbed passes run fresh
  | discarded passes =>
    exact h.keep rfl rfl rfl rfl rfl rfl fun pass hp => h.passes pass (mem_of_split passes hp)

/-! ### Moving back -/

/-- No pass has taken over a later version than the one in memory. -/
def InOrder (f : Follower R) : Prop := ∀ n ∈ f.applied, n ≤ f.held

omit [LawfulRecord R] in
/-- The version in memory falls by no step but the application of a pass that was overtaken. -/
theorem Step.held_le (hs : f.Step f') (h : f.Sound i) (hn : ¬ f.Overtaken f') :
    f.held ≤ f'.held := by
  cases hs with
  | wrote run written => exact h.held.lt_length.le
  | @absorbed before after pass outcome desk passes run fresh =>
    have hpass := h.passes pass (by simp [passes])
    have hown := (hpass.own_le run fresh).1
    by_contra hlt
    have hlt := Nat.lt_of_not_le hlt
    rcases h.origin with horigin | horigin
    · rw [horigin] at hlt
      exact absurd hown (Nat.not_le_of_lt hlt)
    · exact hn (.intro passes run fresh horigin hlt)
  | _ => exact Nat.le_refl _

omit [LawfulRecord R] in
theorem Step.inOrder (hs : f.Step f') (h : f.Sound i) (ho : f.InOrder) (hn : ¬ f.Overtaken f') :
    f'.InOrder := by
  have hle := hs.held_le h hn
  cases hs with
  | absorbed passes run fresh =>
    intro n hmem
    rcases List.mem_cons.1 hmem with rfl | hmem
    · exact Nat.le_refl _
    · exact (ho n hmem).trans hle
  | _ => exact fun n hmem => (ho n hmem).trans hle

omit [LawfulRecord R] in
theorem Overtaken.held_lt (hv : f.Overtaken f') (ho : f.InOrder) : f'.held < f.held := by
  obtain ⟨passes, run, fresh, applied, older⟩ := hv
  exact Nat.lt_of_lt_of_le older (ho _ applied)

theorem held_le_iff_of_sound (later : List (Follower R)) (f : Follower R) (h : f.Sound i)
    (ho : f.InOrder) (hrun : (f :: later).IsChain Step) :
    ((f :: later).IsChain fun g g' => g.held ≤ g'.held) ↔
      (f :: later).IsChain fun g g' => ¬ g.Overtaken g' := by
  induction later generalizing f with
  | nil => simp
  | cons f' later ih =>
    rw [List.isChain_cons_cons] at hrun ⊢
    rw [List.isChain_cons_cons]
    obtain ⟨hs, hrun⟩ := hrun
    constructor
    · rintro ⟨hle, hrest⟩
      have hn : ¬ f.Overtaken f' := fun hv => Nat.not_le_of_lt (hv.held_lt ho) hle
      exact ⟨hn, (ih f' (hs.sound h) (hs.inOrder h ho hn) hrun).1 hrest⟩
    · rintro ⟨hn, hrest⟩
      exact ⟨hs.held_le h hn, (ih f' (hs.sound h) (hs.inOrder h ho hn) hrun).2 hrest⟩

end Follower

open Follower in
/-- The records in memory are those of one version of the index at every moment, and of none before
the store's own last write. In the course of a run that version never falls, exactly as long as no
pass is applied after one that had read a later version. -/
theorem Follower.held_never_falls_iff (e : Entity) {data : Location} {host host' : Host}
    {s : Store e.Rec} (hopen : Store.open data host = .ok s host') {later : List (Follower e.Rec)}
    (hrun : (opened s host' :: later).IsChain Step) :
    (∀ f ∈ opened s host' :: later, f.Shows f.held f.inMemory ∧ f.own ≤ f.held) ∧
    (((opened s host' :: later).IsChain fun f f' => f.held ≤ f'.held) ↔
      (opened s host' :: later).IsChain fun f f' => ¬ f.Overtaken f') := by
  have hsound := sound_opened hopen
  refine ⟨fun f hf => ?_, held_le_iff_of_sound later _ hsound (fun _ h => nomatch h) hrun⟩
  have hf : f.Sound (Index.ofData e.Rec data) :=
    hrun.induction (Sound (Index.ofData e.Rec data)) _ (fun _ _ hs h => hs.sound h)
      (fun _ => hsound) f hf
  exact ⟨hf.held, hf.own_le⟩

/-- A store makes a role, another process removes the file, and a pass takes that over. -/
theorem Follower.held_never_falls_followed : ∃ (data : Location) (host host' : Host)
    (s : Store Role) (f g k l : Follower Role), Store.open data host = .ok s host' ∧
    [opened s host', f, g, k, l].IsChain Step ∧ [f.held, g.held, k.held, l.held] = [1, 1, 1, 2] ∧
    f.store.records.map Role.name = ["first"] ∧ l.store.records = [] ∧
    [opened s host', f, g, k, l].IsChain fun f f' => f.held ≤ f'.held := by
  let data : Location := ⟨["data"], "/data"⟩
  let host : Host := { ids := fun _ => "x", times := fun _ => .epoch }
  let request : Request Role := .create ({ name := "first" } : Role.Draft)
  let x : Role := ⟨"x", "first", "", .epoch, .epoch⟩
  let without (s : Store Role) (h : Host) : Host :=
    { h with disk := h.disk.unset s.index.file.path }
  have hrun : ((done? (Store.open (R := Role) data host)).bind fun a =>
      (done? (request.run ⟨a.1, a.2, []⟩)).bind fun b =>
      (done? (Index.read (R := Role) b.2.store.index
        (without b.2.store b.2.host).disk)).bind fun c =>
      (done? (absorb ⟨1, c.1⟩ ⟨b.2.store, { b.2.host with disk := c.2 }, []⟩)).map fun d =>
        (b.1, b.2.store.records, b.2.store.generation, d.1, d.2.store.records)) =
      some (.created x, [x], 1, .applied 1, []) := by
    decide +kernel
  simp only [Option.bind_eq_some_iff, Option.map_eq_some_iff, Prod.exists, Prod.mk.injEq,
    done?_eq_some] at hrun
  obtain ⟨s, h₁, hopen, _, made, hx, loaded, disk, hread, _, took, habsorb, rfl, hmade,
    hgeneration, rfl, hrecords⟩ := hrun
  let f₀ := opened s h₁
  let f₁ : Follower Role := { f₀.rewritten made.host with
    store := made.store
    held := 1
    own := 1 }
  let f₂ := f₁.rewritten (without made.store made.host)
  let pass : Pass Role := ⟨2, 1, loaded⟩
  let f₃ : Follower Role := { f₂ with host := { f₂.host with disk }, passes := [pass] }
  let f₄ : Follower Role := { f₃ with
    store := took.store
    host := took.host
    held := 2
    passes := []
    applied := [2] }
  have hs₁ : f₀.Step f₁ := .wrote hx rfl
  have hs₂ : f₁.Step f₂ := .foreign _
  have hs₃ : f₂.Step f₃ := .read hgeneration.ge hread
  have hpasses : f₃.passes = [] ++ pass :: [] := rfl
  have happlied : Absorbed.applied 1 ≠ .stale := by simp
  have hs₄ : f₃.Step f₄ := .absorbed hpasses habsorb happlied
  have hrun : [f₀, f₁, f₂, f₃, f₄].IsChain Step :=
    .cons_cons hs₁ (.cons_cons hs₂ (.cons_cons hs₃ (.cons_cons hs₄ (.singleton _))))
  -- no pass was applied before the last step, so none can have been overtaken
  have hnew : ∀ g ∈ [f₀, f₁, f₂, f₃], ∀ g', ¬ g.Overtaken g' := by
    intro g hg g' ho
    obtain ⟨-, -, -, happlied, -⟩ := ho
    have hnone : g.applied = [] := by
      simp only [List.mem_cons, List.not_mem_nil, or_false] at hg
      rcases hg with rfl | rfl | rfl | rfl <;> rfl
    rw [hnone] at happlied
    cases happlied
  have hinOrder : [f₀, f₁, f₂, f₃, f₄].IsChain fun g g' => ¬ g.Overtaken g' :=
    .cons_cons (hnew _ (by simp) _) (.cons_cons (hnew _ (by simp) _)
      (.cons_cons (hnew _ (by simp) _) (.cons_cons (hnew _ (by simp) _) (.singleton _))))
  refine ⟨data, host, h₁, s, f₁, f₂, f₃, f₄, hopen, hrun, rfl, ?_, hrecords, ?_⟩
  · change made.store.records.map Role.name = ["first"]
    rw [hmade]
    rfl
  · exact (Follower.held_never_falls_iff .role hopen hrun).2.2 hinOrder

open Follower in
/-- A pass reads an empty index. Another process then makes a role, and a second pass takes it over.
When the first pass is applied after that, the role is gone from memory. -/
theorem Follower.overtaken_pass_moves_back : ¬ ∀ (data : Location) (host host' : Host)
    (s : Store Role) (later : List (Follower Role)), Store.open data host = .ok s host' →
    (opened s host' :: later).IsChain Step →
    (opened s host' :: later).IsChain fun f f' => f.held ≤ f'.held := by
  let data : Location := ⟨["data"], "/data"⟩
  let host : Host := { ids := fun _ => "x", times := fun _ => .epoch }
  let request : Request Role := .create ({ name := "first" } : Role.Draft)
  let x : Role := ⟨"x", "first", "", .epoch, .epoch⟩
  have hrun : ((done? (Store.open (R := Role) data host)).bind fun a =>
      (done? (Index.read (R := Role) a.1.index a.2.disk)).bind fun b =>
      (done? (Store.open (R := Role) data { a.2 with disk := b.2 })).bind fun c =>
      (done? (request.run ⟨c.1, c.2, []⟩)).map fun d =>
        (a.1.generation, d.1)) = some (0, .created x) := by
    decide +kernel
  simp only [Option.bind_eq_some_iff, Option.map_eq_some_iff, Prod.exists, Prod.mk.injEq,
    done?_eq_some] at hrun
  obtain ⟨s, h₁, hopen, early, d₁, hearly, other, h₂, hother, _, made, hx, hgeneration, rfl⟩ := hrun
  obtain ⟨hlaid, hholds⟩ := laid_and_holds_of_run hother hx
  rw [← (World.content?_of_open hopen).1] at hlaid hholds
  have hlenient : host.disk.Lenient d₁ :=
    (Index.keeps_indexRead h₁.disk (lenient_of_open hopen)).of_ok hearly
  have hreadable :=
    readable_of_run hother hx (fun c p => hlenient c p fun _ _ => rfl) s.index
  obtain ⟨d₂, hsecondRead, -⟩ := Index.indexRead_eq_ok hlaid.clear hreadable hholds
  let first : Pass Role := ⟨0, 0, early⟩
  let second : Pass Role := ⟨1, 0, ⟨made.store.records, made.store.digest⟩⟩
  let f₀ := opened s h₁
  let f₁ : Follower Role := { f₀ with
    host := { h₁ with disk := d₁ }
    passes := [first] }
  let f₂ := f₁.rewritten made.host
  let f₃ : Follower Role := { f₂ with
    host := { made.host with disk := d₂ }
    passes := [first, second] }
  have hs₁ : f₀.Step f₁ := .read hgeneration.ge hearly
  have hs₂ : f₁.Step f₂ := .foreign made.host
  have hs₃ : f₂.Step f₃ := .read hgeneration.ge hsecondRead
  have hfresh : second.reading.generation = f₃.desk.store.generation := hgeneration.symm
  obtain ⟨desk, hsecond, htook⟩ := absorb_eq_ok hfresh
  let f₄ : Follower Role := { f₃ with
    store := desk.store
    host := desk.host
    held := 1
    passes := [first]
    applied := [1] }
  have hpasses : f₃.passes = [first] ++ second :: [] := rfl
  have hs₄ : f₃.Step f₄ := .absorbed hpasses hsecond (Absorbed.taken_ne_stale _)
  have hgeneration' : desk.store.generation = 0 := by
    rw [htook.store]
    exact hgeneration
  have hlate : first.reading.generation = f₄.desk.store.generation := hgeneration'.symm
  obtain ⟨desk', hfirst, -⟩ := absorb_eq_ok hlate
  have hlast : f₄.passes = [] ++ first :: [] := rfl
  have hs₅ : f₄.Step { f₄ with
      store := desk'.store
      host := desk'.host
      held := 0
      passes := []
      applied := [0, 1] } :=
    .absorbed hlast hfirst (Absorbed.taken_ne_stale _)
  intro h
  have hle := h data host h₁ s _ hopen (.cons_cons hs₁ (.cons_cons hs₂ (.cons_cons hs₃
    (.cons_cons hs₄ (.cons_cons hs₅ (.singleton _))))))
  simp only [List.isChain_cons_cons] at hle
  have hback : 1 ≤ 0 := hle.2.2.2.2.1
  omega

end Store

end WorkQueue
