import WorkQueue.Proofs.Store.Processes
import WorkQueue.Proofs.Work.Activity
import WorkQueue.Store.Switches

/-!
# Where stores are kept

No call moves a store to another index, and identities are taken from one supply, one after another.
This holds of every commit of a call, and however the call ends.
-/

namespace WorkQueue

namespace Store

variable {R : Type} [Record R]

/-- The store is kept in this index, and at least so many identities of this supply were taken. -/
structure Based (i : Index) (supply : (Nat → String) × Nat) (s : Store R) (host : Host) : Prop where
  index : s.index = i
  ids : host.ids = supply.1
  taken : supply.2 ≤ host.minted

/-- The same of a call, and of each of its commits. -/
structure Rooted (i : Index) (supply : (Nat → String) × Nat) (desk : Desk R) : Prop where
  last : Based i supply desk.store desk.host
  commits : ∀ c ∈ desk.commits, Based i supply c.store c.host

variable {i : Index} {supply : (Nat → String) × Nat} {desk : Desk R}

omit [Record R] in
theorem rooted_start {s : Store R} {host : Host} (h : Based i supply s host) :
    Rooted i supply ⟨s, host, []⟩ :=
  ⟨h, fun _ hc => nomatch hc⟩

omit [Record R] in
theorem Rooted.announced (h : Rooted i supply desk) (events : List (Event R)) :
    Rooted i supply { desk with commits := desk.commits ++ [⟨events, desk.store, desk.host⟩] } where
  last := h.last
  commits := by
    intro c hc
    rcases List.mem_append.1 hc with hc | hc
    · exact h.commits c hc
    · obtain rfl := List.mem_singleton.1 hc
      exact h.last

omit [Record R] in
theorem Rooted.onDisk (h : Rooted i supply desk) (disk : Disk) :
    Rooted i supply { desk with host := { desk.host with disk } } :=
  ⟨⟨h.last.index, h.last.ids, h.last.taken⟩, h.commits⟩

theorem detached_rooted (i : Index) (supply : (Nat → String) × Nat) :
    Detached (Rooted (R := R) i supply) where
  store _ same h := ⟨⟨same.trans h.last.index, h.last.ids, h.last.taken⟩, h.commits⟩
  clock h := ⟨⟨h.last.index, h.last.ids, h.last.taken⟩, h.commits⟩
  write _ h := leads_iff.2 ⟨fun _ _ _ => h.onDisk _, fun _ _ _ => h.onDisk _⟩
  announced events h := h.announced events
  id h := ⟨⟨h.last.index, h.last.ids, Nat.le_succ_of_le h.last.taken⟩, h.commits⟩
  read h := leads_iff.2 ⟨fun _ _ _ => h.onDisk _, fun _ _ _ => h.onDisk _⟩

end Store

variable {i : Index} {supply : (Nat → String) × Nat}

theorem Work.Request.keeps_run_rooted (q : Work.Request) :
    Keeps (Store.Rooted i supply) q.run := by
  have hR := Store.detached_rooted (R := Work) i supply
  have hI := hR.toBlind
  cases q with
  | create draft =>
    apply (Store.keeps_newId hR).bind
    intro id
    exact Store.keeps_createWith hI id draft _
  | update id patch => exact Work.keeps_update hI id patch
  | start id session => exact Work.keeps_update hI id _
  | markDone id => exact Work.keeps_update hI id _
  | close id => exact Work.keeps_update hI id _
  | delete id => exact Store.keeps_delete hI id

theorem Settings.keeps_setAutorun_rooted (on : Bool) :
    Keeps (Store.Rooted i supply) (Settings.setAutorun on) := by
  have hI := (Store.detached_rooted (R := Settings) i supply).toBlind
  apply keeps_get_bind
  intro desk
  cases desk.store.list.head? with
  | some existing => exact Store.keeps_update hI _ _
  | none => exact Store.keeps_create hI _ _

end WorkQueue
