import Mathlib.Data.List.Forall2
import Mathlib.Data.List.Nodup
import Mathlib.Logic.Relation
import WorkQueue.Proofs.Store.Turns
import WorkQueue.Proofs.Store.World

/-!
# What listeners are called with

Any number of writers change one store, each commit takes its turn, and in its turn every listener
is called with every event of the commit. Other calls on the store, writes of other processes and
new listeners may come between any two of these steps. A call that fails and an index that differs
in nothing make no commit, so that the commits are numbered without a gap, and each revision has its
turn. A listener that panics ends the turn, and the next revision can have its own.
-/

namespace WorkQueue.Store

variable {R : Type}

/-- A call of a listener. Listeners are numbered in the order in which they were added. -/
structure Notice (R : Type) where
  listener : Nat
  event : Event R

/-- The calls of a turn: with the first event all listeners, then with the second all of them. -/
def notices (listeners : Nat) (events : List (Event R)) : List (Notice R) :=
  events.flatMap fun e => (List.range listeners).map fun l => ⟨l, e⟩

/-- A turn, from when it opens. -/
structure Delivery (R : Type) where
  revision : Nat
  /-- how many listeners there were when it opened -/
  listeners : Nat
  made : List (Notice R) := []
  due : List (Notice R)
  panicked : Bool := false

/-- The turn of a commit as it opens. -/
def Ticket.delivery (ticket : Ticket R) (listeners : Nat) : Delivery R where
  revision := ticket.revision
  listeners
  due := notices listeners ticket.events

namespace Delivery

/-- The next call is made, which leaves these. -/
def call (d : Delivery R) (notice : Notice R) (due : List (Notice R)) : Delivery R :=
  { d with made := d.made ++ [notice], due }

/-- What a listener has been called with. -/
def heard (d : Delivery R) (l : Nat) : List (Event R) :=
  (d.made.filter fun n => n.listener = l).map Notice.event

/-- The turn is that of the commit. -/
structure Serves (d : Delivery R) (ticket : Ticket R) : Prop where
  revision : d.revision = ticket.revision
  calls : d.made ++ d.due = notices d.listeners ticket.events

end Delivery

structure Writers (R : Type) where
  process : Process R
  host : Host
  listeners : Nat := 0
  committed : List (Ticket R) := []
  /-- the commits that have not had their turn -/
  waiting : List (Ticket R) := []
  /-- the turns that are open -/
  turns : List (Delivery R) := []
  /-- the turns that have ended -/
  ended : List (Delivery R) := []
  /-- the last revision whose turn has ended -/
  delivered : Nat := 0

def Commit.ticket (c : Commit R) : Ticket R := ⟨c.store.revision, c.events⟩

namespace Writers

/-- The writers of a store that has just been opened. -/
def start (s : Store R) (host : Host) : Writers R := { process := ⟨s, []⟩, host }

/-- The turns in the order in which they were opened. -/
def opened (w : Writers R) : List (Delivery R) := w.ended ++ w.turns

/-- The writers at the counter, whoever is called. -/
def turnstile (w : Writers R) : Turnstile R where
  waiting := w.waiting
  turns := w.turns.map fun d => ⟨d.revision, []⟩
  delivered := w.delivered

end Writers

/-! ### What a turn calls its listeners with -/

namespace Delivery

variable {d : Delivery R} {ticket : Ticket R}

theorem filter_notices (listeners : Nat) (events : List (Event R)) (l : Nat) :
    ((notices listeners events).filter fun n => n.listener = l).map Notice.event =
      if l < listeners then events else [] := by
  have hone (e : Event R) : (((List.range listeners).map fun m => (⟨m, e⟩ : Notice R)).filter
      fun n => n.listener = l).map Notice.event = if l < listeners then [e] else [] := by
    rw [List.filter_map, List.map_map]
    have hfilter : (List.range listeners).filter (fun m => m = l) =
        if l < listeners then [l] else [] := by
      rw [List.filter_eq, List.nodup_range.count]
      simp only [List.mem_range]
      split <;> rfl
    change ((List.range listeners).filter fun m => m = l).map (fun _ => e) = _
    rw [hfilter]
    split <;> rfl
  induction events with
  | nil => simp [notices]
  | cons e events ih =>
    have hcons : notices listeners (e :: events) =
        ((List.range listeners).map fun m => ⟨m, e⟩) ++ notices listeners events := rfl
    rw [hcons, List.filter_append, List.map_append, ih, hone]
    split <;> rfl

theorem Serves.heard_prefix (h : d.Serves ticket) (l : Nat) : d.heard l <+: ticket.events := by
  have hmade : d.made <+: notices d.listeners ticket.events := ⟨d.due, h.calls⟩
  have hheard := (hmade.filter fun n => n.listener = l).map Notice.event
  rw [filter_notices] at hheard
  by_cases hl : l < d.listeners
  · rwa [if_pos hl] at hheard
  · rw [if_neg hl, List.prefix_nil] at hheard
    rw [heard, hheard]
    exact List.nil_prefix

theorem Serves.heard_eq (h : d.Serves ticket) (hdone : d.due = []) {l : Nat}
    (hl : l < d.listeners) : d.heard l = ticket.events := by
  have hmade := h.calls
  rw [hdone, List.append_nil] at hmade
  rw [heard, hmade, filter_notices, if_pos hl]

theorem Serves.call (h : d.Serves ticket) {notice : Notice R} {due : List (Notice R)}
    (next : d.due = notice :: due) : (d.call notice due).Serves ticket where
  revision := h.revision
  calls := by
    have hcalls := h.calls
    rw [next] at hcalls
    simpa [Delivery.call] using hcalls

theorem heard_sublist {ds : List (Delivery R)} {tickets : List (Ticket R)}
    (h : List.Forall₂ Delivery.Serves ds tickets) (l : Nat) :
    (ds.flatMap fun d => d.heard l).Sublist (tickets.flatMap Ticket.events) := by
  induction h with
  | nil => exact .slnil
  | cons hd _ ih =>
    rw [List.flatMap_cons, List.flatMap_cons]
    exact (hd.heard_prefix l).sublist.append ih

theorem revisions_eq {ds : List (Delivery R)} {tickets : List (Ticket R)}
    (h : List.Forall₂ Delivery.Serves ds tickets) :
    ds.map Delivery.revision = tickets.map Ticket.revision := by
  induction h with
  | nil => rfl
  | cons hd _ ih => rw [List.map_cons, List.map_cons, hd.revision, ih]

end Delivery

/-! ### Commits and turns -/

theorem forall₂_replace {α β : Type} {S : α → β → Prop} {xs zs : List α} {ys : List β} {x x' : α}
    (h : List.Forall₂ S (xs ++ x :: zs) ys) (hx : ∀ y, S x y → S x' y) :
    List.Forall₂ S (xs ++ x' :: zs) ys := by
  induction xs generalizing ys with
  | nil =>
    cases h with
    | cons hhead htail => exact .cons (hx _ hhead) htail
  | cons x₀ xs ih =>
    cases h with
    | cons hhead htail => exact .cons hhead (ih htail)

namespace Writers

/-- What holds of the writers of a store at every moment. -/
structure Paced (w : Writers R) : Prop where
  ordered : w.turnstile.Ordered (w.committed.flatMap Ticket.events) w.process.store.revision
  numbered : w.committed.map Ticket.revision = List.range' 1 w.process.store.revision
  waiting : ∀ ticket ∈ w.waiting, ticket ∈ w.committed
  delivered : w.delivered = w.ended.length
  serves : List.Forall₂ Delivery.Serves w.opened (w.committed.take w.opened.length)
  ended : ∀ d ∈ w.ended, d.due = [] ∨ d.panicked = true

variable {w : Writers R}

theorem paced_start {s : Store R} {host : Host} (hs : s.revision = 0) : (start s host).Paced where
  ordered := by
    rw [start, hs]
    exact Turnstile.ordered_empty
  numbered := by
    rw [start, hs]
    rfl
  waiting := by simp [start]
  delivered := rfl
  serves := .nil
  ended := by simp [start]

theorem Paced.length_opened_le (h : w.Paced) : w.opened.length ≤ w.committed.length := by
  have hlength := h.serves.length_eq
  rw [List.length_take] at hlength
  omega

theorem Paced.length_committed (h : w.Paced) :
    w.committed.length = w.process.store.revision := by
  simpa using congrArg List.length h.numbered

/-- The commits stand in the order of their revisions. -/
theorem Paced.committed_eq (h : w.Paced) {ticket : Ticket R} (ht : ticket ∈ w.committed) :
    0 < ticket.revision ∧ w.committed[ticket.revision - 1]? = some ticket := by
  obtain ⟨i, hi, rfl⟩ := List.mem_iff_getElem.1 ht
  have hlength := h.length_committed
  have hget := congrArg (·[i]?) h.numbered
  rw [List.getElem?_map, List.getElem?_eq_getElem hi, List.getElem?_range' (by omega)] at hget
  have hrevision : w.committed[i].revision = 1 + 1 * i := Option.some.inj hget
  have hindex : w.committed[i].revision - 1 = i := by omega
  constructor
  · omega
  · rw [hindex]
    exact List.getElem?_eq_getElem hi

/-- The one turn that is open is that of the next revision. -/
theorem Paced.turns_eq (h : w.Paced) {before after : List (Delivery R)} {d : Delivery R}
    (hturns : w.turns = before ++ d :: after) :
    before = [] ∧ after = [] ∧ d.revision = w.delivered + 1 := by
  have hmap : w.turnstile.turns = before.map (fun d => ⟨d.revision, []⟩) ++
      ⟨d.revision, []⟩ :: after.map fun d => ⟨d.revision, []⟩ := by
    simp [turnstile, hturns]
  obtain ⟨hbefore, hafter, hrevision⟩ := h.ordered.turns_eq hmap
  exact ⟨List.map_eq_nil_iff.1 hbefore, List.map_eq_nil_iff.1 hafter, hrevision⟩

theorem Paced.revisions_opened (h : w.Paced) :
    w.opened.map Delivery.revision = List.range' 1 w.opened.length := by
  have hle := h.length_opened_le
  rw [h.length_committed] at hle
  rw [Delivery.revisions_eq h.serves, List.map_take, h.numbered]
  exact List.take_range'_of_length_ge hle

theorem Paced.single (h : w.Paced) : w.turns.length ≤ 1 := by
  rcases h.ordered.single with hnone | ⟨turn, hone, -⟩
  · simp [List.map_eq_nil_iff.1 hnone]
  · have hlength := congrArg List.length hone
    simp only [turnstile, List.length_map, List.length_singleton] at hlength
    omega

/-- The turns that have ended are those up to the counter. -/
theorem Paced.mem_ended (h : w.Paced) (r : Nat) (hturns : w.turns = []) :
    r ∈ w.ended.map Delivery.revision ↔ 0 < r ∧ r ≤ w.delivered := by
  have hopened : w.opened = w.ended := by rw [Writers.opened, hturns, List.append_nil]
  have hrevisions := h.revisions_opened
  rw [hopened] at hrevisions
  rw [hrevisions, List.mem_range'_1, h.delivered]
  omega

theorem Paced.settled (h : w.Paced) (hwaiting : w.waiting = []) (hturns : w.turns = []) :
    w.delivered = w.process.store.revision := by
  have hnone : ¬ (w.delivered < w.process.store.revision ∧
      w.process.store.revision ≤ w.process.store.revision) := by
    have hmem := h.ordered.mem_revisions w.process.store.revision
    have hempty : w.turnstile.revisions = [] := by
      simp [Turnstile.revisions, turnstile, hwaiting, hturns]
    rw [hempty] at hmem
    exact fun hlt => List.not_mem_nil (hmem.2 hlt)
  have hreached : w.delivered ≤ w.process.store.revision := h.ordered.reached
  omega

theorem Paced.enter (h : w.Paced) {before after : List (Ticket R)} {ticket : Ticket R}
    (hwaiting : w.waiting = before ++ ticket :: after)
    (hreached : ¬ w.delivered + 1 < ticket.revision) :
    Paced { w with
      waiting := before ++ after
      turns := w.turns ++ [ticket.delivery w.listeners] } := by
  obtain ⟨hturns, hrevision⟩ := h.ordered.enter hwaiting hreached
  have hturns : w.turns = [] := List.map_eq_nil_iff.1 hturns
  have hrevision : ticket.revision = w.delivered + 1 := hrevision
  have hopened : w.opened = w.ended := by rw [opened, hturns, List.append_nil]
  refine ⟨?_, h.numbered, ?_, h.delivered, ?_, h.ended⟩
  · have hstep : w.turnstile.Step false .entered _ := .enter hwaiting hreached
    have hordered := hstep.ordered h.ordered
    simpa [turnstile, Ticket.delivery] using hordered
  · intro other hother
    apply h.waiting
    rw [hwaiting]
    exact List.perm_middle.symm.subset (List.mem_cons_of_mem _ hother)
  · have hmem : ticket ∈ w.committed := h.waiting ticket (by simp [hwaiting])
    obtain ⟨-, hget⟩ := h.committed_eq hmem
    have hindex : ticket.revision - 1 = w.ended.length := by
      have hdelivered := h.delivered
      omega
    rw [hindex] at hget
    have hserves := h.serves
    rw [hopened] at hserves
    have hnew : (ticket.delivery w.listeners).Serves ticket := ⟨rfl, rfl⟩
    simp only [opened, hturns, List.nil_append, List.length_append, List.length_singleton]
    rw [List.take_add_one, hget]
    exact List.rel_append hserves (.cons hnew .nil)

theorem Paced.call (h : w.Paced) {before after : List (Delivery R)} {d : Delivery R}
    {notice : Notice R} {due : List (Notice R)} (hturns : w.turns = before ++ d :: after)
    (hnext : d.due = notice :: due) :
    Paced { w with turns := before ++ d.call notice due :: after } := by
  have hsame : turnstile { w with turns := before ++ d.call notice due :: after } =
      w.turnstile := by
    simp [turnstile, hturns, Delivery.call]
  refine ⟨hsame ▸ h.ordered, h.numbered, h.waiting, h.delivered, ?_, h.ended⟩
  have hserves := h.serves
  have hopened : w.opened = (w.ended ++ before) ++ d :: after := by
    rw [opened, hturns, List.append_assoc]
  rw [hopened] at hserves
  have hcalled := forall₂_replace hserves fun _ hd => hd.call hnext
  simpa [opened] using hcalled

/-- A turn ends with the calls it has made, or with one more. -/
theorem Paced.leave (h : w.Paced) {before after : List (Delivery R)} {d d' : Delivery R}
    (hturns : w.turns = before ++ d :: after)
    (hserves : ∀ ticket, d.Serves ticket → d'.Serves ticket)
    (hended : d'.due = [] ∨ d'.panicked = true) :
    Paced { w with
      turns := before ++ after
      ended := w.ended ++ [d']
      delivered := max w.delivered d.revision } := by
  obtain ⟨rfl, rfl, hrevision⟩ := h.turns_eq hturns
  refine ⟨?_, h.numbered, h.waiting, ?_, ?_, ?_⟩
  · have hone : w.turnstile.turns = [] ++ ⟨d.revision, []⟩ :: [] := by simp [turnstile, hturns]
    exact h.ordered.leave hone
  · have hdelivered := h.delivered
    simp only [List.length_append, List.length_singleton]
    omega
  · have hold := h.serves
    rw [opened, hturns] at hold
    have hnew := forall₂_replace hold hserves
    simpa [opened] using hnew
  · intro other hother
    rcases List.mem_append.1 hother with hother | hother
    · exact h.ended other hother
    · rw [List.mem_singleton.1 hother]
      exact hended

end Writers

/-! ### Steps -/

variable [Record R]

namespace Writers

/-- One step of some writer, of another process, or of whoever adds a listener. A turn ends when its
listeners have returned, or when one of them panics. -/
inductive Step (w : Writers R) : Writers R → Prop where
  | acted {a : Option (Answer R)} {commits : List (Commit R)} {p : Process R} {host : Host}
      (step : w.process.Step w.host a commits p host) :
      Step w { w with
        process := p
        host
        committed := w.committed ++ commits.map Commit.ticket
        waiting := w.waiting ++ commits.map Commit.ticket }
  | outside (host : Host) : Step w { w with host }
  | listened : Step w { w with listeners := w.listeners + 1 }
  | entered {before after : List (Ticket R)} {ticket : Ticket R}
      (waiting : w.waiting = before ++ ticket :: after)
      (reached : ¬ w.delivered + 1 < ticket.revision) :
      Step w { w with
        waiting := before ++ after
        turns := w.turns ++ [ticket.delivery w.listeners] }
  | called {before after : List (Delivery R)} {d : Delivery R} {notice : Notice R}
      {due : List (Notice R)} (turns : w.turns = before ++ d :: after)
      (next : d.due = notice :: due) :
      Step w { w with turns := before ++ d.call notice due :: after }
  | returned {before after : List (Delivery R)} {d : Delivery R}
      (turns : w.turns = before ++ d :: after) (done : d.due = []) :
      Step w { w with
        turns := before ++ after
        ended := w.ended ++ [d]
        delivered := max w.delivered d.revision }
  | panicked {before after : List (Delivery R)} {d : Delivery R} {notice : Notice R}
      {due : List (Notice R)} (turns : w.turns = before ++ d :: after)
      (next : d.due = notice :: due) :
      Step w { w with
        turns := before ++ after
        ended := w.ended ++ [{ d.call notice due with panicked := true }]
        delivered := max w.delivered d.revision }

variable {w w' : Writers R}

theorem Paced.acted [LawfulRecord R] (h : w.Paced) {a : Option (Answer R)}
    {commits : List (Commit R)} {p : Process R} {host : Host}
    (hs : w.process.Step w.host a commits p host) :
    Paced { w with
      process := p
      host
      committed := w.committed ++ commits.map Commit.ticket
      waiting := w.waiting ++ commits.map Commit.ticket } := by
  have hserves : List.Forall₂ Delivery.Serves w.opened
      ((w.committed ++ commits.map Commit.ticket).take w.opened.length) := by
    rw [List.take_append_of_le_length h.length_opened_le]
    exact h.serves
  have hwaiting : ∀ ticket ∈ w.waiting ++ commits.map Commit.ticket,
      ticket ∈ w.committed ++ commits.map Commit.ticket := by
    intro ticket ht
    rcases List.mem_append.1 ht with ht | ht
    · exact List.mem_append_left _ (h.waiting ticket ht)
    · exact List.mem_append_right _ ht
  rcases hs.numbered with ⟨rfl, hrevision⟩ | ⟨c, rfl, hrevision, hc, hstamped⟩
  · refine ⟨?_, ?_, hwaiting, h.delivered, hserves, h.ended⟩
    · simpa [turnstile, hrevision] using h.ordered
    · simpa [hrevision] using h.numbered
  · refine ⟨?_, ?_, hwaiting, h.delivered, hserves, h.ended⟩
    · have hjoin := h.ordered.join hc hstamped
      simpa [turnstile, Turnstile.join, hrevision, Commit.ticket] using hjoin
    · have hticket : (Commit.ticket c).revision = 1 + 1 * w.process.store.revision := by
        have hc : c.ticket.revision = w.process.store.revision + 1 := hc
        omega
      change (w.committed ++ [c.ticket]).map Ticket.revision = List.range' 1 p.store.revision
      rw [List.map_append, h.numbered, hrevision, List.range'_concat, ← hticket]
      rfl

theorem Step.paced [LawfulRecord R] (hs : w.Step w') (h : w.Paced) : w'.Paced := by
  cases hs with
  | acted step => exact h.acted step
  | outside host => exact ⟨h.ordered, h.numbered, h.waiting, h.delivered, h.serves, h.ended⟩
  | listened => exact ⟨h.ordered, h.numbered, h.waiting, h.delivered, h.serves, h.ended⟩
  | entered waiting reached => exact h.enter waiting reached
  | called turns next => exact h.call turns next
  | returned turns done => exact h.leave turns (fun _ hd => hd) (Or.inl done)
  | panicked turns next =>
    apply h.leave turns _ (Or.inr rfl)
    intro ticket hd
    exact ⟨(hd.call next).revision, (hd.call next).calls⟩

theorem paced_of_run [LawfulRecord R] (hrun : Relation.ReflTransGen Step w w') (h : w.Paced) :
    w'.Paced := by
  induction hrun with
  | refl => exact h
  | tail _ hs ih => exact hs.paced ih

/-! ### What the listeners get -/

/-- What is promised of the turns of a store at every moment. -/
structure InOrder (w : Writers R) : Prop where
  /-- the commits have the revisions up to that of the store, one after the other -/
  numbered : w.committed.map Ticket.revision = List.range' 1 w.process.store.revision
  refused : ∀ (q : Request R) e desk, q.run (w.process.desk w.host) = .error e desk →
    desk.commits = [] ∧ desk.store.revision = w.process.store.revision
  undiffering : ∀ (reading : Reading R) outcome desk,
    absorb reading (w.process.desk w.host) = .ok outcome desk →
    Change.diff w.process.store.records reading.loaded.records = [] →
    desk.commits = [] ∧ desk.store.revision = w.process.store.revision
  single : w.turns.length ≤ 1
  /-- turns open in the order of the revisions, and none is passed over -/
  opened : w.opened.map Delivery.revision = List.range' 1 w.opened.length
  /-- a listener is called with the events of a commit in their order, and with all of them where
  the turn returns -/
  calls : List.Forall₂ (fun d ticket => d.revision = ticket.revision ∧
      ∀ l, d.heard l <+: ticket.events ∧
        (d.due = [] → l < d.listeners → d.heard l = ticket.events))
    w.opened (w.committed.take w.opened.length)
  heard : ∀ l, (w.opened.flatMap fun d => d.heard l).Sublist (w.committed.flatMap Ticket.events)
  ended : ∀ d ∈ w.ended, d.due = [] ∨ d.panicked = true
  /-- where no turn is open, the first commit that has not had its turn can have it -/
  next : ∀ ticket ∈ w.committed, ticket.revision ∉ w.ended.map Delivery.revision → w.turns = [] →
    ∃ first ∈ w.waiting,
      (∀ other ∈ w.committed, other.revision ∉ w.ended.map Delivery.revision →
        first.revision ≤ other.revision) ∧
      ∃ w', w.Step w' ∧ w'.turns = [first.delivery w.listeners]
  settled : w.waiting = [] → w.turns = [] → w.delivered = w.process.store.revision

theorem Paced.next (h : w.Paced) {ticket : Ticket R} (ht : ticket ∈ w.committed)
    (hnew : ticket.revision ∉ w.ended.map Delivery.revision) (hturns : w.turns = []) :
    ∃ first ∈ w.waiting,
      (∀ other ∈ w.committed, other.revision ∉ w.ended.map Delivery.revision →
        first.revision ≤ other.revision) ∧
      ∃ w', w.Step w' ∧ w'.turns = [first.delivery w.listeners] := by
  have hlater (other : Ticket R) (hother : other ∈ w.committed)
      (hnew : other.revision ∉ w.ended.map Delivery.revision) :
      w.delivered < other.revision := by
    rw [h.mem_ended _ hturns] at hnew
    have hpos := (h.committed_eq hother).1
    omega
  have hlatest : w.delivered + 1 ≤ w.process.store.revision := by
    have hmem : ticket.revision ∈ w.committed.map Ticket.revision := List.mem_map_of_mem ht
    rw [h.numbered, List.mem_range'_1] at hmem
    have hlt := hlater ticket ht hnew
    omega
  have hnext : w.delivered + 1 ∈ w.turnstile.revisions :=
    (h.ordered.mem_revisions _).2 ⟨Nat.lt_succ_self _, hlatest⟩
  have hrevisions : w.turnstile.revisions = w.waiting.map Ticket.revision := by
    simp [Turnstile.revisions, turnstile, hturns]
  rw [hrevisions] at hnext
  obtain ⟨first, hfirst, hrevision⟩ := List.mem_map.1 hnext
  refine ⟨first, hfirst, ?_, ?_⟩
  · intro other hother hother'
    rw [hrevision]
    exact hlater other hother hother'
  · obtain ⟨before, after, hwaiting⟩ := List.append_of_mem hfirst
    have hreached : ¬ w.delivered + 1 < first.revision := by omega
    exact ⟨_, .entered hwaiting hreached, by rw [hturns, List.nil_append]⟩

theorem Paced.inOrder [LawfulRecord R] (h : w.Paced) : w.InOrder where
  numbered := h.numbered
  refused := by
    intro q e desk hrun
    have hidle : Idle (w.process.desk w.host) desk := q.leads_run.of_error hrun
    exact ⟨hidle.commits, congrArg Store.revision hidle.store⟩
  undiffering := by
    intro reading outcome desk hrun hsame
    rcases (leads_absorb reading).of_ok hrun with ⟨-, -, rfl⟩ | ⟨-, -, htook⟩
    · exact ⟨rfl, rfl⟩
    · have hempty : (Change.diff (w.process.desk w.host).store.records
          reading.loaded.records).isEmpty = true := List.isEmpty_iff.2 hsame
      have hcommits := htook.commits
      have hrevision := congrArg Store.revision htook.store
      rw [if_pos hempty] at hcommits hrevision
      exact ⟨hcommits, hrevision⟩
  single := h.single
  opened := h.revisions_opened
  calls := by
    apply h.serves.imp
    intro d ticket hd
    exact ⟨hd.revision, fun l => ⟨hd.heard_prefix l, fun hdone hl => hd.heard_eq hdone hl⟩⟩
  heard := by
    intro l
    apply (Delivery.heard_sublist h.serves l).trans
    conv_rhs => rw [← List.take_append_drop w.opened.length w.committed, List.flatMap_append]
    exact List.sublist_append_left _ _
  ended := h.ended
  next _ ht hnew hturns := h.next ht hnew hturns
  settled := h.settled

end Writers

/-- However the steps of the writers of a store fall between each other, of other processes and of
whoever adds listeners, and whichever listeners panic: the turns of the commits are in order. -/
theorem turns_in_order (e : Entity) {data : Location} {host h₀ : Host} {s₀ : Store e.Rec}
    {w : Writers e.Rec} (hopen : Store.open data host = .ok s₀ h₀)
    (hrun : Relation.ReflTransGen Writers.Step (Writers.start s₀ h₀) w) : w.InOrder := by
  obtain ⟨loaded, disk, -, rfl, -⟩ := eq_of_open hopen
  apply (Writers.paced_of_run hrun _).inOrder
  exact Writers.paced_start rfl

/-- Two roles are made while two listeners are there. The first of them panics in the first turn,
and both get the second one. -/
theorem turns_in_order_panicked : ∃ (s₀ : Store Role) (h₀ : Host) (w : Writers Role),
    Store.open ⟨["data"], "/data"⟩ { ids := fun _ => "", times := fun _ => .epoch } = .ok s₀ h₀ ∧
    Relation.ReflTransGen Writers.Step (Writers.start s₀ h₀) w ∧
    w.ended.map Delivery.panicked = [true, false] ∧ w.waiting = [] ∧ w.turns = [] ∧
    w.process.store.revision = 2 ∧ w.InOrder := by
  let data : Location := ⟨["data"], "/data"⟩
  let host : Host := { ids := fun _ => "", times := fun _ => .epoch }
  let keep : Preparation Role := .asIs
  let first : Request Role := .createWith "x" ({ name := "first" } : Role.Draft) keep
  let second : Request Role := .createWith "y" ({ name := "second" } : Role.Draft) keep
  let x : Ticket Role := ⟨1, [⟨.created ⟨"x", "first", "", .epoch, .epoch⟩, 1⟩]⟩
  let y : Ticket Role := ⟨2, [⟨.created ⟨"y", "second", "", .epoch, .epoch⟩, 2⟩]⟩
  have hruns : ((done? (Store.open (R := Role) data host)).bind fun a =>
      (done? (first.run ⟨a.1, a.2, []⟩)).bind fun b =>
      (done? (second.run ⟨b.2.store, b.2.host, []⟩)).map fun c =>
        (b.2.commits.map Commit.ticket, c.2.commits.map Commit.ticket, c.2.store.revision)) =
      some ([x], [y], 2) := by
    decide +kernel
  simp only [Option.bind_eq_some_iff, Option.map_eq_some_iff, Prod.exists, Prod.mk.injEq,
    done?_eq_some] at hruns
  obtain ⟨s₀, h₀, hopen, a, desk, hx, b, desk', hy, hticket, hticket', hrevision⟩ := hruns
  let notice (t : Ticket Role) (l : Nat) : List (Notice Role) := t.events.map fun e => ⟨l, e⟩
  let w₀ := Writers.start s₀ h₀
  let w₁ : Writers Role := { w₀ with listeners := 1 }
  let w₂ : Writers Role := { w₀ with listeners := 2 }
  let w₃ : Writers Role := { w₂ with
    process := ⟨desk.store, []⟩, host := desk.host, committed := [x], waiting := [x] }
  let w₄ : Writers Role := { w₂ with
    process := ⟨desk'.store, []⟩, host := desk'.host, committed := [x, y], waiting := [x, y] }
  let w₅ : Writers Role := { w₄ with waiting := [y], turns := [x.delivery 2] }
  let cut : Delivery Role := ⟨1, 2, notice x 0, notice x 1, true⟩
  let w₆ : Writers Role := { w₄ with waiting := [y], ended := [cut], delivered := 1 }
  let w₇ : Writers Role := { w₆ with waiting := [], turns := [y.delivery 2] }
  let w₈ : Writers Role := { w₇ with turns := [⟨2, 2, notice y 0, notice y 1, false⟩] }
  let whole : Delivery Role := ⟨2, 2, notice y 0 ++ notice y 1, [], false⟩
  let w₉ : Writers Role := { w₇ with turns := [whole] }
  let w : Writers Role := { w₇ with turns := [], ended := [cut, whole], delivered := 2 }
  have hs₃ : w₂.Step { w₃ with
      committed := [] ++ desk.commits.map Commit.ticket
      waiting := [] ++ desk.commits.map Commit.ticket } := .acted (.answered hx)
  have hs₄ : w₃.Step { w₄ with
      committed := [x] ++ desk'.commits.map Commit.ticket
      waiting := [x] ++ desk'.commits.map Commit.ticket } := .acted (.answered hy)
  rw [hticket] at hs₃
  rw [hticket'] at hs₄
  have hwaiting : w₄.waiting = [] ++ x :: [y] := rfl
  have hs₅ : w₄.Step w₅ := .entered hwaiting (Nat.lt_irrefl 1)
  have hturns : w₅.turns = [] ++ x.delivery 2 :: [] := rfl
  have hs₆ : w₅.Step w₆ := .panicked hturns rfl
  have hwaiting' : w₆.waiting = [] ++ y :: [] := rfl
  have hs₇ : w₆.Step w₇ := .entered hwaiting' (Nat.lt_irrefl 2)
  have hturns' : w₇.turns = [] ++ y.delivery 2 :: [] := rfl
  have hs₈ : w₇.Step w₈ := .called hturns' rfl
  have hcalled : w₈.turns = [] ++ ⟨2, 2, notice y 0, notice y 1, false⟩ :: [] := rfl
  have hs₉ : w₈.Step w₉ := .called hcalled rfl
  have hwhole : w₉.turns = [] ++ whole :: [] := rfl
  have hs : w₉.Step w := .returned hwhole rfl
  have hlistened : Relation.ReflTransGen Writers.Step w₀ w₂ := (Relation.ReflTransGen.single
    (.listened : w₀.Step w₁)).tail .listened
  have hmade : Relation.ReflTransGen Writers.Step w₀ w₄ := (hlistened.tail hs₃).tail hs₄
  have hfirst : Relation.ReflTransGen Writers.Step w₀ w₆ := (hmade.tail hs₅).tail hs₆
  have hrun : Relation.ReflTransGen Writers.Step w₀ w :=
    (((hfirst.tail hs₇).tail hs₈).tail hs₉).tail hs
  exact ⟨s₀, h₀, w, hopen, hrun, rfl, rfl, rfl, hrevision, turns_in_order .role hopen hrun⟩

end WorkQueue.Store
