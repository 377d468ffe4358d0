import WorkQueue.Proofs.Store.Identity

/-!
# Turns

A commit takes its revision under the lock of the store and its listeners are called after the lock
is released. What keeps the listeners in commit order is a counter of the last revision whose turn
has ended: a writer waits until every earlier revision is done. One turn is open at most, it belongs
to the revision after the counter, and every revision beyond it is still waiting.
-/

namespace WorkQueue.Store

variable {R : Type}

/-- A commit on its way through its turn, and the events that listeners have still to be called
with. -/
structure Ticket (R : Type) where
  revision : Nat
  events : List (Event R)
  deriving DecidableEq

structure Turnstile (R : Type) where
  waiting : List (Ticket R) := []
  turns : List (Ticket R) := []
  /-- the last revision whose turn has ended -/
  delivered : Nat := 0

namespace Turnstile

inductive Act (R : Type) where
  | entered
  | heard (e : Event R)
  | left
  | abandoned

def join (t : Turnstile R) (commits : List (Commit R)) : Turnstile R :=
  { t with waiting := t.waiting ++ commits.map fun c => ⟨c.store.revision, c.events⟩ }

/-- One step of some writer. The listeners that a turn calls are those there are when it opens; a
turn ends when they have returned, or when one of them panics. -/
inductive Step (listening : Bool) (t : Turnstile R) : Act R → Turnstile R → Prop where
  | enter {before after : List (Ticket R)} {ticket : Ticket R}
      (waiting : t.waiting = before ++ ticket :: after)
      (reached : ¬ t.delivered + 1 < ticket.revision) :
      Step listening t .entered { t with
        waiting := before ++ after
        turns := t.turns ++ [⟨ticket.revision, if listening then ticket.events else []⟩] }
  | hear {before after : List (Ticket R)} {revision : Nat} {e : Event R} {events : List (Event R)}
      (turns : t.turns = before ++ ⟨revision, e :: events⟩ :: after) :
      Step listening t (.heard e) { t with turns := before ++ ⟨revision, events⟩ :: after }
  | leave {before after : List (Ticket R)} {revision : Nat}
      (turns : t.turns = before ++ ⟨revision, []⟩ :: after) :
      Step listening t .left { t with
        turns := before ++ after
        delivered := max t.delivered revision }
  | abandon {before after : List (Ticket R)} {turn : Ticket R}
      (turns : t.turns = before ++ turn :: after) :
      Step listening t .abandoned { t with
        turns := before ++ after
        delivered := max t.delivered turn.revision }

/-- The revisions whose turns have not ended. -/
def revisions (t : Turnstile R) : List Nat := (t.turns ++ t.waiting).map Ticket.revision

/-- The committed events that listeners have not been called with, in the order of their commits. -/
def ahead (t : Turnstile R) (committed : List (Event R)) : List (Event R) :=
  t.turns.flatMap Ticket.events ++
    committed.filter fun e => t.delivered + t.turns.length < e.revision

/-- What holds of the writers of a store whose last revision is `latest`. -/
structure Ordered (t : Turnstile R) (committed : List (Event R)) (latest : Nat) : Prop where
  reached : t.delivered ≤ latest
  nodup : t.revisions.Nodup
  mem_revisions : ∀ r, r ∈ t.revisions ↔ t.delivered < r ∧ r ≤ latest
  single : t.turns = [] ∨ ∃ turn, t.turns = [turn] ∧ turn.revision = t.delivered + 1
  heard : ∀ turn ∈ t.turns, ∀ e ∈ turn.events, e.revision ≤ latest
  events : ∀ ticket ∈ t.waiting,
    ticket.events = committed.filter fun e => e.revision = ticket.revision
  sorted : committed.Pairwise fun e e' => e.revision ≤ e'.revision
  bounded : ∀ e ∈ committed, e.revision ≤ latest

theorem ordered_empty : Ordered ({} : Turnstile R) [] 0 where
  reached := Nat.le_refl 0
  nodup := List.nodup_nil
  mem_revisions r := by
    simp only [revisions, List.append_nil, List.map_nil, List.not_mem_nil, false_iff]
    omega
  single := Or.inl rfl
  heard := by simp
  events := by simp
  sorted := .nil
  bounded := by simp

variable {t t' : Turnstile R} {committed : List (Event R)} {latest : Nat}

theorem Ordered.turns_eq (h : t.Ordered committed latest) {before after : List (Ticket R)}
    {turn : Ticket R} (hturns : t.turns = before ++ turn :: after) :
    before = [] ∧ after = [] ∧ turn.revision = t.delivered + 1 := by
  rcases h.single with hnone | ⟨only, hone, hrevision⟩
  · simp [hnone] at hturns
  · rw [hone] at hturns
    cases before with
    | nil =>
      obtain ⟨rfl, rfl⟩ := List.cons.inj hturns
      exact ⟨rfl, rfl, hrevision⟩
    | cons x before => simp at hturns

/-- A turn opens when every earlier one has ended, and it is the next one. -/
theorem Ordered.enter (h : t.Ordered committed latest) {before after : List (Ticket R)}
    {ticket : Ticket R} (hwaiting : t.waiting = before ++ ticket :: after)
    (hreached : ¬ t.delivered + 1 < ticket.revision) :
    t.turns = [] ∧ ticket.revision = t.delivered + 1 := by
  have hmem : ticket.revision ∈ t.revisions := by simp [revisions, hwaiting]
  have hnew := ((h.mem_revisions _).1 hmem).1
  have hrevision : ticket.revision = t.delivered + 1 := by omega
  refine ⟨?_, hrevision⟩
  rcases h.single with hnone | ⟨turn, hone, hturn⟩
  · exact hnone
  · have hnodup := h.nodup
    rw [revisions, hone, hwaiting, List.map_append] at hnodup
    simp [hturn, hrevision] at hnodup

theorem Ordered.leave (h : t.Ordered committed latest) {before after : List (Ticket R)}
    {turn : Ticket R} (hturns : t.turns = before ++ turn :: after) :
    Ordered { t with
      turns := before ++ after
      delivered := max t.delivered turn.revision } committed latest := by
  obtain ⟨rfl, rfl, hrevision⟩ := h.turns_eq hturns
  have hmax : max t.delivered turn.revision = t.delivered + 1 := by omega
  have hrevisions : t.revisions = turn.revision :: t.waiting.map Ticket.revision := by
    rw [revisions, hturns]
    rfl
  have hnodup := h.nodup
  rw [hrevisions] at hnodup
  obtain ⟨hturn, hnodup⟩ := List.nodup_cons.1 hnodup
  have hlatest : turn.revision ≤ latest :=
    ((h.mem_revisions _).1 (hrevisions ▸ List.mem_cons_self)).2
  refine ⟨Nat.max_le.2 ⟨h.reached, hlatest⟩, hnodup, fun r => ?_, Or.inl rfl, by simp, h.events,
    h.sorted, h.bounded⟩
  have hmem := h.mem_revisions r
  rw [hrevisions, List.mem_cons] at hmem
  change r ∈ t.waiting.map Ticket.revision ↔ max t.delivered turn.revision < r ∧ r ≤ latest
  rw [hmax]
  constructor
  · intro hr
    have hne : r ≠ turn.revision := fun he => hturn (he ▸ hr)
    have := hmem.1 (Or.inr hr)
    omega
  · intro hr
    exact (hmem.2 (by omega)).resolve_left (by omega)

theorem Step.ordered {listening : Bool} {act : Act R} (hs : t.Step listening act t')
    (h : t.Ordered committed latest) : t'.Ordered committed latest := by
  cases hs with
  | @enter before after ticket hwaiting hreached =>
    obtain ⟨hturns, hrevision⟩ := h.enter hwaiting hreached
    have hperm : (ticket.revision :: (before ++ after).map Ticket.revision).Perm t.revisions := by
      rw [revisions, hturns, hwaiting]
      exact List.perm_middle.symm.map Ticket.revision
    have hlatest : ticket.revision ≤ latest :=
      ((h.mem_revisions _).1 (hperm.subset List.mem_cons_self)).2
    have hevents : ∀ other ∈ before ++ after, other ∈ t.waiting := by
      rw [hwaiting]
      exact fun other hother => List.perm_middle.symm.subset (List.mem_cons_of_mem _ hother)
    rw [hturns]
    refine ⟨h.reached, hperm.nodup_iff.2 h.nodup, fun r => hperm.mem_iff.trans (h.mem_revisions r),
      Or.inr ⟨_, rfl, hrevision⟩, ?_, fun other hother => h.events other (hevents other hother),
      h.sorted, h.bounded⟩
    intro turn hturn e he
    obtain rfl := List.mem_singleton.1 hturn
    cases listening with
    | false => simp at he
    | true =>
      have hticket := h.events ticket (by simp [hwaiting])
      have he : e ∈ ticket.events := he
      rw [hticket] at he
      exact h.bounded e (List.mem_of_mem_filter he)
  | @hear before after revision e events hturns =>
    obtain ⟨rfl, rfl, hrevision⟩ := h.turns_eq hturns
    have hrevisions : revisions { t with turns := [⟨revision, events⟩] } = t.revisions := by
      rw [revisions, revisions, hturns]
      rfl
    refine ⟨h.reached, hrevisions ▸ h.nodup, fun r => ?_, Or.inr ⟨_, rfl, hrevision⟩, ?_, h.events,
      h.sorted, h.bounded⟩
    · exact hrevisions ▸ h.mem_revisions r
    · intro turn hturn e' he'
      obtain rfl := List.mem_singleton.1 hturn
      exact h.heard ⟨revision, e :: events⟩ (by simp [hturns]) e' (List.mem_cons_of_mem e he')
  | leave hturns => exact h.leave hturns
  | abandon hturns => exact h.leave hturns

/-- The events of one revision of a sorted history come before all later ones. -/
theorem filter_lt_eq (h : committed.Pairwise fun e e' => e.revision ≤ e'.revision) (r : Nat) :
    (committed.filter fun e => r < e.revision) =
      (committed.filter fun e => e.revision = r + 1) ++
        committed.filter fun e => r + 1 < e.revision := by
  induction committed with
  | nil => rfl
  | cons e committed ih =>
    obtain ⟨hle, hrest⟩ := List.pairwise_cons.1 h
    have ih := ih hrest
    rcases Nat.lt_trichotomy e.revision (r + 1) with hr | hr | hr
    · have h₁ : ¬ r < e.revision := by omega
      have h₂ : e.revision ≠ r + 1 := by omega
      have h₃ : ¬ r + 1 < e.revision := by omega
      simpa [h₁, h₂, h₃] using ih
    · simpa [hr] using ih
    · have hnone : committed.filter (fun e => e.revision = r + 1) = [] := by
        refine List.filter_eq_nil_iff.2 fun e' he' => ?_
        have := hle e' he'
        simp only [decide_eq_true_eq]
        omega
      have h₁ : r < e.revision := by omega
      have h₂ : e.revision ≠ r + 1 := by omega
      simpa [h₁, h₂, hr, hnone] using ih

/-- What a step has listeners called with. -/
def Act.events : Act R → List (Event R)
  | heard e => [e]
  | _ => []

/-- Listeners that are there in time are called with the events in the order of the commits. -/
theorem Step.ahead_eq {act : Act R} (hs : t.Step true act t') (h : t.Ordered committed latest)
    (hact : act ≠ .abandoned) : t.ahead committed = act.events ++ t'.ahead committed := by
  cases hs with
  | @enter before after ticket hwaiting hreached =>
    obtain ⟨hturns, hrevision⟩ := h.enter hwaiting hreached
    have hevents := h.events ticket (by simp [hwaiting])
    have hsplit := filter_lt_eq h.sorted t.delivered
    rw [hrevision] at hevents
    rw [← hevents] at hsplit
    simpa [ahead, hturns, Act.events] using hsplit
  | @hear before after revision e events hturns =>
    obtain ⟨rfl, rfl, -⟩ := h.turns_eq hturns
    simp [ahead, hturns, Act.events]
  | @leave before after revision hturns =>
    obtain ⟨rfl, rfl, hrevision⟩ := h.turns_eq hturns
    have hrevision : revision = t.delivered + 1 := hrevision
    simp [ahead, hturns, Act.events, hrevision]
  | abandon hturns => exact absurd rfl hact

theorem filter_stamped {events : List (Event R)} {r : Nat} (h : ∀ e ∈ events, e.revision = r)
    (p : Nat → Bool) : (events.filter fun e => p e.revision) = if p r then events else [] := by
  cases hp : p r with
  | true => exact List.filter_eq_self.2 fun e he => by rw [h e he, hp]
  | false => exact List.filter_eq_nil_iff.2 fun e he => by simp [h e he, hp]

/-- A commit takes the next revision and waits. -/
theorem Ordered.join (h : t.Ordered committed latest) {c : Commit R}
    (hrevision : c.store.revision = latest + 1)
    (hstamped : ∀ e ∈ c.events, e.revision = latest + 1) :
    (t.join [c]).Ordered (committed ++ c.events) (latest + 1) := by
  have hrevisions : (t.join [c]).revisions = t.revisions ++ [latest + 1] := by
    simp [Turnstile.join, revisions, hrevision]
  have hreached := h.reached
  have hold : ∀ r ∈ t.revisions, r ≤ latest := fun r hr => ((h.mem_revisions r).1 hr).2
  refine ⟨Nat.le_succ_of_le h.reached, ?_, fun r => ?_, h.single,
    fun turn hturn e he => Nat.le_succ_of_le (h.heard turn hturn e he), ?_, ?_, ?_⟩
  · rw [hrevisions, ← List.concat_eq_append]
    refine h.nodup.concat fun hmem => ?_
    have := hold _ hmem
    omega
  · rw [hrevisions, List.mem_append, List.mem_singleton, h.mem_revisions]
    change t.delivered < r ∧ r ≤ latest ∨ r = latest + 1 ↔ t.delivered < r ∧ r ≤ latest + 1
    omega
  · intro ticket hticket
    rw [List.filter_append, filter_stamped hstamped fun r => decide (r = ticket.revision)]
    rcases List.mem_append.1 hticket with hticket | hticket
    · have hle := hold ticket.revision (List.mem_map_of_mem (List.mem_append_right _ hticket))
      have hne : latest + 1 ≠ ticket.revision := by omega
      rw [h.events ticket hticket]
      simp [hne]
    · obtain rfl : ticket = ⟨c.store.revision, c.events⟩ := by simpa using hticket
      have hnone : (committed.filter fun e => e.revision = c.store.revision) = [] := by
        refine List.filter_eq_nil_iff.2 fun e he => ?_
        have := h.bounded e he
        simp only [decide_eq_true_eq]
        omega
      change c.events = (committed.filter fun e => e.revision = c.store.revision) ++ _
      rw [hnone, List.nil_append]
      simp [hrevision]
  · refine List.pairwise_append.2 ⟨h.sorted, ?_, fun e he e' he' => ?_⟩
    · exact List.pairwise_of_forall_mem_list fun e he e' he' => by
        rw [hstamped e he, hstamped e' he']
    · have := h.bounded e he
      rw [hstamped e' he']
      omega
  · intro e he
    rcases List.mem_append.1 he with he | he
    · exact Nat.le_succ_of_le (h.bounded e he)
    · exact (hstamped e he).le

theorem Ordered.ahead_join (h : t.Ordered committed latest) {c : Commit R}
    (hstamped : ∀ e ∈ c.events, e.revision = latest + 1) :
    (t.join [c]).ahead (committed ++ c.events) = t.ahead committed ++ c.events := by
  have hentered : t.delivered + t.turns.length < latest + 1 := by
    have hreached := h.reached
    rcases h.single with hnone | ⟨turn, hone, hrevision⟩
    · simp only [hnone, List.length_nil]
      omega
    · have hmem : turn.revision ∈ t.revisions := by simp [revisions, hone]
      have := ((h.mem_revisions _).1 hmem).2
      simp only [hone, List.length_singleton]
      omega
  have hnew := filter_stamped hstamped fun r => decide (t.delivered + t.turns.length < r)
  simp only [hentered, decide_true, if_true] at hnew
  unfold ahead Turnstile.join
  rw [List.filter_append, hnew, List.append_assoc]

theorem Ordered.ahead_le (h : t.Ordered committed latest) :
    ∀ e ∈ t.ahead committed, e.revision ≤ latest := by
  intro e he
  rcases List.mem_append.1 he with he | he
  · obtain ⟨turn, hturn, he⟩ := List.mem_flatMap.1 he
    exact h.heard turn hturn e he
  · exact h.bounded e (List.mem_of_mem_filter he)

/-- Once every turn has ended, listeners have been called with everything. -/
theorem Ordered.ahead_eq_nil (h : t.Ordered committed latest) (hwaiting : t.waiting = [])
    (hturns : t.turns = []) : t.ahead committed = [] := by
  have hnone (r : Nat) : ¬ (t.delivered < r ∧ r ≤ latest) := by
    rw [← h.mem_revisions, revisions, hwaiting, hturns]
    exact List.not_mem_nil
  rw [ahead, hturns, List.flatMap_nil, List.nil_append, List.filter_eq_nil_iff]
  intro e he
  have hle := h.bounded e he
  have hlt := hnone e.revision
  simp only [List.length_nil, decide_eq_true_eq]
  omega

end Turnstile

/-- A step of a process makes no commit and keeps the revision, or it makes one commit, of the next
revision. -/
theorem Process.Step.numbered [Record R] [LawfulRecord R] {p p' : Process R} {h h' : Host}
    {a : Option (Answer R)} {commits : List (Commit R)} (hs : p.Step h a commits p' h') :
    (commits = [] ∧ p'.store.revision = p.store.revision) ∨
    ∃ c, commits = [c] ∧ p'.store.revision = p.store.revision + 1 ∧
      c.store.revision = p.store.revision + 1 ∧
      ∀ e ∈ c.events, e.revision = p.store.revision + 1 := by
  rcases hs.effect with ⟨-, hidle⟩ | ⟨-, -, hcommitted⟩ | @⟨_, loaded, _, -, -, htook⟩
  · left
    have hstore : p'.store = p.store := hidle.store
    exact ⟨hidle.commits, by rw [hstore]⟩
  · right
    obtain ⟨content, -, -, hstore⟩ := hcommitted.written
    have hrevision : p'.store.revision = p.store.revision + 1 := congrArg Store.revision hstore
    exact ⟨_, hcommitted.commits, hrevision, hrevision, by simp [Process.desk]⟩
  · have hrevision : p'.store.revision = p.store.revision + _ := congrArg Store.revision htook.store
    have hcommits : commits = [] ++ _ := htook.commits
    rw [List.nil_append] at hcommits
    by_cases hempty : (Change.diff (p.desk h).store.records loaded.records).isEmpty = true
    · left
      rw [if_pos hempty] at hrevision hcommits
      exact ⟨hcommits, hrevision⟩
    · right
      rw [if_neg hempty] at hrevision hcommits
      refine ⟨_, hcommits, hrevision, hrevision, ?_⟩
      intro e he
      obtain ⟨change, -, rfl⟩ := List.mem_map.1 he
      rfl

end WorkQueue.Store
