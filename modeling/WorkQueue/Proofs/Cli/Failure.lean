import WorkQueue.Cli.Failure

/-!
# What a failure is reported as

The exit status of a failure and the code in its report are found one by one, each by going through
the causes from the outermost on. They agree: both are decided by the first cause that is of a known
kind, whatever was being done when it failed and whatever else stands in the chain.
-/

namespace WorkQueue.Cli

/-- The exit status that belongs to a code, as a number. -/
def ExitStatus.numberOf (code : String) : Nat :=
  if code = "VALIDATION_FAILED" ∨ code = "USAGE" then 2
  else if code = "NOT_FOUND" then 3
  else if code = "INVALID_TRANSITION" then 4
  else 1

open ExitStatus (numberOf)

theorem ExitStatus.number_ofCode (e : StoreError) : (ofCode e.code).number = numberOf e.code := by
  cases e <;> simp [StoreError.code, ofCode, number, numberOf]

/-- Whether it is a store's error, a validation error or a usage error. -/
def Cause.isKnown : Cause → Bool
  | note _ => false
  | store _ | validation _ | usage _ => true

namespace Failure

@[simp] theorem exit_nil : exit [] = .error := rfl

@[simp] theorem code_nil : code [] = "ERROR" := rfl

@[simp] theorem exit_cons (c : Cause) (f : Failure) : exit (c :: f) = c.exit?.getD f.exit := by
  cases c <;> rfl

@[simp] theorem code_cons (c : Cause) (f : Failure) : code (c :: f) = c.code?.getD f.code := by
  cases c <;> rfl

/-- The two ways through the causes stop at the same one. -/
theorem number_exit (f : Failure) : f.exit.number = numberOf f.code := by
  induction f with
  | nil => simp [ExitStatus.number, numberOf]
  | cons c f ih =>
    rw [exit_cons, code_cons]
    cases c with
    | note _ => exact ih
    | store e => exact ExitStatus.number_ofCode e
    | validation _ => simp [Cause.exit?, Cause.code?, ExitStatus.number, numberOf]
    | usage _ => simp [Cause.exit?, Cause.code?, ExitStatus.number, numberOf]

/-- The causes of a known kind, without what was being done and what else had failed. -/
def causes (f : Failure) : Failure := f.filter Cause.isKnown

theorem causes_note (text : String) (f : Failure) : causes (.note text :: f) = f.causes := rfl

theorem causes_within (contexts : List String) (f : Failure) :
    (contexts.foldl (fun f context => f.within context) f).causes = f.causes := by
  induction contexts generalizing f with
  | nil => rfl
  | cons context contexts ih => exact (ih _).trans (causes_note context f)

/-- The whole chain: each cause is followed by the sources that it carries. -/
def links (f : Failure) : Failure := f.flatMap fun c => c :: c.chain.tail.map .note

theorem causes_map_note (texts : List String) : causes (texts.map .note) = [] := by
  induction texts with
  | nil => rfl
  | cons text texts ih => exact (causes_note text _).trans ih

theorem causes_links (f : Failure) : f.links.causes = f.causes := by
  induction f with
  | nil => rfl
  | cons c f ih =>
    unfold links causes at ih ⊢
    rw [List.flatMap_cons, List.filter_append, List.filter_cons, ih, List.filter_cons]
    have hsources := causes_map_note c.chain.tail
    unfold causes at hsources
    rw [hsources]
    split <;> rfl

/-- The first cause of a known kind decides. -/
theorem exit_eq_of_causes (f : Failure) :
    f.exit = (f.causes.head?.bind Cause.exit?).getD .error := by
  induction f with
  | nil => rfl
  | cons c f ih =>
    cases c with
    | note _ => exact ih
    | store _ | validation _ | usage _ => rfl

theorem code_eq_of_causes (f : Failure) :
    f.code = (f.causes.head?.bind Cause.code?).getD "ERROR" := by
  induction f with
  | nil => rfl
  | cons c f ih =>
    cases c with
    | note _ => exact ih
    | store _ | validation _ | usage _ => rfl

/-- A failure exits with the status that belongs to the code in its report. The code is that of the
first cause of a known kind, so that neither changes with the contexts around it, with the sources
that its causes carry, or with whatever else is added to or removed from the chain. -/
theorem exit_belongs_to_code (f : Failure) :
    f.exit.number = numberOf f.code ∧
    f.code = (f.causes.head?.bind Cause.code?).getD "ERROR" ∧
    (∀ contexts : List String,
      (contexts.foldl (fun f context => f.within context) f).exit = f.exit ∧
      (contexts.foldl (fun f context => f.within context) f).code = f.code) ∧
    (f.links.exit = f.exit ∧ f.links.code = f.code) ∧
    ∀ g : Failure, g.causes = f.causes → g.exit = f.exit ∧ g.code = f.code := by
  have hsame (g : Failure) (hcauses : g.causes = f.causes) :
      g.exit = f.exit ∧ g.code = f.code := by
    rw [exit_eq_of_causes g, code_eq_of_causes g, hcauses]
    exact ⟨(exit_eq_of_causes f).symm, (code_eq_of_causes f).symm⟩
  exact ⟨number_exit f, code_eq_of_causes f, fun contexts => hsame _ (causes_within contexts f),
    hsame _ (causes_links f), hsame⟩

/-- An item that is not found, with and without contexts, while a later cause is a usage error. -/
theorem exit_belongs_to_code_found : ∃ f g : Failure, f.length = 2 ∧ g.length = 4 ∧
    g.causes = f.causes ∧ f.exit.number = 3 ∧ f.code = "NOT_FOUND" ∧ g.exit = f.exit ∧
    g.code = f.code := by
  let missing : Cause := .store (.notFound "work" "w")
  let f : Failure := [missing, .usage "nothing to change"]
  let g : Failure :=
    [.note "failed to show work item", missing, .note "source", .usage "nothing to change"]
  obtain ⟨hexit, -, -, -, hsame⟩ := exit_belongs_to_code f
  have hcode : f.code = "NOT_FOUND" := rfl
  obtain ⟨hg, hg'⟩ := hsame g rfl
  exact ⟨f, g, rfl, rfl, rfl, hexit.trans (by rw [hcode]; simp [numberOf]), hcode, hg, hg'⟩

end Failure

end WorkQueue.Cli
