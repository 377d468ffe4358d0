import Mathlib.Tactic.SplitIfs
import WorkQueue.Json.Printer
import WorkQueue.Json.Reader
import WorkQueue.Proofs.Text.Decimal

/-!
# Reading what was printed

The reader takes one character at a time, so that reading a text followed by another is reading on
in the state that the first one leads to. A printed value leads from a place where a value may come
to the place after it, whatever follows, as long as what follows ends numbers and words.
-/

namespace WorkQueue.Json

open Text

namespace Reader

/-- Reads characters on from a state. -/
def feed (s : State) (cs : List Char) : Option State := cs.foldlM step s

@[simp] theorem feed_nil (s : State) : feed s [] = some s := rfl

@[simp] theorem feed_cons (s : State) (c : Char) (cs : List Char) :
    feed s (c :: cs) = (step s c).bind (feed · cs) := rfl

/-- Whether a text ends a number or a word that stands before it. -/
def Stops : List Char → Prop
  | [] => False
  | c :: _ => isNumberChar c = false ∧ c.isLower = false

variable (stack : List Frame) (place : Place)

theorem feed_newLine (depth : Nat) (cs : List Char) :
    feed ⟨stack, place, .between⟩ (newLine depth ++ cs) = feed ⟨stack, place, .between⟩ cs := by
  have blanks (n : Nat) : feed ⟨stack, place, .between⟩ (List.replicate n ' ' ++ cs) =
      feed ⟨stack, place, .between⟩ cs := by
    induction n with
    | zero => rfl
    | succ n ih => simpa [List.replicate_succ, step, structural] using ih
  simpa [newLine, step, structural] using blanks (2 * depth)

/-! ### Texts -/

theorem hexValue?_hexDigit {n : Nat} (h : n < 16) : hexValue? (hexDigit n) = some n := by
  have all : ∀ n < 16, hexValue? (hexDigit n) = some n := by decide
  exact all n h

theorem feed_escapeChar (read : List Char) (c : Char) (cs : List Char) :
    feed ⟨stack, place, .text read none⟩ (escapeChar c ++ cs) =
      feed ⟨stack, place, .text (c :: read) none⟩ cs := by
  unfold escapeChar
  split_ifs with hquote hback hline hreturn htab hb hf hcontrol
  · subst hquote; rfl
  · subst hback; rfl
  · subst hline; rfl
  · subst hreturn; rfl
  · subst htab; rfl
  · subst hb; rfl
  · subst hf; rfl
  · have high := hexValue?_hexDigit (n := c.toNat / 16) (by omega)
    have low := hexValue?_hexDigit (n := c.toNat % 16) (by omega)
    have zero : hexValue? '0' = some 0 := rfl
    have hc : 16 * (c.toNat / 16) + c.toNat % 16 = c.toNat := by omega
    have hu : unitRead read none c.toNat = some (.text (c :: read) none) := by
      rw [unitRead, if_neg (by omega), if_neg (by omega), Char.ofNat_toNat]
    simp [step, high, low, zero, hc, hu]
  · simp [step, hquote, hback, hcontrol]

theorem feed_escaped (read : List Char) (s cs : List Char) :
    feed ⟨stack, place, .text read none⟩ (s.flatMap escapeChar ++ '"' :: cs) =
      (textRead stack place (String.ofList (read.reverse ++ s))).bind (feed · cs) := by
  induction s generalizing read with
  | nil => simp [step]
  | cons c s ih =>
    rw [List.flatMap_cons, List.append_assoc, feed_escapeChar, ih]
    simp

theorem feed_quoted (s : String) (cs : List Char) :
    feed ⟨stack, place, .between⟩ (quotedChars s ++ cs) =
      (textRead stack place s).bind (feed · cs) := by
  have h := feed_escaped stack place [] s.toList cs
  simpa [quotedChars, step, structural] using h

/-! ### Numbers and words -/

theorem isNumberChar_of_isDigit {c : Char} (h : c.isDigit = true) : isNumberChar c = true := by
  simp [isNumberChar, h]

theorem feed_number (read ds cs : List Char) (h : ∀ c ∈ ds, c.isDigit = true) :
    feed ⟨stack, place, .number read⟩ (ds ++ cs) =
      feed ⟨stack, place, .number (ds.reverse ++ read)⟩ cs := by
  induction ds generalizing read with
  | nil => rfl
  | cons c ds ih =>
    have hc := isNumberChar_of_isDigit (h c (by simp))
    have hds := ih (c :: read) fun d hd => h d (by simp [hd])
    simpa [step, hc] using hds

theorem feed_word (read ds cs : List Char) (h : ∀ c ∈ ds, c.isLower = true) :
    feed ⟨stack, place, .word read⟩ (ds ++ cs) =
      feed ⟨stack, place, .word (ds.reverse ++ read)⟩ cs := by
  induction ds generalizing read with
  | nil => rfl
  | cons c ds ih =>
    have hc := h c (by simp)
    have hds := ih (c :: read) fun d hd => h d (by simp [hd])
    simpa [step, hc] using hds

theorem feed_number_stop {read cs : List Char} {j : Json} (hj : numberOf read.reverse = some j)
    (hcs : Stops cs) : feed ⟨stack, place, .number read⟩ cs =
      (scalar stack place j).bind (feed · cs) := by
  cases cs with
  | nil => exact hcs.elim
  | cons c cs =>
    cases hv : valueStack stack place with
    | none => simp [step, settle, scalar, hj, hv, hcs.1]
    | some st => simp [step, settle, scalar, State.between, hj, hv, hcs.1]

theorem feed_word_stop {read cs : List Char} {j : Json} (hj : wordOf read.reverse = some j)
    (hcs : Stops cs) : feed ⟨stack, place, .word read⟩ cs =
      (scalar stack place j).bind (feed · cs) := by
  cases cs with
  | nil => exact hcs.elim
  | cons c cs =>
    cases hv : valueStack stack place with
    | none => simp [step, settle, scalar, hj, hv, hcs.2]
    | some st => simp [step, settle, scalar, State.between, hj, hv, hcs.2]

end Reader

end WorkQueue.Json
