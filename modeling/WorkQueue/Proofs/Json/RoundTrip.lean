import Mathlib.Data.List.TakeWhile
import WorkQueue.Proofs.Json.Reading
import WorkQueue.Proofs.Keyed

/-!
# Printing and reading a value

A value that fits the reader (its integers have 64 bits, its keys ascend, it holds no
floating-point number and is nested no deeper than the reader goes) is what its indented text is
read as, also from bytes and with a line feed behind it.
-/

namespace WorkQueue.Json

open Text

/-- The values that printing and reading keep, with at most `n` containers around a scalar. -/
inductive Fits : Nat → Json → Prop where
  | null (n : Nat) : Fits n null
  | bool (n : Nat) (b : Bool) : Fits n (bool b)
  | int (n : Nat) (i : Int) (h : Reader.intInRange i = true) : Fits n (int i)
  | text (n : Nat) (s : String) : Fits n (text s)
  | list (n : Nat) (items : List Json) (h : ∀ j ∈ items, Fits n j) : Fits (n + 1) (list items)
  | object (n : Nat) (fields : Fields) (keys : (fields.map Prod.fst).Pairwise (· < ·))
      (h : ∀ f ∈ fields, Fits n f.2) : Fits (n + 1) (object fields)

namespace Reader

/-! ### Integers -/

theorem intChars_of_nonneg {n : Int} (h : 0 ≤ n) : intChars n = Nat.toDigits 10 n.natAbs :=
  if_neg (by omega)

theorem intChars_of_neg {n : Int} (h : n < 0) : intChars n = '-' :: Nat.toDigits 10 n.natAbs :=
  if_pos h

theorem digitsValue_toDigits (n : Nat) : digitsValue (Nat.toDigits 10 n) = n :=
  Nat.ofDigitChars_ten_toDigits

theorem takeWhile_toDigits (n : Nat) :
    (Nat.toDigits 10 n).takeWhile Char.isDigit = Nat.toDigits 10 n :=
  List.takeWhile_eq_self_iff.2 fun _ h => isDigit_of_mem_toDigits h

theorem dropWhile_toDigits (n : Nat) : (Nat.toDigits 10 n).dropWhile Char.isDigit = [] :=
  List.dropWhile_eq_nil_iff.2 fun _ h => isDigit_of_mem_toDigits h

/-- An integer is written without leading zeros. -/
theorem toDigits_plain (n : Nat) : ¬ ((Nat.toDigits 10 n).isEmpty ∨
    ((Nat.toDigits 10 n).head? = some '0' ∧ 1 < (Nat.toDigits 10 n).length)) := by
  rintro (h | ⟨hz, hl⟩)
  · exact Nat.toDigits_ne_nil (List.isEmpty_iff.1 h)
  · by_cases hn : n = 0
    · subst hn
      simp at hl
    · exact head?_toDigits_ne_zero hn hz

theorem numberOf_natural (n : Nat) (h : intInRange n = true) :
    numberOf (Nat.toDigits 10 n) = some (int n) := by
  rw [numberOf]
  · simp only [takeWhile_toDigits, dropWhile_toDigits, if_neg (toDigits_plain n),
      digitsValue_toDigits]
    simp [h]
  · intro r hr
    have hminus : '-' ∈ Nat.toDigits 10 n := by simp [hr]
    exact absurd (isDigit_of_mem_toDigits hminus) (by decide)

theorem numberOf_negative (n : Nat) (hn : n ≠ 0) (h : intInRange (-n) = true) :
    numberOf ('-' :: Nat.toDigits 10 n) = some (int (-n)) := by
  rw [numberOf]
  simp only [takeWhile_toDigits, dropWhile_toDigits, if_neg (toDigits_plain n),
    digitsValue_toDigits]
  simp [h, hn]

theorem numberOf_intChars (n : Int) (h : intInRange n = true) :
    numberOf (intChars n) = some (int n) := by
  by_cases hn : 0 ≤ n
  · have hv : (n.natAbs : Int) = n := by omega
    have := numberOf_natural n.natAbs (by rw [hv]; exact h)
    rw [intChars_of_nonneg hn, this, hv]
  · have hv : (-(n.natAbs : Int)) = n := by omega
    have := numberOf_negative n.natAbs (by omega) (by rw [hv]; exact h)
    rw [intChars_of_neg (by omega), this, hv]

variable (stack : List Frame) (place : Place)

theorem step_digit {c : Char} (h : c.isDigit = true) :
    step ⟨stack, place, .between⟩ c = some ⟨stack, place, .number [c]⟩ := by
  have ne (d : Char) (hd : d.isDigit = false) : c ≠ d := by
    rintro rfl
    rw [hd] at h
    exact Bool.false_ne_true h
  simp [step, structural, h, ne ' ' rfl, ne '\n' rfl, ne '\t' rfl, ne '\r' rfl, ne '"' rfl,
    ne '[' rfl, ne '{' rfl, ne ']' rfl, ne '}' rfl, ne ',' rfl, ne ':' rfl]

theorem feed_intChars (n : Int) (h : intInRange n = true) {cs : List Char} (hcs : Stops cs) :
    feed ⟨stack, place, .between⟩ (intChars n ++ cs) =
      (scalar stack place (int n)).bind (feed · cs) := by
  have hread := numberOf_intChars n h
  by_cases hn : 0 ≤ n
  · rw [intChars_of_nonneg hn] at hread ⊢
    cases hd : Nat.toDigits 10 n.natAbs with
    | nil => exact absurd hd Nat.toDigits_ne_nil
    | cons c ds =>
      have digits : ∀ d ∈ c :: ds, d.isDigit = true := fun d hm =>
        isDigit_of_mem_toDigits (hd ▸ hm)
      rw [hd] at hread
      rw [List.cons_append, feed_cons, step_digit stack place (digits c (by simp)),
        Option.bind_some, feed_number stack place [c] ds cs fun d hm => digits d (by simp [hm])]
      exact feed_number_stop stack place (by simpa using hread) hcs
  · rw [intChars_of_neg (by omega)] at hread ⊢
    have hminus : step ⟨stack, place, .between⟩ '-' = some ⟨stack, place, .number ['-']⟩ := by
      simp [step, structural]
    rw [List.cons_append, feed_cons, hminus, Option.bind_some,
      feed_number stack place ['-'] _ cs fun d hm => isDigit_of_mem_toDigits hm]
    exact feed_number_stop stack place (by simpa using hread) hcs

theorem feed_wordChars (c : Char) (ds : List Char) {j : Json} (hw : wordOf (c :: ds) = some j)
    (hc : step ⟨stack, place, .between⟩ c = some ⟨stack, place, .word [c]⟩)
    (hds : ∀ d ∈ ds, d.isLower = true) {cs : List Char} (hcs : Stops cs) :
    feed ⟨stack, place, .between⟩ (c :: ds ++ cs) = (scalar stack place j).bind (feed · cs) := by
  rw [List.cons_append, feed_cons, hc, Option.bind_some, feed_word stack place [c] ds cs hds]
  exact feed_word_stop stack place (by simpa using hw) hcs

theorem scalar_eq {st : List Frame} (h : valueStack stack place = some st) (j : Json) :
    scalar stack place j = some (.between (afterValue st j)) := by
  simp [scalar, h]

/-! ### Containers -/

theorem stops_comma (cs : List Char) : Stops (',' :: cs) := ⟨rfl, rfl⟩

theorem stops_newLine (depth : Nat) (cs : List Char) : Stops (newLine depth ++ cs) := ⟨rfl, rfl⟩

theorem stops_indentedItems (depth : Nat) (items : List Json) (cs : List Char) :
    Stops (indentedItems depth items ++ cs) := by
  cases items with
  | nil =>
    rw [indentedItems, List.append_assoc]
    exact stops_newLine depth _
  | cons j items => exact stops_comma _

theorem stops_indentedFields (depth : Nat) (fields : Fields) (cs : List Char) :
    Stops (indentedFields depth fields ++ cs) := by
  cases fields with
  | nil =>
    rw [indentedFields, List.append_assoc]
    exact stops_newLine depth _
  | cons f fields => exact stops_comma _

/-- Reading the text of a value in a place where a value may come, under at most `k` containers. -/
def ReadsBack (k : Nat) (j : Json) : Prop :=
  ∀ (depth : Nat) (stack : List Frame) (place : Place) (st : List Frame) (cs : List Char),
    valueStack stack place = some st → st.length ≤ k → Stops cs →
      feed ⟨stack, place, .between⟩ (indentedChars depth j ++ cs) =
        feed (.between (afterValue st j)) cs

theorem feed_items {k depth : Nat} (st : List Frame) (hk : st.length < k) (items done : List Json)
    (cs : List Char) (h : ∀ j ∈ items, ReadsBack k j) :
    feed ⟨st, .afterItem done, .between⟩ (indentedItems depth items ++ cs) =
      feed (.between (afterValue st (list (done.reverse ++ items)))) cs := by
  induction items generalizing done with
  | nil =>
    rw [indentedItems, List.append_assoc, feed_newLine]
    simp [step, structural]
  | cons j items ih =>
    have hj := h j (by simp) (depth + 1) (.list done :: st) .value (.list done :: st)
      (indentedItems depth items ++ cs) rfl hk (stops_indentedItems depth items cs)
    have hcomma : step ⟨st, .afterItem done, .between⟩ ',' =
        some ⟨.list done :: st, .value, .between⟩ := by simp [step, structural]
    rw [indentedItems, List.cons_append, feed_cons, hcomma, Option.bind_some, List.append_assoc,
      feed_newLine, List.append_assoc, hj]
    simpa [afterValue, State.between] using ih (j :: done) fun x hx => h x (by simp [hx])

theorem feed_fields {k depth : Nat} (st : List Frame) (hk : st.length < k) (fields done : Fields)
    (cs : List Char) (keys : ((done ++ fields).map Prod.fst).Pairwise (· < ·))
    (h : ∀ f ∈ fields, ReadsBack k f.2) :
    feed ⟨st, .afterField done, .between⟩ (indentedFields depth fields ++ cs) =
      feed (.between (afterValue st (object (done ++ fields)))) cs := by
  induction fields generalizing done with
  | nil =>
    rw [indentedFields, List.append_assoc, feed_newLine]
    simp [step, structural]
  | cons f fields ih =>
    obtain ⟨key, v⟩ := f
    have hj := h (key, v) (by simp) (depth + 1) (.object done key :: st) .value
      (.object done key :: st) (indentedFields depth fields ++ cs) rfl hk
      (stops_indentedFields depth fields cs)
    have hlast : ∀ e ∈ done, e.1 < key := by
      rw [List.map_append, List.pairwise_append] at keys
      intro e he
      exact keys.2.2 e.1 (List.mem_map_of_mem he) key (by simp)
    have hrest := ih (done ++ [(key, v)]) (by rw [List.append_assoc]; exact keys)
      fun x hx => h x (by simp [hx])
    have hcomma : step ⟨st, .afterField done, .between⟩ ',' =
        some ⟨st, .key done, .between⟩ := by simp [step, structural]
    have hcolon (cs : List Char) : feed ⟨st, .colon done key, .between⟩ (':' :: ' ' :: cs) =
        feed ⟨.object done key :: st, .value, .between⟩ cs := by simp [step, structural]
    rw [indentedFields, List.cons_append, feed_cons, hcomma, Option.bind_some, List.append_assoc,
      feed_newLine, List.append_assoc, feed_quoted]
    simp only [textRead, Option.bind_some, List.cons_append, hcolon]
    rw [List.append_assoc, hj, afterValue, State.between, Keyed.insert_of_last _ _ _ hlast]
    simpa using hrest

theorem step_open {stack : List Frame} {place : Place} {st : List Frame}
    (hst : valueStack stack place = some st) (hroom : st.length < openLimit) :
    step ⟨stack, place, .between⟩ '[' = some ⟨st, .firstItem, .between⟩ ∧
      step ⟨stack, place, .between⟩ '{' = some ⟨st, .firstKey, .between⟩ := by
  simp [step, structural, openContainer, hst, hroom]

/-- Every value that fits is read back, where the containers around it leave room for its own. -/
theorem readsBack {n : Nat} {j : Json} (h : Fits n j) : ∀ k, k + n ≤ openLimit → ReadsBack k j := by
  induction h with
  | null n =>
    intro k _ depth stack place st cs hst _ hcs
    have hw := feed_wordChars stack place 'n' ['u', 'l', 'l'] (j := null) rfl
      (by simp [step, structural]) (List.all_eq_true.1 rfl) hcs
    rwa [scalar_eq stack place hst] at hw
  | bool n b =>
    intro k _ depth stack place st cs hst _ hcs
    cases b with
    | true =>
      have hw := feed_wordChars stack place 't' ['r', 'u', 'e'] (j := .bool true) rfl
        (by simp [step, structural]) (List.all_eq_true.1 rfl) hcs
      rwa [scalar_eq stack place hst] at hw
    | false =>
      have hw := feed_wordChars stack place 'f' ['a', 'l', 's', 'e'] (j := .bool false) rfl
        (by simp [step, structural]) (List.all_eq_true.1 rfl) hcs
      rwa [scalar_eq stack place hst] at hw
  | int n i hi =>
    intro k _ depth stack place st cs hst _ hcs
    rw [indentedChars, feed_intChars stack place i hi hcs, scalar_eq stack place hst]
    rfl
  | text n s =>
    intro k _ depth stack place st cs hst _ _
    have hs : textRead stack place s = scalar stack place (.text s) := by
      cases place <;> simp_all [textRead, valueStack]
    rw [indentedChars, feed_quoted, hs, scalar_eq stack place hst]
    rfl
  | list n items _ ih =>
    intro k hk depth stack place st cs hst hroom _
    have hopen := (step_open hst (by omega)).1
    cases items with
    | nil =>
      have hclose : step ⟨st, .firstItem, .between⟩ ']' =
          some (.between (afterValue st (.list []))) := by simp [step, structural]
      simp only [indentedChars, List.cons_append, List.nil_append, feed_cons, hopen, hclose,
        Option.bind_some]
    | cons j items =>
      have items' : ∀ x ∈ j :: items, ReadsBack (k + 1) x := fun x hx => ih x hx (k + 1) (by omega)
      have hj := items' j (by simp) (depth + 1) st .firstItem (.list [] :: st)
        (indentedItems depth items ++ cs) rfl (by simpa using hroom)
        (stops_indentedItems depth items cs)
      rw [indentedChars, List.cons_append, feed_cons, hopen, Option.bind_some, List.append_assoc,
        feed_newLine, List.append_assoc, hj, afterValue, State.between]
      exact feed_items st (by omega) items [j] cs fun x hx => items' x (by simp [hx])
  | object n fields keys _ ih =>
    intro k hk depth stack place st cs hst hroom _
    have hopen := (step_open hst (by omega)).2
    cases fields with
    | nil =>
      have hclose : step ⟨st, .firstKey, .between⟩ '}' =
          some (.between (afterValue st (.object []))) := by simp [step, structural]
      simp only [indentedChars, List.cons_append, List.nil_append, feed_cons, hopen, hclose,
        Option.bind_some]
    | cons f fields =>
      obtain ⟨key, v⟩ := f
      have fields' : ∀ x ∈ (key, v) :: fields, ReadsBack (k + 1) x.2 := fun x hx =>
        ih x hx (k + 1) (by omega)
      have hj := fields' (key, v) (by simp) (depth + 1) (.object [] key :: st) .value
        (.object [] key :: st) (indentedFields depth fields ++ cs) rfl (by simpa using hroom)
        (stops_indentedFields depth fields cs)
      have hcolon (cs : List Char) : feed ⟨st, .colon [] key, .between⟩ (':' :: ' ' :: cs) =
          feed ⟨.object [] key :: st, .value, .between⟩ cs := by simp [step, structural]
      rw [indentedChars, List.cons_append, feed_cons, hopen, Option.bind_some, List.append_assoc,
        feed_newLine, List.append_assoc, feed_quoted]
      simp only [textRead, Option.bind_some, List.cons_append, hcolon]
      rw [List.append_assoc, hj, afterValue, State.between]
      exact feed_fields st (by omega) fields [(key, v)] cs keys fun x hx => fields' x (by simp [hx])

end Reader

theorem ofChars?_indentedChars {j : Json} (h : Fits Reader.openLimit j) :
    ofChars? (indentedChars 0 j ++ ['\n']) = some j := by
  have hj := Reader.readsBack h 0 (by omega) 0 [] .value [] ['\n'] rfl (by simp) ⟨rfl, rfl⟩
  have hread : (indentedChars 0 j ++ ['\n']).foldlM Reader.step Reader.State.initial =
      some ⟨[], .finished j, .between⟩ := by
    refine hj.trans ?_
    simp [Reader.afterValue, Reader.State.between, Reader.step, Reader.structural]
  rw [ofChars?, hread]
  rfl

/-- The bytes of the indented text and a line feed are read as the value. -/
theorem ofBytes?_indented {j : Json} (h : Fits Reader.openLimit j) :
    ofBytes? (j.indented ++ "\n").toUTF8 = some j := by
  have hutf : String.fromUTF8? (j.indented ++ "\n").toUTF8 = some (j.indented ++ "\n") := by
    unfold String.fromUTF8?
    exact dif_pos (String.isValidUTF8 _)
  have hchars : (j.indented ++ "\n").toList = indentedChars 0 j ++ ['\n'] := by
    simp [indented, String.toList_append]
  rw [ofBytes?, hutf, Option.bind_eq_bind, Option.bind_some, ofText?, hchars]
  exact ofChars?_indentedChars h

end WorkQueue.Json
