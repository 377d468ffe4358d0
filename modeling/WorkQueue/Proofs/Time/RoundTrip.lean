import Mathlib.Data.List.TakeWhile
import Mathlib.Tactic.SplitIfs
import WorkQueue.Proofs.Text.Decimal
import WorkQueue.Time.Reader

/-!
# Writing and reading a timestamp

Every instant is read back from its written form: years of any size and sign, leap seconds, and
fractions of any precision. A stamp that is no instant has the written form of one, and that instant
is read in its place.
-/

namespace WorkQueue.Time

open Text

namespace Stamp

namespace Reader

/-- Whether a text ends a number that stands before it. -/
def EndsDigits : List Char → Prop
  | [] => True
  | c :: _ => c.isDigit = false

theorem toNat_of_isDigit {c : Char} (h : c.isDigit = true) : 48 ≤ c.toNat ∧ c.toNat ≤ 57 := by
  simp only [Char.isDigit, Bool.and_eq_true, decide_eq_true_eq, ge_iff_le,
    UInt32.le_iff_toNat_le] at h
  exact h

theorem not_isBlankChar_of_isDigit {c : Char} (h : c.isDigit = true) : isBlankChar c = false := by
  obtain ⟨hlow, hhigh⟩ := toNat_of_isDigit h
  simp only [isBlankChar, blankRanges, List.any_cons, List.any_nil, Bool.or_false,
    Bool.or_eq_false_iff, Bool.and_eq_false_iff, decide_eq_false_iff_not]
  omega

theorem trimStart_cons {c : Char} (h : isBlankChar c = false) (cs : List Char) :
    trimStart (c :: cs) = c :: cs := by
  simp [trimStart, h]

theorem trimStart_digits {ds : List Char} (hne : ds ≠ []) (h : ∀ c ∈ ds, c.isDigit = true)
    (rest : List Char) : trimStart (ds ++ rest) = ds ++ rest := by
  cases ds with
  | nil => exact absurd rfl hne
  | cons c ds => exact trimStart_cons (not_isBlankChar_of_isDigit (h c (by simp))) _

theorem digits_append {ds rest : List Char} (hne : ds ≠ []) (h : ∀ c ∈ ds, c.isDigit = true)
    (hrest : EndsDigits rest) : digits (ds ++ rest) = .ok (ds, rest) := by
  have htake : (ds ++ rest).takeWhile Char.isDigit = ds := by
    rw [List.takeWhile_append_of_pos h]
    cases rest with
    | nil => simp
    | cons c rest => simp [List.takeWhile_cons_of_neg (Bool.eq_false_iff.1 hrest)]
  have hdrop : (ds ++ rest).dropWhile Char.isDigit = rest := by
    rw [List.dropWhile_append_of_pos h]
    cases rest with
    | nil => rfl
    | cons c rest => exact List.dropWhile_cons_of_neg (Bool.eq_false_iff.1 hrest)
  cases ds with
  | nil => exact absurd rfl hne
  | cons c ds =>
    rw [List.cons_append] at htake hdrop ⊢
    rw [digits, if_pos (h c (by simp)), htake, hdrop]

theorem zeroPadded_ne_nil {width n : Nat} (hw : 0 < width) : (zeroPadded width n).toList ≠ [] := by
  have hl := le_length_zeroPadded width n
  intro h
  rw [h, List.length_nil] at hl
  omega

theorem digitsValue_zeroPadded (width n : Nat) : digitsValue (zeroPadded width n).toList = n :=
  ofDigitChars_zeroPadded width n

theorem number_zeroPadded (width n : Nat) (hw : 0 < width) (hn : n < Nat.pow 10 width)
    {rest : List Char} (hrest : EndsDigits rest) :
    number width ((zeroPadded width n).toList ++ rest) = .ok (n, rest) := by
  have hl := length_zeroPadded_eq hw hn
  rw [number, digits_append (zeroPadded_ne_nil hw) (fun _ => isDigit_of_mem_zeroPadded) hrest]
  simp [bind, Except.bind, pure, Except.pure, List.take_of_length_le hl.le,
    List.drop_of_length_le hl.le, digitsValue_zeroPadded]

theorem field_zeroPadded (n low high : Nat) (hn : n < 100) (hlow : low ≤ n) (hhigh : n ≤ high)
    (rest : List Char) (hrest : EndsDigits rest) :
    field 2 low high ((zeroPadded 2 n).toList ++ rest) = .ok (n, rest) := by
  rw [field, trimStart_digits (zeroPadded_ne_nil (by decide)) fun _ => isDigit_of_mem_zeroPadded,
    number_zeroPadded 2 n (by decide) hn hrest]
  simp [bind, Except.bind, pure, Except.pure, hlow, hhigh]

theorem mark_cons {m : Char} (h : isBlankChar m = false) (rest : List Char) :
    mark m (m :: rest) = .ok rest := by
  simp [mark, trimStart_cons h]

theorem separator_T (rest : List Char) : separator ('T' :: rest) = .ok rest := rfl

theorem sign_of_isDigit {c : Char} (h : c.isDigit = true) : sign c = none := by
  have hm : c ≠ '-' := by rintro rfl; exact absurd h (by decide)
  have hp : c ≠ '+' := by rintro rfl; exact absurd h (by decide)
  rw [sign, if_neg hm, if_neg hp]

end Reader

open Reader

theorem year_unsigned {ds rest : List Char} {c : Char} (hc : c.isDigit = true) {n : Nat}
    (hn : number 4 (c :: ds ++ rest) = .ok (n, rest)) :
    year (c :: ds ++ rest) = boundedYear n rest := by
  have htrim := trimStart_cons (not_isBlankChar_of_isDigit hc) (ds ++ rest)
  rw [List.cons_append] at hn ⊢
  rw [year, htrim, List.head?_cons, Option.bind_some, sign_of_isDigit hc]
  simp only [hn, bind, Except.bind]

theorem year_signed {m : Char} {west : Bool} (hm : sign m = some west)
    (hblank : isBlankChar m = false) {ds rest : List Char}
    (hds : digits (ds ++ rest) = .ok (ds, rest)) :
    year (m :: (ds ++ rest)) =
      boundedYear (if west then -(digitsValue ds : Int) else digitsValue ds) rest := by
  rw [year, trimStart_cons hblank, List.head?_cons, Option.bind_some, hm]
  simp only [List.tail_cons, hds, bind, Except.bind]

theorem boundedYear_of_mem {y : Int} (h : leastYear ≤ y ∧ y ≤ greatestYear) (rest : List Char) :
    boundedYear y rest = .ok (y, rest) := by
  unfold leastYear greatestYear at h
  exact if_pos (by omega)

theorem year_yearText {y : Int} (h : leastYear ≤ y ∧ y ≤ greatestYear) (rest : List Char)
    (hrest : EndsDigits rest) : year ((yearText y).toList ++ rest) = .ok (y, rest) := by
  have hdigits (n : Nat) : digits ((zeroPadded 4 n).toList ++ rest) =
      .ok ((zeroPadded 4 n).toList, rest) :=
    digits_append (zeroPadded_ne_nil (by decide)) (fun _ => isDigit_of_mem_zeroPadded) hrest
  rw [← boundedYear_of_mem h]
  unfold yearText
  split_ifs with hplain hneg
  · have hless : y.toNat < 10000 := by omega
    have hn := number_zeroPadded 4 y.toNat (by decide) hless hrest
    cases hz : (zeroPadded 4 y.toNat).toList with
    | nil => exact absurd hz (zeroPadded_ne_nil (by decide))
    | cons c ds =>
      have hc : c ∈ (zeroPadded 4 y.toNat).toList := by simp [hz]
      rw [hz] at hn
      rw [year_unsigned (isDigit_of_mem_zeroPadded hc) hn, Int.toNat_of_nonneg hplain.1]
  · have hminus : "-".toList = ['-'] := rfl
    have hy : -(y.natAbs : Int) = y := by omega
    rw [String.toList_append, hminus, List.append_assoc, List.singleton_append,
      year_signed rfl rfl (hdigits y.natAbs), digitsValue_zeroPadded, if_pos rfl, hy]
  · have hplus : "+".toList = ['+'] := rfl
    have hy : (y.natAbs : Int) = y := by omega
    rw [String.toList_append, hplus, List.append_assoc, List.singleton_append,
      year_signed rfl rfl (hdigits y.natAbs), digitsValue_zeroPadded, if_neg Bool.false_ne_true,
      hy]

/-- Decimals scaled to nine digits are read as what they count. -/
theorem fraction_zeroPadded (width n : Nat) (hw : 0 < width) (hmost : width ≤ 9)
    (hn : n < Nat.pow 10 width) {rest : List Char} (hrest : EndsDigits rest) :
    fraction ('.' :: ((zeroPadded width n).toList ++ rest)) =
      .ok (n * Nat.pow 10 (9 - width), rest) := by
  have hl := length_zeroPadded_eq hw hn
  have htake : (zeroPadded width n).toList.take 9 = (zeroPadded width n).toList :=
    List.take_of_length_le (by omega)
  rw [fraction, digits_append (zeroPadded_ne_nil hw) (fun _ => isDigit_of_mem_zeroPadded) hrest]
  simp only [bind, Except.bind, pure, Except.pure, htake, hl, digitsValue_zeroPadded]

theorem fraction_fractionText {n : Nat} (hn : n < 1000000000) (rest : List Char)
    (hrest : EndsDigits rest) (hpoint : ∀ cs, rest ≠ '.' :: cs) :
    fraction ((fractionText n).toList ++ rest) = .ok (n, rest) := by
  have hdot : ".".toList = ['.'] := rfl
  unfold fractionText
  split_ifs with hzero hmilli hmicro
  · subst hzero
    show fraction rest = _
    unfold fraction
    split
    · exact absurd rfl (hpoint _)
    · rfl
  · have hvalue : n / 1000000 * Nat.pow 10 (9 - 3) = n :=
      Nat.div_mul_cancel (Nat.dvd_of_mod_eq_zero hmilli)
    have hless : n / 1000000 < 1000 := by omega
    rw [String.toList_append, hdot, List.append_assoc, List.singleton_append,
      fraction_zeroPadded 3 _ (by decide) (by decide) hless hrest, hvalue]
  · have hvalue : n / 1000 * Nat.pow 10 (9 - 6) = n :=
      Nat.div_mul_cancel (Nat.dvd_of_mod_eq_zero hmicro)
    have hless : n / 1000 < 1000000 := by omega
    rw [String.toList_append, hdot, List.append_assoc, List.singleton_append,
      fraction_zeroPadded 6 _ (by decide) (by decide) hless hrest, hvalue]
  · have hvalue : n * Nat.pow 10 (9 - 9) = n := Nat.mul_one n
    rw [String.toList_append, hdot, List.append_assoc, List.singleton_append,
      fraction_zeroPadded 9 _ (by decide) (by decide) hn hrest, hvalue]

theorem endsDigits_fractionText (n : Nat) : EndsDigits ((fractionText n).toList ++ ['Z']) := by
  unfold fractionText
  split_ifs
  · rfl
  all_goals
    rw [String.toList_append, List.append_assoc]
    rfl

theorem date_of? (d : Date) : Date.of? d.year d.month d.day = some d :=
  dif_pos ⟨d.year_mem, d.month_mem, d.day_mem⟩

theorem of?_self (t : Instant) : of? t.date t.second t.nano = some t :=
  dif_pos ⟨t.second_lt, t.regular.imp_right fun h => ⟨t.nano_lt, h⟩⟩

theorem minus?_zero (t : Instant) : t.minus? 0 = some t := by
  have hs := t.second_lt
  have hlow : ¬ ((t.second : Int) - 0 < 0) := by omega
  have hhigh : ¬ (86400 ≤ (t.second : Int) - 0) := by omega
  unfold minus?
  rw [if_neg hlow, if_neg hhigh, Int.sub_zero, Int.toNat_natCast]
  exact of?_self t

/-- The second that is written is the second of the minute, or sixty in a leap second. -/
theorem writtenSecond (t : Instant) : t.second % 60 + t.nano / 1000000000 ≤ 60 ∧
    (if t.second % 60 + t.nano / 1000000000 = 60 then 1 else 0) = t.nano / 1000000000 := by
  have h := t.regular
  have hn := t.nano_lt
  unfold Regular at h
  split <;> omega

theorem text_toList (t : Stamp) : t.text.toList = (yearText t.date.year).toList ++ '-' ::
    ((zeroPadded 2 t.date.month).toList ++ '-' :: ((zeroPadded 2 t.date.day).toList ++ 'T' ::
    ((zeroPadded 2 (t.second / 3600)).toList ++ ':' ::
    ((zeroPadded 2 (t.second / 60 % 60)).toList ++ ':' ::
    ((zeroPadded 2 (t.second % 60 + t.nano / 1000000000)).toList ++
    ((fractionText (t.nano % 1000000000)).toList ++ ['Z'])))))) := by
  simp [text, dateText, hourMinuteText, String.toList_append]

/-- An instant is read back from its written form. -/
theorem ofText_toStamp_text (t : Instant) : ofText t.toStamp.text = .ok t := by
  obtain ⟨hmost, hleap⟩ := writtenSecond t
  have hmonth := t.date.month_mem
  have hday := t.date.day_mem
  have hlast := daysInMonth_le t.date.year t.date.month
  have hsecond := t.second_lt
  have hnano : t.nano % 1000000000 + 1000000000 * (t.nano / 1000000000) = t.nano := by omega
  have htime : 3600 * (t.second / 3600) + 60 * (t.second / 60 % 60) +
      (t.second % 60 + t.nano / 1000000000 - t.nano / 1000000000) = t.second := by omega
  have ok_bind {α β : Type} (a : α) (f : α → Except StampError β) :
      (Except.ok a >>= f) = f a := rfl
  have hyear (cs : List Char) := year_yearText t.date.year_mem ('-' :: cs) rfl
  have hmonth (cs : List Char) := field_zeroPadded t.date.month 1 12 (by omega) hmonth.1 hmonth.2
    ('-' :: cs) rfl
  have hday (cs : List Char) := field_zeroPadded t.date.day 1 31 (by omega) hday.1 (by omega)
    ('T' :: cs) rfl
  have hhour (cs : List Char) := field_zeroPadded (t.second / 3600) 0 23 (by omega) (by omega)
    (by omega) (':' :: cs) rfl
  have hminute (cs : List Char) := field_zeroPadded (t.second / 60 % 60) 0 59 (by omega) (by omega)
    (by omega) (':' :: cs) rfl
  have hsecond := field_zeroPadded _ 0 60 (by omega) (by omega) hmost _
    (endsDigits_fractionText (t.nano % 1000000000))
  have hfraction := fraction_fractionText (n := t.nano % 1000000000) (by omega) ['Z'] rfl (by simp)
  have hmark (m : Char) (h : isBlankChar m = false) (cs : List Char) := mark_cons h cs
  have hoffset : offset ['Z'] = .ok (0, []) := rfl
  rw [ofText, ofChars, text_toList]
  simp only [ok_bind, hyear, hmark '-' rfl, hmark ':' rfl, hmonth, hday, separator_T, hhour,
    hminute, hsecond, hfraction, hoffset, hleap, date_of?, Option.bind_some, hnano, htime,
    of?_self, minus?_zero]
  rfl

/-- The instant that is written as a stamp is: a leap second that does not end its minute is
written as the second after it. -/
def settled (t : Stamp) : Instant :=
  if h : t.Regular then ⟨t, h⟩
  else
    { date := t.date
      second := t.second + 1
      nano := t.nano - 1000000000
      second_lt := by
        have := t.second_lt
        unfold Regular at h
        omega
      nano_lt := (Nat.sub_le _ _).trans_lt t.nano_lt
      regular := Or.inl (by
        have := t.nano_lt
        dsimp only
        omega) }

theorem settled_of_regular {t : Stamp} (h : t.Regular) : t.settled.toStamp = t := by
  rw [settled, dif_pos h]

theorem settled_eq_self_iff {t : Stamp} : t.settled.toStamp = t ↔ t.Regular :=
  ⟨fun h => h ▸ t.settled.regular, settled_of_regular⟩

theorem text_settled (t : Stamp) : t.settled.text = t.text := by
  by_cases h : t.Regular
  · rw [settled_of_regular h]
  · have hnano := t.nano_lt
    have hirregular := h
    unfold Regular at hirregular
    have hhour : (t.second + 1) / 3600 = t.second / 3600 := by omega
    have hminute : (t.second + 1) / 60 % 60 = t.second / 60 % 60 := by omega
    have hsecond : (t.second + 1) % 60 + (t.nano - 1000000000) / 1000000000 =
        t.second % 60 + t.nano / 1000000000 := by omega
    have hfraction : (t.nano - 1000000000) % 1000000000 = t.nano % 1000000000 := by omega
    simp only [text, hourMinuteText, settled, dif_neg h, hhour, hminute, hsecond, hfraction]

/-- What is read from the written form of a stamp. -/
theorem ofText_text (t : Stamp) : ofText t.text = .ok t.settled := by
  rw [← text_settled, ofText_toStamp_text]

end Stamp

end WorkQueue.Time
