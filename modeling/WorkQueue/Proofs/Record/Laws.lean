import Mathlib.Data.List.Perm.Basic
import WorkQueue.Proofs.Json.RoundTrip
import WorkQueue.Proofs.Time.RoundTrip
import WorkQueue.Record.Entity

/-!
# The laws of records

What stores rely on, whatever kind of record they keep. A record has the identity that it was made
with, through every patch; listing drops and doubles nothing; and a record whose times are those of
instants is read back from the form in which it is kept. A clock gives instants, and so does every
record that is read. The records of every entity obey these laws.
-/

namespace WorkQueue

open Json Time

/-- Both times of the record are those of instants. -/
def Record.Regular {R : Type} [Record R] (r : R) : Prop :=
  (Record.createdAt r).Regular ∧ (Record.updatedAt r).Regular

def Record.AllRegular {R : Type} [Record R] (records : List R) : Prop :=
  ∀ r ∈ records, Record.Regular r

class LawfulRecord (R : Type) [Record R] : Prop where
  id_ofDraft (id : String) (now : Stamp) (draft : Record.Draft R) :
    Record.id (Record.ofDraft id now draft) = id
  id_patch {p : Record.Patch R} {r r' : R} (h : Record.patch p r = .ok r') :
    Record.id r' = Record.id r
  id_touch (now : Stamp) (r : R) : Record.id (Record.touch now r) = Record.id r
  order_perm (records : List R) : (Record.order records).Perm records
  encode_eq (r : R) : Record.encode r = .ok (Record.toJson r)
  /-- a record holds no lists and no objects -/
  fits (r : R) : Fits 1 (Record.toJson r)
  regular_ofDraft (id : String) (now : Instant) (draft : Record.Draft R) :
    Record.Regular (Record.ofDraft (R := R) id now.toStamp draft)
  regular_patch {p : Record.Patch R} {r r' : R} (h : Record.patch p r = .ok r')
    (hr : Record.Regular r) : Record.Regular r'
  regular_touch (now : Instant) {r : R} (hr : Record.Regular r) :
    Record.Regular (Record.touch now.toStamp r)
  regular_of_decode {j : Json} {r : R} (h : Record.decode j = .ok r) : Record.Regular r
  exists_decode_toJson (r : R) : ∃ r' : R, Record.decode (Record.toJson r) = .ok r'
  decode_toJson {r : R} (hr : Record.Regular r) : Record.decode (Record.toJson r) = .ok r

theorem LawfulRecord.id_touch_patch {R : Type} [Record R] [LawfulRecord R] {p : Record.Patch R}
    {r r' : R} (h : Record.patch p r = .ok r') (now : Stamp) :
    Record.id (Record.touch now r') = Record.id r := (id_touch now r').trans (id_patch h)

/-- A record has the time of creation that it was made with, through every patch. -/
class DatedRecord (R : Type) [Record R] : Prop where
  createdAt_patch {p : Record.Patch R} {r r' : R} (h : Record.patch p r = .ok r') :
    Record.createdAt r' = Record.createdAt r
  createdAt_touch (now : Stamp) (r : R) :
    Record.createdAt (Record.touch now r) = Record.createdAt r

namespace Json

theorem Fits.mono {m n : Nat} {j : Json} (h : Fits m j) (hmn : m ≤ n) : Fits n j := by
  induction h generalizing n with
  | null => exact .null n
  | bool _ b => exact .bool n b
  | int _ i hi => exact .int n i hi
  | text _ s => exact .text n s
  | list m items _ ih =>
    obtain ⟨k, rfl⟩ : ∃ k, n = k + 1 := ⟨n - 1, by omega⟩
    exact .list k items fun j hj => ih j hj (by omega)
  | object m fields keys _ ih =>
    obtain ⟨k, rfl⟩ : ∃ k, n = k + 1 := ⟨n - 1, by omega⟩
    exact .object k fields keys fun f hf => ih f hf (by omega)

theorem fits_ofFields {n : Nat} {fields : Fields} (h : ∀ f ∈ fields, Fits n f.2) :
    Fits (n + 1) (ofFields fields) :=
  .object n _ (Keyed.ofList_ascending fields) fun f hf => h f (Keyed.mem_of_mem_ofList hf)

/-! ### Fields that are present -/

theorem mem_presentFields {fs : List (String × Option Json)} {key : String} {j : Json} :
    (key, j) ∈ presentFields fs ↔ (key, some j) ∈ fs := by
  simp only [presentFields, List.mem_filterMap, Option.map_eq_some_iff, Prod.mk.injEq]
  constructor
  · rintro ⟨⟨k, o⟩, hf, j', rfl, rfl, rfl⟩
    exact hf
  · intro hf
    exact ⟨_, hf, j, rfl, rfl, rfl⟩

theorem fits_presentFields {n : Nat} {fs : List (String × Option Json)}
    (h : ∀ f ∈ fs, ∀ j ∈ f.2, Fits n j) : Fits (n + 1) (ofFields (presentFields fs)) :=
  fits_ofFields fun _ hf => h _ (mem_presentFields.1 hf) _ rfl

theorem presentFields_keys_sublist (fs : List (String × Option Json)) :
    ((presentFields fs).map Prod.fst).Sublist (fs.map Prod.fst) := by
  induction fs with
  | nil => exact List.Sublist.slnil
  | cons f fs ih =>
    obtain ⟨key, value⟩ := f
    cases value with
    | none => exact ih.cons key
    | some j => exact ih.cons_cons key

theorem lookup_presentFields {fs : List (String × Option Json)} (h : (fs.map Prod.fst).Nodup)
    (key : String) : (presentFields fs).lookup key = (List.lookup key fs).join := by
  induction fs with
  | nil => rfl
  | cons f fs ih =>
    obtain ⟨k, value⟩ := f
    obtain ⟨hk, hfs⟩ := List.nodup_cons.1 h
    rw [Keyed.lookup_cons_eq]
    cases value with
    | none =>
      have hrest : (presentFields ((k, none) :: fs)) = presentFields fs := rfl
      rw [hrest, ih hfs]
      split_ifs with heq
      · subst heq
        rw [Keyed.lookup_eq_none hk]
        rfl
      · rfl
    | some j =>
      have hrest : presentFields ((k, some j) :: fs) = (k, j) :: presentFields fs := rfl
      rw [hrest, Keyed.lookup_cons_eq, ih hfs]
      split_ifs <;> rfl

/-! ### Reading a row -/

namespace Reading

variable {α β : Type}

@[simp] theorem map_value (f : α → β) (a : α) : f <$> value a = value (f a) := rfl

@[simp] theorem seq_value (f : α → β) (a : α) : value f <*> value a = value (f a) := rfl

/-- What is read, if anything is, has the property. -/
def Every (P : α → Prop) (x : Reading α) : Prop := ∀ a, x = value a → P a

theorem every_map {P : β → Prop} {f : α → β} {x : Reading α} (h : ∀ a, P (f a)) :
    Every P (f <$> x) := by
  intro b hb
  cases x with
  | value a =>
    cases hb
    exact h a
  | fault | absent => cases hb

/-- Both readings have a value only where each of them has one. -/
theorem exists_value_of_both {f : Reading (α → β)} {x : Reading α} {b : β}
    (h : both f x = value b) : ∃ g a, f = value g ∧ x = value a ∧ g a = b := by
  cases f with
  | value g =>
    cases x with
    | value a =>
      cases h
      exact ⟨g, a, rfl, rfl, rfl⟩
    | fault | absent => cases h
  | fault p e =>
    cases x with
    | fault q e' =>
      unfold both at h
      dsimp only at h
      split at h <;> cases h
    | value | absent => cases h
  | absent e => cases x <;> cases h

theorem Every.seq {P : β → Prop} {Q : α → Prop} {f : Reading (α → β)} {x : Reading α}
    (hf : Every (fun g => ∀ a, Q a → P (g a)) f) (hx : Every Q x) : Every P (f <*> x) := by
  intro b hb
  obtain ⟨g, a, hg, ha, rfl⟩ := exists_value_of_both hb
  exact hf g hg a (hx a ha)

theorem Every.field {P : β → Prop} {f : Reading (α → β)} {x : Reading α}
    (hf : Every (fun g => ∀ a, P (g a)) f) : Every P (f <*> x) :=
  .seq (Q := fun _ => True) (fun g hg a _ => hf g hg a) fun _ _ => trivial

end Reading

variable {α : Type}

/-- An object of the present fields. -/
def Row.kept (fs : List (String × Option Json)) : Row :=
  ⟨Keyed.ofList (presentFields fs), .missingField, none⟩

theorem asStruct_kept {name : String} {fields : List String} {read : Row → Reading α}
    {fs : List (String × Option Json)} {a : α} (h : read (.kept fs) = .value a) :
    asStruct name fields read (ofFields (presentFields fs)) = .ok a := by
  have hrow : Row.ofJson name fields (ofFields (presentFields fs)) = .ok (.kept fs) := rfl
  rw [asStruct, hrow]
  simp only [bind, Except.bind, h, Reading.toExcept]
  rfl

namespace Row

variable {row : Row} {field : String} {decode : Decoder α} {a : α}

theorem lookup_kept (fs : List (String × Option Json)) (h : (fs.map Prod.fst).Nodup)
    (key : String) : (kept fs).found.lookup key = (List.lookup key fs).join := by
  rw [kept, Keyed.lookup_ofList,
    Keyed.lookup_reverse ((presentFields_keys_sublist fs).nodup h), lookup_presentFields h]

theorem read_of_lookup {j : Json} {absent : Reading α} (hj : row.found.lookup field = some j)
    (ha : decode j = .ok a) : row.read field decode absent = .value a := by
  rw [read, hj]
  simp only [ha]

theorem required_of_lookup {j : Json} (hj : row.found.lookup field = some j)
    (ha : decode j = .ok a) : row.required field decode = .value a :=
  read_of_lookup hj ha

theorem orElse_of_lookup {j : Json} {default : α} (hj : row.found.lookup field = some j)
    (ha : decode j = .ok a) : row.orElse field decode default = .value a :=
  read_of_lookup hj ha

theorem required_asText {s : String} (h : row.found.lookup field = some (text s)) :
    row.required field asText = .value s :=
  required_of_lookup h rfl

theorem orElse_asText {s default : String} (h : row.found.lookup field = some (text s)) :
    row.orElse field asText default = .value s :=
  orElse_of_lookup h rfl

theorem orElse_asBool {b default : Bool} (h : row.found.lookup field = some (bool b)) :
    row.orElse field asBool default = .value b :=
  orElse_of_lookup h rfl

/-- An optional field is read back, unless its value is written as null. -/
theorem optional_of_lookup {encode : α → Json} {o : Option α}
    (h : row.found.lookup field = o.map encode)
    (ha : ∀ a ∈ o, encode a ≠ null ∧ decode (encode a) = .ok a) :
    row.optional field decode = .value o := by
  cases o with
  | none =>
    rw [optional, read, h]
    rfl
  | some a =>
    obtain ⟨hnull, hdecode⟩ := ha a rfl
    refine read_of_lookup h ?_
    split
    next hencode => exact absurd hencode hnull
    next => rw [hdecode]; rfl

theorem optional_asText {o : Option String} (h : row.found.lookup field = o.map text) :
    row.optional field asText = .value o :=
  optional_of_lookup h fun _ _ => ⟨nofun, rfl⟩

theorem optional_asAny {o : Option Json} (h : row.found.lookup field = o)
    (hnull : ∀ j ∈ o, j ≠ null) : row.optional field asAny = .value o :=
  optional_of_lookup (h.trans Option.map_id'.symm) fun j hj => ⟨hnull j hj, rfl⟩

end Row

theorem asStamp_stamp (t : Stamp) : asStamp (stamp t) = .ok t.settled.toStamp := by
  simp only [stamp, asStamp, t.ofText_text]

theorem regular_of_asStamp {j : Json} {t : Stamp} (h : asStamp j = .ok t) : t.Regular := by
  cases j with
  | text s =>
    unfold asStamp at h
    cases hread : Stamp.ofText s with
    | ok instant =>
      simp only [hread] at h
      cases h
      exact instant.regular
    | error e =>
      simp only [hread] at h
      cases h
  | _ => cases h

theorem Row.every_asStamp (row : Row) (field : String) :
    Reading.Every Stamp.Regular (row.required field asStamp) := by
  intro t h
  unfold required read at h
  split at h
  · cases h
  · split at h
    next hread =>
      cases h
      exact regular_of_asStamp hread
    next => cases h

theorem Row.exists_read_of_asStruct {name : String} {fields : List String}
    {read : Row → Reading α} {j : Json} {a : α} (h : asStruct name fields read j = .ok a) :
    ∃ row, read row = .value a := by
  unfold asStruct at h
  cases hrow : Row.ofJson name fields j with
  | error e =>
    rw [hrow] at h
    cases h
  | ok row =>
    rw [hrow] at h
    use row
    cases hread : read row with
    | value b =>
      simp only [bind, Except.bind, hread, Reading.toExcept] at h
      split at h
      · cases h
      · rw [Except.ok.inj h]
    | fault p e =>
      simp only [bind, Except.bind, hread, Reading.toExcept] at h
      cases h
    | absent e =>
      simp only [bind, Except.bind, hread, Reading.toExcept] at h
      cases h

/-- The times are the last two fields of every record. -/
theorem regular_of_asStruct {R : Type} [Record R] {name : String} {fields : List String}
    {read : Row → Reading R} {front : Row → Reading (Stamp → Stamp → R)} {j : Json} {r : R}
    (hread : ∀ row, read row =
      front row <*> row.required "createdAt" asStamp <*> row.required "updatedAt" asStamp)
    (htimes : ∀ row, (front row).Every fun make => ∀ createdAt updatedAt,
      Record.createdAt (make createdAt updatedAt) = createdAt ∧
        Record.updatedAt (make createdAt updatedAt) = updatedAt)
    (h : asStruct name fields read j = .ok r) : Record.Regular r := by
  obtain ⟨row, hr⟩ := Row.exists_read_of_asStruct h
  rw [hread] at hr
  have hevery : Reading.Every Record.Regular
      (front row <*> row.required "createdAt" asStamp <*> row.required "updatedAt" asStamp) := by
    refine .seq (.seq (Q := Stamp.Regular) (fun make hmake createdAt hcreated => ?_)
      (row.every_asStamp _)) (row.every_asStamp _)
    intro updatedAt hupdated
    obtain ⟨hc, hu⟩ := htimes row make hmake createdAt updatedAt
    exact ⟨hc.symm ▸ hcreated, hu.symm ▸ hupdated⟩
  exact hevery r hr

end Json

/-! ### The five kinds of record -/

theorem fits_text (s : String) : Fits 0 (text s) := .text 0 s

theorem fits_bool (b : Bool) : Fits 0 (bool b) := .bool 0 b

theorem fits_stamp (t : Stamp) : Fits 0 (stamp t) := .text 0 _

/-- The times of the instants that are written. -/
def Role.settled (r : Role) : Role :=
  { r with
    createdAt := r.createdAt.settled.toStamp, updatedAt := r.updatedAt.settled.toStamp }

theorem Role.settled_of_regular {r : Role} (h : Record.Regular r) : r.settled = r := by
  have hc : r.createdAt.Regular := h.1
  have hu : r.updatedAt.Regular := h.2
  rw [settled, Stamp.settled_of_regular hc, Stamp.settled_of_regular hu]

theorem Role.decode_toJson (r : Role) :
    Record.decode (Record.toJson r) = .ok r.settled := by
  refine asStruct_kept ?_
  have lookup := Row.lookup_kept r.entries (by simp [entries, timeFields])
  rw [read, Row.required_asText (lookup "id"),
    Row.required_asText (lookup "name"),
    Row.orElse_asText (lookup "prompt"),
    Row.required_of_lookup (lookup "createdAt") (asStamp_stamp _),
    Row.required_of_lookup (lookup "updatedAt") (asStamp_stamp _)]
  rfl

instance : LawfulRecord Role where
  id_ofDraft _ _ _ := rfl
  id_patch h := by
    cases h
    rfl
  id_touch _ _ := rfl
  order_perm _ := .rfl
  encode_eq _ := rfl
  fits r := fits_presentFields (by simp [Role.entries, timeFields, fits_text, fits_stamp])
  regular_ofDraft _ now _ := ⟨now.regular, now.regular⟩
  regular_patch h hr := by
    cases h
    exact hr
  regular_touch now _ hr := ⟨hr.1, now.regular⟩
  regular_of_decode := regular_of_asStruct (fun _ => rfl)
    fun _ => .field (.field (Reading.every_map fun _ _ _ _ _ => ⟨rfl, rfl⟩))
  exists_decode_toJson r := ⟨_, r.decode_toJson⟩
  decode_toJson hr := (Role.decode_toJson _).trans (congrArg _ (Role.settled_of_regular hr))

instance : DatedRecord Role where
  createdAt_patch h := by
    cases h
    rfl
  createdAt_touch _ _ := rfl

/-- The times of the instants that are written. -/
def Session.settled (s : Session) : Session :=
  { s with
    createdAt := s.createdAt.settled.toStamp, updatedAt := s.updatedAt.settled.toStamp }

theorem Session.settled_of_regular {s : Session} (h : Record.Regular s) : s.settled = s := by
  have hc : s.createdAt.Regular := h.1
  have hu : s.updatedAt.Regular := h.2
  rw [settled, Stamp.settled_of_regular hc, Stamp.settled_of_regular hu]

theorem Session.decode_toJson (s : Session) :
    Record.decode (Record.toJson s) = .ok s.settled := by
  refine asStruct_kept ?_
  have lookup := Row.lookup_kept s.entries (by simp [entries, timeFields])
  rw [read, Row.required_asText (lookup "id"),
    Row.orElse_asText (lookup "title"),
    Row.required_of_lookup (lookup "createdAt") (asStamp_stamp _),
    Row.required_of_lookup (lookup "updatedAt") (asStamp_stamp _)]
  rfl

instance : LawfulRecord Session where
  id_ofDraft _ _ _ := rfl
  id_patch h := by
    cases h
    rfl
  id_touch _ _ := rfl
  order_perm _ := .rfl
  encode_eq _ := rfl
  fits s := fits_presentFields (by simp [Session.entries, timeFields, fits_text, fits_stamp])
  regular_ofDraft _ now _ := ⟨now.regular, now.regular⟩
  regular_patch h hr := by
    cases h
    exact hr
  regular_touch now _ hr := ⟨hr.1, now.regular⟩
  regular_of_decode := regular_of_asStruct (fun _ => rfl)
    fun _ => .field (Reading.every_map fun _ _ _ _ => ⟨rfl, rfl⟩)
  exists_decode_toJson s := ⟨_, s.decode_toJson⟩
  decode_toJson hr := (Session.decode_toJson _).trans (congrArg _ (Session.settled_of_regular hr))

instance : DatedRecord Session where
  createdAt_patch h := by
    cases h
    rfl
  createdAt_touch _ _ := rfl

/-- The times of the instants that are written. -/
def Settings.settled (s : Settings) : Settings :=
  { s with
    createdAt := s.createdAt.settled.toStamp, updatedAt := s.updatedAt.settled.toStamp }

theorem Settings.settled_of_regular {s : Settings} (h : Record.Regular s) : s.settled = s := by
  have hc : s.createdAt.Regular := h.1
  have hu : s.updatedAt.Regular := h.2
  rw [settled, Stamp.settled_of_regular hc, Stamp.settled_of_regular hu]

theorem Settings.decode_toJson (s : Settings) :
    Record.decode (Record.toJson s) = .ok s.settled := by
  refine asStruct_kept ?_
  have lookup := Row.lookup_kept s.entries (by simp [entries, timeFields])
  rw [read, Row.required_asText (lookup "id"),
    Row.orElse_asBool (lookup "autorun"),
    Row.required_of_lookup (lookup "createdAt") (asStamp_stamp _),
    Row.required_of_lookup (lookup "updatedAt") (asStamp_stamp _)]
  rfl

instance : LawfulRecord Settings where
  id_ofDraft _ _ _ := rfl
  id_patch h := by
    cases h
    rfl
  id_touch _ _ := rfl
  order_perm _ := .rfl
  encode_eq _ := rfl
  fits s := fits_presentFields (by
    simp [Settings.entries, timeFields, fits_text, fits_bool, fits_stamp])
  regular_ofDraft _ now _ := ⟨now.regular, now.regular⟩
  regular_patch h hr := by
    cases h
    exact hr
  regular_touch now _ hr := ⟨hr.1, now.regular⟩
  regular_of_decode := regular_of_asStruct (fun _ => rfl)
    fun _ => .field (Reading.every_map fun _ _ _ _ => ⟨rfl, rfl⟩)
  exists_decode_toJson s := ⟨_, s.decode_toJson⟩
  decode_toJson hr := (Settings.decode_toJson _).trans (congrArg _ (Settings.settled_of_regular hr))

instance : DatedRecord Settings where
  createdAt_patch h := by
    cases h
    rfl
  createdAt_touch _ _ := rfl

/-- The times of the instants that are written. -/
def Snippet.settled (s : Snippet) : Snippet :=
  { s with
    createdAt := s.createdAt.settled.toStamp, updatedAt := s.updatedAt.settled.toStamp }

theorem Snippet.settled_of_regular {s : Snippet} (h : Record.Regular s) : s.settled = s := by
  have hc : s.createdAt.Regular := h.1
  have hu : s.updatedAt.Regular := h.2
  rw [settled, Stamp.settled_of_regular hc, Stamp.settled_of_regular hu]

theorem Snippet.decode_toJson (s : Snippet) :
    Record.decode (Record.toJson s) = .ok s.settled := by
  refine asStruct_kept ?_
  have lookup := Row.lookup_kept s.entries (by simp [entries, timeFields])
  rw [read, Row.required_asText (lookup "id"),
    Row.required_asText (lookup "name"),
    Row.required_asText (lookup "content"),
    Row.required_of_lookup (lookup "createdAt") (asStamp_stamp _),
    Row.required_of_lookup (lookup "updatedAt") (asStamp_stamp _)]
  rfl

instance : LawfulRecord Snippet where
  id_ofDraft _ _ _ := rfl
  id_patch h := by
    cases h
    rfl
  id_touch _ _ := rfl
  order_perm _ := .rfl
  encode_eq _ := rfl
  fits s := fits_presentFields (by simp [Snippet.entries, timeFields, fits_text, fits_stamp])
  regular_ofDraft _ now _ := ⟨now.regular, now.regular⟩
  regular_patch h hr := by
    cases h
    exact hr
  regular_touch now _ hr := ⟨hr.1, now.regular⟩
  regular_of_decode := regular_of_asStruct (fun _ => rfl)
    fun _ => .field (.field (Reading.every_map fun _ _ _ _ _ => ⟨rfl, rfl⟩))
  exists_decode_toJson s := ⟨_, s.decode_toJson⟩
  decode_toJson hr := (Snippet.decode_toJson _).trans (congrArg _ (Snippet.settled_of_regular hr))

instance : DatedRecord Snippet where
  createdAt_patch h := by
    cases h
    rfl
  createdAt_touch _ _ := rfl

/-! ### Work items -/

theorem Kind.ofJson_toJson (k : Kind) : ofJson k.toJson = .ok k := by
  cases k <;> rfl

theorem Status.ofJson_toJson (s : Status) : ofJson s.toJson = .ok s := by
  cases s <;> rfl

namespace Work

theorem asPriority_value (p : Priority) : asPriority (int p.value) = .ok p := by
  have hp := And.intro p.ge_min p.le_max
  have hof : Priority.ofInt? p.value = some p := dif_pos hp
  have hint : asInt Priority.least Priority.most "i64" (int p.value) = .ok p.value := if_pos hp
  rw [asPriority, hint]
  simp only [bind, Except.bind, hof]

theorem eq_patched_of_patch {p : Patch} {w w' : Work} (h : patch p w = .ok w') :
    w' = patched p w := by
  unfold patch at h
  split at h
  · exact (Except.ok.inj h).symm
  · split at h
    · exact (Except.ok.inj h).symm
    · cases h

theorem id_patch {p : Patch} {w w' : Work} (h : patch p w = .ok w') : w'.id = w.id := by
  rw [eq_patched_of_patch h, patched]

theorem createdAt_patch {p : Patch} {w w' : Work} (h : patch p w = .ok w') :
    w'.createdAt = w.createdAt := by
  rw [eq_patched_of_patch h, patched]

theorem regular_patch {p : Patch} {w w' : Work} (h : patch p w = .ok w') (hr : Record.Regular w) :
    Record.Regular w' := by
  rw [eq_patched_of_patch h]
  exact hr

theorem intInRange_value (p : Priority) : Reader.intInRange p.value = true := by
  have hlow := p.ge_min
  have hhigh := p.le_max
  unfold Priority.least at hlow
  unfold Priority.most at hhigh
  unfold Reader.intInRange
  simp only [Bool.and_eq_true, decide_eq_true_eq]
  omega

/-- The times of the instants that are written. -/
def settled (w : Work) : Work :=
  { w with
    createdAt := w.createdAt.settled.toStamp, updatedAt := w.updatedAt.settled.toStamp }

theorem settled_of_regular {w : Work} (h : Record.Regular w) : w.settled = w := by
  have hc : w.createdAt.Regular := h.1
  have hu : w.updatedAt.Regular := h.2
  rw [settled, Stamp.settled_of_regular hc, Stamp.settled_of_regular hu]

theorem decode_toJson (w : Work) : Record.decode (Record.toJson w) = .ok w.settled := by
  refine asStruct_kept ?_
  have lookup := Row.lookup_kept w.entries (by simp [entries, timeFields])
  rw [read, Row.required_asText (lookup "id"),
    Row.orElse_of_lookup (lookup "type") (Kind.ofJson_toJson _),
    Row.optional_asText (o := w.parentId) (lookup "parentId"),
    Row.required_asText (lookup "title"),
    Row.orElse_asText (lookup "body"),
    Row.orElse_of_lookup (lookup "status") (Status.ofJson_toJson _),
    Row.optional_asText (o := w.roleId) (lookup "roleId"),
    Row.optional_asText (o := w.sessionId) (lookup "sessionId"),
    Row.orElse_of_lookup (lookup "priority") (asPriority_value _),
    Row.required_of_lookup (lookup "createdAt") (asStamp_stamp _),
    Row.required_of_lookup (lookup "updatedAt") (asStamp_stamp _)]
  rfl

theorem fits_entries (w : Work) : ∀ f ∈ w.entries, ∀ j ∈ f.2, Fits 0 j := by
  have hreference (o : Option String) : ∀ j ∈ o.map text, Fits 0 j := by
    cases o <;> simp [fits_text]
  have hpriority : Fits 0 (int w.priority.value) := .int 0 _ (intInRange_value _)
  have hkind : Fits 0 w.kind.toJson := fits_text _
  have hstatus : Fits 0 w.status.toJson := fits_text _
  simp only [entries, timeFields, List.cons_append, List.nil_append, List.forall_mem_cons,
    Option.mem_some_iff, forall_eq']
  exact ⟨fits_text _, hkind, hreference _, fits_text _, fits_text _, hstatus, hreference _,
    hreference _, hpriority, fits_stamp _, fits_stamp _, by simp⟩

end Work

instance : LawfulRecord Work where
  id_ofDraft _ _ _ := rfl
  id_patch := Work.id_patch
  id_touch _ _ := rfl
  order_perm ws := ws.mergeSort_perm _
  encode_eq _ := rfl
  fits w := fits_presentFields w.fits_entries
  regular_ofDraft _ now _ := ⟨now.regular, now.regular⟩
  regular_patch := Work.regular_patch
  regular_touch now _ hr := ⟨hr.1, now.regular⟩
  regular_of_decode := regular_of_asStruct (fun _ => rfl) fun _ =>
    .field (.field (.field (.field (.field (.field (.field (.field
      (Reading.every_map fun _ _ _ _ _ _ _ _ _ _ _ => ⟨rfl, rfl⟩))))))))
  exists_decode_toJson w := ⟨_, w.decode_toJson⟩
  decode_toJson hr := (Work.decode_toJson _).trans (congrArg _ (Work.settled_of_regular hr))

instance : DatedRecord Work where
  createdAt_patch := Work.createdAt_patch
  createdAt_touch _ _ := rfl

instance : (e : Entity) → LawfulRecord e.Rec
  | .work => inferInstanceAs (LawfulRecord Work)
  | .role => inferInstanceAs (LawfulRecord Role)
  | .command => inferInstanceAs (LawfulRecord Snippet)
  | .session => inferInstanceAs (LawfulRecord Session)
  | .settings => inferInstanceAs (LawfulRecord Settings)

instance : (e : Entity) → DatedRecord e.Rec
  | .work => inferInstanceAs (DatedRecord Work)
  | .role => inferInstanceAs (DatedRecord Role)
  | .command => inferInstanceAs (DatedRecord Snippet)
  | .session => inferInstanceAs (DatedRecord Session)
  | .settings => inferInstanceAs (DatedRecord Settings)

namespace Entity

/-- A record with the times of the instants that are written. -/
def settled : (e : Entity) → e.Rec → e.Rec
  | work => Work.settled
  | role => Role.settled
  | command => Snippet.settled
  | session => Session.settled
  | settings => Settings.settled

theorem decode_toJson (e : Entity) (r : e.Rec) :
    Record.decode (Record.toJson r) = .ok (e.settled r) := by
  cases e with
  | work => exact Work.decode_toJson r
  | role => exact Role.decode_toJson r
  | command => exact Snippet.decode_toJson r
  | session => exact Session.decode_toJson r
  | settings => exact Settings.decode_toJson r

theorem settled_eq_self_iff {e : Entity} {r : e.Rec} : e.settled r = r ↔ Record.Regular r := by
  constructor
  · intro h
    exact LawfulRecord.regular_of_decode ((e.decode_toJson r).trans (congrArg _ h))
  · intro h
    exact Except.ok.inj ((e.decode_toJson r).symm.trans (LawfulRecord.decode_toJson h))

theorem map_settled_eq_self_iff {e : Entity} {records : List e.Rec} :
    records.map e.settled = records ↔ Record.AllRegular records := by
  conv_lhs => rhs; rw [← List.map_id records]
  rw [List.map_inj_left]
  exact forall₂_congr fun _ _ => settled_eq_self_iff

/-- A record has the kept form of the record that is read from it. -/
theorem toJson_settled (e : Entity) (r : e.Rec) :
    Record.toJson (e.settled r) = Record.toJson r := by
  have htimes (t t' : Stamp) :
      timeFields t.settled.toStamp t'.settled.toStamp = timeFields t t' := by
    simp only [timeFields, stamp, Stamp.text_settled]
  cases e with
  | work => exact congrArg (fun times => ofFields (presentFields (_ ++ times))) (htimes ..)
  | role => exact congrArg (fun times => ofFields (presentFields (_ ++ times))) (htimes ..)
  | command => exact congrArg (fun times => ofFields (presentFields (_ ++ times))) (htimes ..)
  | session => exact congrArg (fun times => ofFields (presentFields (_ ++ times))) (htimes ..)
  | settings => exact congrArg (fun times => ofFields (presentFields (_ ++ times))) (htimes ..)

end Entity

end WorkQueue
