import WorkQueue.Proofs.Store.Served

/-!
# Reading what was written

Every list of records has a written form, which holds the records in the same order, each with the
times of the instants that are written. A read that finds the index as a write has left it gives
these records and the digest that the write gave, and on a disk that refuses nothing both of them
succeed.
-/

namespace WorkQueue.Index

open Disk

variable {R : Type} [Record R] {i : Index} {d d' : Disk}

/-- The index holds what is read from it as long as its file stays what it was. -/
theorem Holds.of_read {loaded loaded' : Loaded R} (h : i.Holds d loaded)
    (hread : Index.read i d = .ok loaded' d') : loaded' = loaded := by
  obtain ⟨hkept, -, hloaded⟩ := leads_indexRead.of_ok hread
  exact hloaded.unique (h.of_content?_eq hkept.content?_eq)

variable [LawfulRecord R]

theorem holds_of_write {records kept : List R} {digest : Digest}
    (hwrite : i.write records d = .ok digest d') (hkept : decode (written records) = .ok kept) :
    i.Holds d' ⟨kept, some digest⟩ := by
  obtain ⟨-, content, hencode, hcontent, hdigest⟩ := (leads_indexWrite records).of_ok hwrite
  have hsame : content = written records :=
    Except.ok.inj (hencode.symm.trans (encode_eq_written records))
  unfold Holds
  simp only [hcontent]
  constructor
  · rw [hsame]
    exact hkept
  · rw [hdigest]

theorem exists_write_of_writable (records : List R) (hw : i.Writable d) :
    ∃ digest d', i.write records d = .ok digest d' ∧ i.Steady d d' := by
  have hlead := leads_indexWrite_of_writable records hw
  cases hwrite : i.write records d with
  | ok digest d' => exact ⟨digest, d', rfl, hlead.of_ok hwrite⟩
  | error e d' => exact (hlead.of_error hwrite).elim

theorem exists_read_of_write {records kept : List R} {digest : Digest} (hw : i.Writable d)
    (hfile : d.Permits .read i.file.path) (hwrite : i.write records d = .ok digest d')
    (hkept : decode (written records) = .ok kept) :
    ∃ d'', Index.read i d' = .ok (⟨kept, some digest⟩ : Loaded R) d'' := by
  have hs : i.Steady d d' := (leads_indexWrite_of_writable records hw).of_ok hwrite
  have hr : i.Readable d' := Readable.lenient ⟨hw.makeDir, hw.lock, hfile⟩ hs.lenient
  exact exists_indexRead (hs.laid hw) hr (holds_of_write hwrite hkept)

/-- Every list of records of every entity has a written form, and that form holds the records in
their order, each with the times of the instants that are written. They are just these records where
they have such times, and their written form is the same where they have not. Whatever is read where
a write has succeeded is what was written, under the digest that the write gave; where the disk
refuses nothing, writing and then reading succeed. A content that can be read at all can be written
and read again without a change. -/
theorem written_index_reads_back (e : Entity) (records : List e.Rec) :
    (∃ content, encode records = .ok content ∧
      decode content = .ok (records.map e.settled) ∧
      encode (records.map e.settled) = .ok content) ∧
    (records.map e.settled = records ↔ Record.AllRegular records) ∧
    (∀ (i : Index) (d d₁ d₂ d₃ : Disk) (digest : Digest) (loaded : Loaded e.Rec),
      i.write records d = .ok digest d₁ → d₂.content? i.file.path = d₁.content? i.file.path →
        Index.read i d₂ = .ok loaded d₃ → loaded = ⟨records.map e.settled, some digest⟩) ∧
    (∀ (i : Index) (d : Disk), i.Writable d → d.Permits .read i.file.path →
      ∃ digest d₁ d₂, i.write records d = .ok digest d₁ ∧
        Index.read i d₁ = .ok (⟨records.map e.settled, some digest⟩ : Loaded e.Rec) d₂) ∧
    ∀ content, decode content = .ok records →
      ∃ content', encode records = .ok content' ∧
        decode content' = decode (R := e.Rec) content := by
  have hkept := decode_written_settled records
  refine ⟨⟨written records, encode_eq_written records, hkept, ?_⟩,
    Entity.map_settled_eq_self_iff, ?_, ?_, ?_⟩
  · rw [encode_eq_written, written_map_settled]
  · intro i d d₁ d₂ d₃ digest loaded hwrite hsame hread
    have hholds : i.Holds d₂ (⟨records.map e.settled, some digest⟩ : Loaded e.Rec) :=
      (holds_of_write hwrite hkept).of_content?_eq hsame
    exact hholds.of_read hread
  · intro i d hw hfile
    obtain ⟨digest, d₁, hwrite, -⟩ := exists_write_of_writable records hw
    obtain ⟨d₂, hread⟩ := exists_read_of_write hw hfile hwrite hkept
    exact ⟨digest, d₁, d₂, hwrite, hread⟩
  · intro content hdecode
    have hregular := regular_of_decode hdecode
    exact ⟨written records, encode_eq_written records, (decode_written hregular).trans hdecode.symm⟩

/-- An item with an empty reference, a title to escape, the least priority and a leap second,
written to a disk that was empty. -/
theorem written_index_reads_back_leap : ∃ (w : Work) (digest : Digest) (d₁ d₂ : Disk),
    w.parentId = some "" ∧ w.title = "\"\\\né😀" ∧ w.priority.value = Priority.least ∧
    w.createdAt.text = "2016-12-31T23:59:60.500Z" ∧
    Index.write ⟨⟨["work"], "/work"⟩⟩ [w] {} = .ok digest d₁ ∧
    Index.read ⟨⟨["work"], "/work"⟩⟩ d₁ = .ok (⟨[w], some digest⟩ : Loaded Work) d₂ := by
  let leap : Time.Stamp := ⟨⟨2016, 12, 31, by decide, by decide, by decide⟩, 86399, 1500000000,
    by decide, by decide⟩
  let w : Work := ⟨"", .story, some "", "\"\\\né😀", "", .inProgress, none, some "s",
    ⟨Priority.least, by decide, by decide⟩, leap, .epoch⟩
  have hread := written_index_reads_back .work [w]
  have hregular : Record.AllRegular [w] :=
    List.forall_mem_singleton.2 ⟨Or.inr (by decide), Or.inl (by decide)⟩
  obtain ⟨digest, d₁, d₂, hwrite, hback⟩ := hread.2.2.2.1 _ _ (writable_empty _) fun _ _ => rfl
  rw [hread.2.1.2 hregular] at hback
  exact ⟨w, digest, d₁, d₂, rfl, rfl, rfl, by decide +kernel, hwrite, hback⟩

/-- A record with a leap second that does not end its minute comes back with the second after it. -/
theorem early_leap_second_reads_back_later : ∃ (r later : Role) (content : ByteArray),
    r.createdAt.second = 58 ∧ r.createdAt.nano = 1000000000 ∧
    encode [r] = .ok content ∧ decode content = .ok [later] ∧
    later.createdAt.second = 59 ∧ later.createdAt.nano = 0 ∧ [later] ≠ [r] := by
  let early : Time.Stamp :=
    ⟨⟨2024, 1, 1, by decide, by decide, by decide⟩, 58, 1000000000, by decide, by decide⟩
  let r : Role := ⟨"r", "Dev", "", early, .epoch⟩
  refine ⟨r, r.settled, written [r], rfl, rfl, encode_eq_written [r],
    decode_written_settled (e := .role) [r], by decide, by decide, by decide⟩

end WorkQueue.Index
