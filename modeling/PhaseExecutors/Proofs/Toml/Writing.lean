import PhaseExecutors.Proofs.Toml.Sections

/-!
Documents with sizes in them.

A size has no sign, a number of the format has one. A size that a signed word can hold is written
all the same, with the same digits, and read back as that word. A larger one makes the writing of
the whole document fail, and so does nothing else but a value that is not plain.
-/

namespace PhaseExecutors

namespace Toml

open Text (IsPrintable)

variable {entries : List (String × Value)} {sections : List Section} {v : Value} {e : WriteError}

/-! ### Numbers without sign -/

/-- The values that are written and read back with a sign at most. -/
inductive IsWritable : Value → Prop
  | bool (b : Bool) : IsWritable (.bool b)
  | number {n : UInt64} (h : n.toNat < Size.signedBound) : IsWritable (.unsigned n)
  | text {s : String} (h : ∀ c ∈ s.toList, IsPrintable c) : IsWritable (.text s)

/-- The values of a document. -/
def values (sections : List Section) : List Value := sections.flatMap fun s => s.2.map Prod.snd

lemma forall_values {p : Value → Prop} :
    (∀ v ∈ values sections, p v) ↔ ∀ s ∈ sections, ∀ x ∈ s.2, p x.2 := by
  simp only [values, List.forall_mem_flatMap, List.forall_mem_map]

/-- A value as it is read: a number has a sign. -/
def signed : Value → Value
  | .unsigned n => .signed (Int64.ofInt n.toNat)
  | v => v

def signedEntries (entries : List (String × Value)) : List (String × Value) :=
  entries.map fun x => (x.1, signed x.2)

def signedSections (sections : List Section) : List Section :=
  sections.map fun s => (s.1, signedEntries s.2)

lemma IsWritable.isPlain (h : IsWritable v) : IsPlain (signed v) := by
  cases h with
  | bool b => exact .bool b
  | number h => exact .number h
  | text h => exact .text h

/-- The sign is not seen in the text. -/
lemma IsWritable.plain_signed (h : IsWritable v) : plain (signed v) = plain v := by
  cases h with
  | bool b => rfl
  | text h => rfl
  | @number n h =>
    change Except.ok (toString (Int64.ofInt n.toNat).toInt) = _
    rw [Size.toInt_ofInt_natCast h, plain, if_pos h]
    rfl

lemma pairLines_signed (h : ∀ x ∈ entries, IsWritable x.2) :
    pairLines (signedEntries entries) = pairLines entries := by
  induction entries with
  | nil => rfl
  | cons x entries ih =>
    obtain ⟨hx, hentries⟩ := List.forall_mem_cons.mp h
    change pairLines ((x.1, signed x.2) :: signedEntries entries) = _
    rw [pairLines, hx.plain_signed, ih hentries]
    rfl

lemma sectionTexts_signed (h : ∀ s ∈ sections, ∀ x ∈ s.2, IsWritable x.2) :
    sectionTexts ((signedSections sections).map fun s => (s.1, .table s.2)) =
      sectionTexts (sections.map fun s => (s.1, .table s.2)) := by
  induction sections with
  | nil => rfl
  | cons s sections ih =>
    obtain ⟨hs, hsections⟩ := List.forall_mem_cons.mp h
    change sectionTexts ((s.1, .table (signedEntries s.2)) ::
      (signedSections sections).map fun s => (s.1, .table s.2)) = _
    rw [sectionTexts, sectionText, pairLines_signed hs, ih hsections]
    rfl

lemma write_signed (h : ∀ s ∈ sections, ∀ x ∈ s.2, IsWritable x.2) :
    write (ofSections (signedSections sections)) = write (ofSections sections) := by
  rw [ofSections, write, sectionTexts_signed h]
  rfl

/-! ### Dates -/

lemma holdsDates_of_isPlain (h : IsPlain v) : holdsDates v = true := by
  cases h with
  | bool b => rfl
  | number h => rfl
  | text h => rfl

lemma IsBare.ne_dateKey {key : String} (h : IsBare key) : key ≠ dateKey := by
  rintro rfl
  exact absurd h (by decide)

lemma entriesHoldDates_of_isPlain (h : ∀ x ∈ entries, IsPlain x.2) :
    entriesHoldDates entries = true := by
  induction entries with
  | nil => rfl
  | cons x entries ih =>
    obtain ⟨hx, hentries⟩ := List.forall_mem_cons.mp h
    rw [entriesHoldDates, holdsDates_of_isPlain hx, ih hentries]
    rfl

lemma IsLines.holdsDates (h : IsLines entries) : holdsDates (.table entries) = true := by
  cases entries with
  | nil => rfl
  | cons x entries =>
    have hkey := (h.bare x List.mem_cons_self).ne_dateKey
    have hentries := entriesHoldDates_of_isPlain h.plain
    rw [entriesHoldDates] at hentries
    unfold Toml.holdsDates
    rw [if_neg hkey, hentries]

lemma documentHoldsDates_ofSections (h : ∀ s ∈ sections, IsLines s.2) :
    documentHoldsDates (ofSections sections) = true := by
  change entriesHoldDates (sections.map fun s => (s.1, .table s.2)) = true
  induction sections with
  | nil => rfl
  | cons s sections ih =>
    obtain ⟨hs, hsections⟩ := List.forall_mem_cons.mp h
    rw [List.map_cons, entriesHoldDates, hs.holdsDates, ih hsections]
    rfl

/-! ### Failures -/

/-- A result that is put together from parts: it fails if a part does, and then as a part does. -/
inductive Gathers {ε α β : Type} (parts : List (Except ε α)) : Except ε β → Prop
  | ok {b : β} (h : ∀ p ∈ parts, ∃ a, p = .ok a) : Gathers parts (.ok b)
  | error {e : ε} (h : .error e ∈ parts) : Gathers parts (.error e)

section Gathers

variable {ε α β γ δ : Type} {parts parts' : List (Except ε α)} {r : Except ε β} {r' : Except ε γ}

lemma gathers_singleton (p : Except ε α) : Gathers [p] p := by
  cases p with
  | ok a => exact .ok (List.forall_mem_singleton.mpr ⟨a, rfl⟩)
  | error e => exact .error List.mem_cons_self

lemma Gathers.append (h : Gathers parts r) (h' : Gathers parts' r') (f : β → γ → δ) :
    Gathers (parts ++ parts') (r.bind fun b => r'.bind fun c => .ok (f b c)) := by
  cases h with
  | error h => exact .error (List.mem_append_left _ h)
  | ok h =>
    cases h' with
    | error h' => exact .error (List.mem_append_right _ h')
    | ok h' => exact .ok (List.forall_mem_append.mpr ⟨h, h'⟩)

lemma Gathers.map (h : Gathers parts r) (f : β → γ) :
    Gathers parts (r.bind fun b => .ok (f b)) := by
  cases h with
  | error h => exact .error h
  | ok h => exact .ok h

end Gathers

lemma gathers_pairLines (entries : List (String × Value)) :
    Gathers ((entries.map Prod.snd).map plain) (pairLines entries) := by
  induction entries with
  | nil => exact .ok nofun
  | cons x entries ih => exact (gathers_singleton (plain x.2)).append ih _

lemma gathers_sectionTexts (sections : List Section) :
    Gathers ((values sections).map plain)
      (sectionTexts (sections.map fun s => (s.1, .table s.2))) := by
  induction sections with
  | nil => exact .ok nofun
  | cons s sections ih =>
    rw [values, List.flatMap_cons, List.map_append]
    exact ((gathers_pairLines s.2).map _).append ih _

/-- **Writing a document fails if a value of it cannot be written, and as that value fails.** -/
theorem gathers_write (sections : List Section) :
    Gathers ((values sections).map plain) (write (ofSections sections)) :=
  (gathers_sectionTexts sections).map _

/-! ### What is relied on -/

/-- What is relied on of a writer and a reader of the format. -/
structure IsFaithful (write : Value → Except WriteError String) (read? : String → Option Value) :
    Prop where
  /-- Sections of plain values are written, and read back as they were. -/
  readsBack : ∀ {sections}, IsDocument sections →
    ∃ text, write (ofSections sections) = .ok text ∧ read? text = some (ofSections sections)
  /-- A size within the range of signed words is written as the word. -/
  writesSizes : ∀ {sections}, (∀ v ∈ values sections, IsWritable v) →
    write (ofSections (signedSections sections)) = write (ofSections sections)
  /-- Writing fails if a value has no form in the format, and as that value fails. -/
  fails : ∀ sections, Gathers ((values sections).map plain) (write (ofSections sections))

/-- **Documents are written and read as is relied on**, -/
theorem isFaithful_read? : IsFaithful write read? where
  readsBack := read?_write
  writesSizes h := write_signed (forall_values.mp h)
  fails := gathers_write

/-- also by a reader that looks for dates, of which such documents have none. -/
theorem isFaithful_readDated? : IsFaithful write readDated? where
  readsBack h := by
    obtain ⟨text, hwrite, hread⟩ := read?_write h
    refine ⟨text, hwrite, ?_⟩
    rw [readDated?, hread, Option.filter_some_pos (documentHoldsDates_ofSections h.lines)]
  writesSizes := isFaithful_read?.writesSizes
  fails := gathers_write

/-- A document of writable values is read back with its numbers signed. -/
lemma IsFaithful.readsBack_signed {write : Value → Except WriteError String}
    {read? : String → Option Value} (h : IsFaithful write read?)
    (hdocument : IsDocument (signedSections sections))
    (hwritable : ∀ v ∈ values sections, IsWritable v) :
    ∃ text, write (ofSections sections) = .ok text ∧
      read? text = some (ofSections (signedSections sections)) := by
  obtain ⟨text, hwrite, hread⟩ := h.readsBack hdocument
  rw [h.writesSizes hwritable] at hwrite
  exact ⟨text, hwrite, hread⟩

end Toml

end PhaseExecutors
