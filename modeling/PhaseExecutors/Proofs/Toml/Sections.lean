import PhaseExecutors.Proofs.Toml.Values

/-!
Documents that consist of sections are read back.

Reading goes line by line. A header closes the section before it and opens an empty one, a pair is
put at the end of the open section, and an empty line changes nothing. So the sections that are
closed are at all times those that have been written out in full.
-/

namespace PhaseExecutors

namespace Toml

open Text (takeWhile_run dropWhile_run)

/-- A section: its key, and its entries in the order of the document. -/
abbrev Section := String × List (String × Value)

/-- The document of sections. -/
def ofSections (sections : List Section) : Value :=
  .table (sections.map fun s => (s.1, .table s.2))

/-- A key that is written without quotes. -/
def IsBare (key : String) : Prop := key ≠ "" ∧ key.toList.all isBareKeyChar = true

instance (key : String) : Decidable (IsBare key) := inferInstanceAs (Decidable (_ ∧ _))

/-- Plain values under bare keys. -/
structure IsLines (entries : List (String × Value)) : Prop where
  distinct : (entries.map Prod.fst).Nodup
  bare : ∀ e ∈ entries, IsBare e.1
  plain : ∀ e ∈ entries, IsPlain e.2

/-- Sections of plain values. -/
structure IsDocument (sections : List Section) : Prop where
  distinct : (sections.map Prod.fst).Nodup
  bare : ∀ s ∈ sections, IsBare s.1
  lines : ∀ s ∈ sections, IsLines s.2

lemma isLines_nil : IsLines [] := ⟨List.nodup_nil, nofun, nofun⟩

lemma isLines_singleton {key : String} {v : Value} (hkey : IsBare key) (hv : IsPlain v) :
    IsLines [(key, v)] :=
  ⟨List.pairwise_singleton _ _, List.forall_mem_singleton.mpr hkey,
    List.forall_mem_singleton.mpr hv⟩

variable {b b' b'' : Builder} {cs cs' cs'' rest : List Char} {key : String} {v : Value}
  {entries : List (String × Value)} {sections done : List Section}

lemma isLines_of_sublist {names : List String} (hkeys : (entries.map Prod.fst).Sublist names)
    (hnames : names.Nodup) (hbare : ∀ name ∈ names, IsBare name)
    (hplain : ∀ e ∈ entries, IsPlain e.2) : IsLines entries :=
  ⟨hkeys.nodup hnames, fun _ he => hbare _ (hkeys.subset (List.mem_map_of_mem he)), hplain⟩

lemma isDocument_of_sublist {names : List String} (hkeys : (sections.map Prod.fst).Sublist names)
    (hnames : names.Nodup) (hbare : ∀ name ∈ names, IsBare name)
    (hlines : ∀ s ∈ sections, IsLines s.2) : IsDocument sections :=
  ⟨hkeys.nodup hnames, fun _ hs => hbare _ (hkeys.subset (List.mem_map_of_mem hs)), hlines⟩

/-! ### Keys -/

lemma not_isBareKeyChar {c : Char} {d : Char} (hc : isBareKeyChar c = true)
    (hd : isBareKeyChar d = false) : c ≠ d := by
  rintro rfl
  rw [hc] at hd
  cases hd

lemma isBlank_of_isBareKeyChar {c : Char} (hc : isBareKeyChar c = true) : isBlank c = false := by
  have hspace := not_isBareKeyChar hc (d := ' ') rfl
  have htab := not_isBareKeyChar hc (d := '\t') rfl
  simp [isBlank, hspace, htab]

lemma IsBare.exists_cons (h : IsBare key) : ∃ c ds, key.toList = c :: ds ∧
    isBareKeyChar c = true := by
  obtain ⟨hne, hall⟩ := h
  cases hkey : key.toList with
  | nil => exact absurd (String.toList_eq_nil_iff.mp hkey) hne
  | cons c ds => exact ⟨c, ds, rfl, List.all_eq_true.mp hall c (by simp [hkey])⟩

/-- A bare key is read up to the blanks behind it, unless a point makes it the part of another. -/
lemma key?_bare (h : IsBare key) (hrest : ∀ c ∈ rest.head?, isBareKeyChar c = false)
    (hpoint : (skipBlanks rest).head? ≠ some '.') :
    key? (key.toList ++ rest) = some ([], key, skipBlanks rest) := by
  have hsimple : simpleKey? (skipBlanks (key.toList ++ rest)) = some (key, rest) := by
    have htake := takeWhile_run (List.all_eq_true.mp h.2) hrest
    have hdrop := dropWhile_run (List.all_eq_true.mp h.2) hrest
    obtain ⟨c, ds, hkey, hc⟩ := h.exists_cons
    have hskip : skipBlanks (key.toList ++ rest) = key.toList ++ rest := by
      rw [hkey]
      exact List.dropWhile_cons_of_neg (by simp [isBlank_of_isBareKeyChar hc])
    rw [hskip]
    unfold simpleKey?
    split
    · next heq =>
      rw [hkey] at heq
      exact absurd (List.cons.inj heq).1 (not_isBareKeyChar hc rfl)
    · next heq =>
      rw [hkey] at heq
      exact absurd (List.cons.inj heq).1 (not_isBareKeyChar hc rfl)
    · have hword : key.toList.isEmpty = false := by rw [hkey]; rfl
      simp only [htake, hdrop, hword, Bool.false_eq_true, if_false, String.ofList_toList]
  have hparts : keyParts? ((key.toList ++ rest).length + 1) [] (key.toList ++ rest) =
      some ([key], skipBlanks rest) := by
    unfold keyParts?
    rw [hsimple]
    dsimp only
    split
    · next heq => exact absurd (by rw [heq]; rfl) hpoint
    · rfl
  rw [key?, hparts]
  rfl

/-! ### Lines -/

/-- Reading comes from one place to the other, on fuel that suffices for what is left. -/
def Reaches (b : Builder) (cs : List Char) (b' : Builder) (cs' : List Char) : Prop :=
  ∀ fuel, cs.length < fuel → ∃ fuel', cs'.length < fuel' ∧ lines? fuel b cs = lines? fuel' b' cs'

lemma Reaches.refl (b : Builder) (cs : List Char) : Reaches b cs b cs :=
  fun fuel hfuel => ⟨fuel, hfuel, rfl⟩

lemma Reaches.trans (h : Reaches b cs b' cs') (h' : Reaches b' cs' b'' cs'') :
    Reaches b cs b'' cs'' := by
  intro fuel hfuel
  obtain ⟨fuel', hfuel', hlines⟩ := h fuel hfuel
  obtain ⟨fuel'', hfuel'', hlines'⟩ := h' fuel' hfuel'
  exact ⟨fuel'', hfuel'', hlines.trans hlines'⟩

/-- A line is read on one unit of fuel. -/
lemma reaches_of_line (hlen : cs'.length < cs.length)
    (h : ∀ fuel, lines? (fuel + 1) b cs = lines? fuel b' cs') : Reaches b cs b' cs' := by
  intro fuel hfuel
  cases fuel with
  | zero => cases hfuel
  | succ fuel => exact ⟨fuel, by omega, h fuel⟩

lemma reaches_newline (b : Builder) (rest : List Char) : Reaches b ('\n' :: rest) b rest :=
  reaches_of_line (by simp) fun _ => rfl

lemma reaches_header (hkey : IsBare key) (h : b.openTable? [key] = some b') :
    Reaches b ('[' :: (key.toList ++ ']' :: '\n' :: rest)) b' rest := by
  have hread : key? (key.toList ++ ']' :: '\n' :: rest) = some ([], key, ']' :: '\n' :: rest) :=
    key?_bare hkey (by simp [isBareKeyChar]) nofun
  have hheader : header? b ('[' :: (key.toList ++ ']' :: '\n' :: rest)) = some (b', rest) := by
    unfold header?
    split
    · next heq =>
      -- the key begins with no bracket
      obtain ⟨c, ds, hcs, hc⟩ := hkey.exists_cons
      rw [hcs] at heq
      exact absurd (List.cons.inj (List.cons.inj heq).2).1 (not_isBareKeyChar hc rfl)
    · next heq =>
      cases heq
      rw [hread]
      simp only [Option.bind_eq_bind, Option.bind_some, List.nil_append, h]
      rfl
    · next hne => exact absurd rfl (hne _)
  refine reaches_of_line (by simp; omega) fun fuel => ?_
  have hstart : skipBlanks ('[' :: (key.toList ++ ']' :: '\n' :: rest)) =
      '[' :: (key.toList ++ ']' :: '\n' :: rest) := List.dropWhile_cons_of_neg (by decide)
  rw [lines?, hstart]
  simp only [Char.reduceEq, decide_false, Bool.or_false, Bool.false_eq_true, if_false, if_true,
    hheader]

lemma reaches_pair {text : List Char} (hkey : IsBare key) (htext : Denotes text v)
    (h : b.addPair? [] key v = some b') :
    Reaches b (key.toList ++ ' ' :: '=' :: ' ' :: (text ++ '\n' :: rest)) b' rest := by
  have hread : key? (key.toList ++ ' ' :: '=' :: ' ' :: (text ++ '\n' :: rest)) =
      some ([], key, '=' :: ' ' :: (text ++ '\n' :: rest)) :=
    key?_bare hkey (by simp [isBareKeyChar]) nofun
  have hskip : skipBlanks (' ' :: (text ++ '\n' :: rest)) = text ++ '\n' :: rest := by
    rw [skipBlanks, List.dropWhile_cons_of_pos rfl]
    cases htail : text ++ '\n' :: rest with
    | nil => rfl
    | cons c tail =>
      have hc : isBlank c = false := by
        cases text with
        | nil =>
          cases htail
          rfl
        | cons d ds =>
          cases htail
          exact htext.head c rfl
      exact List.dropWhile_cons_of_neg (by simp [hc])
  have hpair : pair? b (key.toList ++ ' ' :: '=' :: ' ' :: (text ++ '\n' :: rest)) =
      some (b', rest) := by
    rw [pair?, hread]
    simp only [Option.bind_eq_bind, Option.bind_some, hskip, htext.read, h]
    rfl
  refine reaches_of_line (by simp; omega) fun fuel => ?_
  obtain ⟨c, ds, hcs, hc⟩ := hkey.exists_cons
  have hstart : skipBlanks (key.toList ++ ' ' :: '=' :: ' ' :: (text ++ '\n' :: rest)) =
      key.toList ++ ' ' :: '=' :: ' ' :: (text ++ '\n' :: rest) := by
    rw [hcs]
    exact List.dropWhile_cons_of_neg (by simp [isBlank_of_isBareKeyChar hc])
  rw [lines?, hstart]
  rw [hcs, List.cons_append] at hpair ⊢
  simp only [not_isBareKeyChar hc (d := '#') rfl, not_isBareKeyChar hc (d := '\n') rfl,
    not_isBareKeyChar hc (d := '\r') rfl, not_isBareKeyChar hc (d := '[') rfl, decide_false,
    Bool.or_false, Bool.false_eq_true, if_false, hpair]

/-! ### Sections -/

/-- The table of a section while it is open. -/
def itemsOf (entries : List (String × Value)) : List (String × Item) :=
  entries.map fun e => (e.1, .value e.2)

/-- The root of the document once sections are closed. -/
def rootOf (sections : List Section) : Table :=
  { entries := sections.map fun s => (s.1, .table false false (itemsOf s.2)) }

/-- The document while a section is open. -/
def opened (done : List Section) (key : String) (entries : List (String × Value)) : Builder :=
  { root := rootOf done, current := { entries := itemsOf entries }, path := [key] }

lemma Table.get?_eq_none {t : Table} (h : key ∉ t.entries.map Prod.fst) : t.get? key = none := by
  have hfind : t.entries.find? (·.1 = key) = none := by
    rw [List.find?_eq_none]
    rintro e he heq
    exact h (List.mem_map.mpr ⟨e, he, by simpa using heq⟩)
  rw [Table.get?, hfind]
  rfl

lemma Table.put_of_not_mem {t : Table} (item : Item) (h : key ∉ t.entries.map Prod.fst) :
    t.put key item = { t with entries := t.entries ++ [(key, item)] } := by
  have hany : t.entries.any (·.1 = key) = false := by
    rw [List.any_eq_false]
    rintro e he heq
    exact h (List.mem_map.mpr ⟨e, he, by simpa using heq⟩)
  rw [Table.put, if_neg (by simp [hany])]

lemma keys_itemsOf (entries : List (String × Value)) :
    (itemsOf entries).map Prod.fst = entries.map Prod.fst := by
  simp [itemsOf, Function.comp_def]

lemma keys_rootOf (sections : List Section) :
    (rootOf sections).entries.map Prod.fst = sections.map Prod.fst := by
  simp [rootOf, Function.comp_def]

lemma addPair?_opened (done : List Section) (title : String) (v : Value)
    (h : key ∉ entries.map Prod.fst) :
    (opened done title entries).addPair? [] key v =
      some (opened done title (entries ++ [(key, v)])) := by
  rw [← keys_itemsOf] at h
  have hget := Table.get?_eq_none (t := { entries := itemsOf entries }) h
  have hput := Table.put_of_not_mem (t := { entries := itemsOf entries }) (.value v) h
  simp only [Builder.addPair?, Toml.addPair?, changeAt?, opened, hget, hput]
  simp [itemsOf]

/-- The section that is open is closed before anything else comes. -/
lemma close?_opened (h : key ∉ done.map Prod.fst) :
    (opened done key entries).close? = some { root := rootOf (done ++ [(key, entries)]) } := by
  rw [← keys_rootOf] at h
  have hget := Table.get?_eq_none h
  have hput := Table.put_of_not_mem (.table false false (itemsOf entries)) h
  simp only [Builder.close?, opened, List.getLast?_singleton, List.dropLast_singleton, changeAt?,
    Builder.store?, hget, Table.toItem, hput]
  simp [rootOf]

lemma openTable?_of_close? (hclose : b.close? = some { root := rootOf done })
    (h : key ∉ done.map Prod.fst) : b.openTable? [key] = some (opened done key []) := by
  rw [← keys_rootOf] at h
  have hget := Table.get?_eq_none h
  simp only [Builder.openTable?, hclose, List.getLast?_singleton, List.dropLast_singleton,
    changeAt?, Builder.take?, hget, Option.bind_eq_bind, Option.bind_some]
  rfl

/-! ### Whole documents -/

lemma exists_pairLines (done : List Section) (key : String) (h : IsLines entries) :
    ∃ text, pairLines entries = .ok text ∧ ∀ (before : List (String × Value)) (rest : List Char),
      (∀ e ∈ entries, e.1 ∉ before.map Prod.fst) →
        Reaches (opened done key before) (text.toList ++ rest)
          (opened done key (before ++ entries)) rest := by
  induction entries with
  | nil => exact ⟨"", rfl, fun before rest _ => by simpa using Reaches.refl _ _⟩
  | cons e entries ih =>
    obtain ⟨hdistinct, hbare, hplain⟩ := h
    rw [List.map_cons, List.nodup_cons] at hdistinct
    obtain ⟨tail, htail, hreach⟩ := ih ⟨hdistinct.2, fun e' he' => hbare e' (.tail e he'),
      fun e' he' => hplain e' (.tail e he')⟩
    obtain ⟨text, htext, hdenotes⟩ := exists_plain (hplain e List.mem_cons_self)
    refine ⟨s!"{e.1} = {text}\n" ++ tail, ?_, fun before rest hbefore => ?_⟩
    · rw [pairLines, htext, htail]
      rfl
    · have hline : (s!"{e.1} = {text}\n" ++ tail).toList ++ rest =
          e.1.toList ++ ' ' :: '=' :: ' ' :: (text.toList ++ '\n' :: (tail.toList ++ rest)) := by
        simp only [String.toList_append, List.append_assoc]
        rfl
      rw [hline]
      have hadd := addPair?_opened done key e.2 (hbefore e List.mem_cons_self)
      refine (reaches_pair (hbare e List.mem_cons_self) hdenotes hadd).trans ?_
      rw [show before ++ e :: entries = before ++ [e] ++ entries by simp]
      refine hreach _ _ fun e' he' hmem => ?_
      rw [List.map_append, List.mem_append] at hmem
      rcases hmem with hmem | hmem
      · exact hbefore e' (.tail e he') hmem
      · rw [List.map_singleton, List.mem_singleton] at hmem
        exact hdistinct.1 (List.mem_map.mpr ⟨e', he', hmem⟩)

/-- The text of a section leads from the sections before it to those with it. -/
lemma exists_sectionText {s : Section} (hdone : s.1 ∉ done.map Prod.fst) (hkey : IsBare s.1)
    (hlines : IsLines s.2) :
    ∃ text, sectionText s.1 (.table s.2) = .ok text ∧ (∃ cs, text.toList = '[' :: cs) ∧
      ∀ b rest, b.close? = some { root := rootOf done } →
        ∃ b', b'.close? = some { root := rootOf (done ++ [s]) } ∧
          Reaches b (text.toList ++ rest) b' rest := by
  obtain ⟨lines, htext, hreach⟩ := exists_pairLines done s.1 hlines
  have hheader : (s!"[{s.1}]\n" ++ lines).toList =
      '[' :: (s.1.toList ++ ']' :: '\n' :: lines.toList) := by
    simp only [String.toList_append, List.append_assoc]
    rfl
  refine ⟨s!"[{s.1}]\n" ++ lines, ?_, ⟨_, hheader⟩, fun b rest hb => ?_⟩
  · rw [sectionText, htext]
    rfl
  · refine ⟨opened done s.1 s.2, close?_opened hdone, ?_⟩
    rw [hheader, List.cons_append, List.append_assoc]
    refine (reaches_header hkey (openTable?_of_close? hb hdone)).trans ?_
    exact hreach [] rest fun e he => by simp

lemma exists_sectionTexts (done : List Section) (h : IsDocument sections)
    (hdone : ∀ s ∈ sections, s.1 ∉ done.map Prod.fst) :
    ∃ texts, sectionTexts (sections.map fun s => (s.1, .table s.2)) = .ok texts ∧
      (∀ text ∈ texts.head?, ∃ cs, text.toList = '[' :: cs) ∧
      ∀ b, b.close? = some { root := rootOf done } →
        ∃ b', b'.close? = some { root := rootOf (done ++ sections) } ∧
          Reaches b (String.intercalate "\n" texts).toList b' [] := by
  induction sections generalizing done with
  | nil => exact ⟨[], rfl, nofun, fun b hb => ⟨b, by simpa using hb, Reaches.refl b []⟩⟩
  | cons s sections ih =>
    obtain ⟨hdistinct, hbare, hlines⟩ := h
    rw [List.map_cons, List.nodup_cons] at hdistinct
    have hlater : ∀ s' ∈ sections, s'.1 ∉ (done ++ [s]).map Prod.fst := by
      intro s' hs' hmem
      rw [List.map_append, List.mem_append] at hmem
      rcases hmem with hmem | hmem
      · exact hdone s' (.tail s hs') hmem
      · rw [List.map_singleton, List.mem_singleton] at hmem
        exact hdistinct.1 (List.mem_map.mpr ⟨s', hs', hmem⟩)
    have hrest : IsDocument sections := ⟨hdistinct.2, fun s' hs' => hbare s' (.tail s hs'),
      fun s' hs' => hlines s' (.tail s hs')⟩
    obtain ⟨texts, htexts, -, hreach⟩ := ih (done ++ [s]) hrest hlater
    obtain ⟨text, htext, hhead, hsection⟩ := exists_sectionText (hdone s List.mem_cons_self)
      (hbare s List.mem_cons_self) (hlines s List.mem_cons_self)
    refine ⟨text :: texts, ?_, ?_, fun b hb => ?_⟩
    · rw [List.map_cons, sectionTexts, htext, htexts]
      rfl
    · rintro _ ⟨⟩
      exact hhead
    · cases texts with
      | nil =>
        obtain ⟨b', hb', hlast⟩ := hsection b [] hb
        obtain ⟨b'', hb'', hnone⟩ := hreach b' hb'
        rw [List.append_nil] at hlast
        rw [String.intercalate_singleton]
        rw [String.intercalate_nil] at hnone
        rw [← List.append_cons] at hb''
        exact ⟨b'', hb'', hlast.trans hnone⟩
      | cons text' texts =>
        -- an empty line stands between the two
        obtain ⟨b', hb', hfirst⟩ := hsection b _ hb
        obtain ⟨b'', hb'', hothers⟩ := hreach b' hb'
        rw [← List.append_cons] at hb''
        refine ⟨b'', hb'', ?_⟩
        rw [String.intercalate_cons_cons, String.toList_append, String.toList_append,
          List.append_assoc]
        exact (hfirst.trans (reaches_newline b' _)).trans hothers

lemma entriesToValues_itemsOf (entries : List (String × Value)) :
    entriesToValues (itemsOf entries) = entries := by
  induction entries with
  | nil => rfl
  | cons e entries ih => exact congrArg ((e.1, e.2) :: ·) ih

lemma toValue_rootOf (sections : List Section) :
    (rootOf sections).toValue = ofSections sections := by
  rw [Table.toValue, ofSections]
  congr 1
  induction sections with
  | nil => rfl
  | cons s sections ih =>
    have hitem : (Item.table false false (itemsOf s.2)).toValue = .table s.2 := by
      rw [Item.toValue, entriesToValues_itemsOf]
    rw [List.map_cons, ← ih, ← hitem]
    rfl

/-- **A document of sections is read back from its text.** -/
theorem read?_write (h : IsDocument sections) :
    ∃ text, write (ofSections sections) = .ok text ∧
      read? text = some (ofSections sections) := by
  obtain ⟨texts, htexts, hhead, hreach⟩ := exists_sectionTexts [] h nofun
  refine ⟨String.intercalate "\n" texts, ?_, ?_⟩
  · rw [ofSections, write, htexts]
    rfl
  · obtain ⟨b, hb, hlines⟩ := hreach {} rfl
    have hmark : dropByteOrderMark (String.intercalate "\n" texts).toList =
        (String.intercalate "\n" texts).toList := by
      cases texts with
      | nil => rfl
      | cons text texts =>
        obtain ⟨cs, hcs⟩ := hhead text rfl
        obtain ⟨tail, htail⟩ : ∃ tail, (String.intercalate "\n" (text :: texts)).toList =
            '[' :: tail := by
          cases texts with
          | nil => exact ⟨cs, by rw [String.intercalate_singleton, hcs]⟩
          | cons text' texts =>
            rw [String.intercalate_cons_cons, String.toList_append, String.toList_append, hcs]
            exact ⟨_, rfl⟩
        rw [htail]
        rfl
    obtain ⟨fuel, hfuel, hread⟩ := hlines _ (Nat.lt_succ_self _)
    obtain ⟨fuel, rfl⟩ := Nat.exists_eq_succ_of_ne_zero (Nat.ne_of_gt hfuel)
    have hend : lines? (fuel + 1) b [] = some b := rfl
    simp only [read?, hmark, hread, hend, Option.bind_eq_bind, Option.bind_some, hb]
    rw [List.nil_append, toValue_rootOf]
    rfl

lemma read?_of_write {text : String} (h : IsDocument sections)
    (htext : write (ofSections sections) = .ok text) : read? text = some (ofSections sections) := by
  obtain ⟨_, hwrite, hread⟩ := read?_write h
  cases hwrite.symm.trans htext
  exact hread

end Toml

end PhaseExecutors
