import PhaseExecutors.Proofs.Number.Positional
import PhaseExecutors.Proofs.Value.Entries
import PhaseExecutors.Value.Json

/-!
What is written on one line is read back, with its tables sorted.

Every text is read back, since a character that means something else inside quotes is written as an
escape. A whole number that is not negative is read as one without sign, so of the numbers only
those without sign are looked at.
-/

namespace PhaseExecutors

namespace Json

open Text (takeWhile_run dropWhile_run)

/-! ### Texts -/

/-- The three ways to write a character. -/
lemma escape_cases (c : Char) :
    (∃ d, escape c = ['\\', d] ∧ d ≠ 'u' ∧ shortEscape? d = some c) ∨
      (∃ hi lo, escape c = ['\\', 'u', '0', '0', hi, lo] ∧ hex4? '0' '0' hi lo = some c.toNat ∧
        c.toNat < 0x20) ∨
      escape c = [c] ∧ c ≠ '"' ∧ c ≠ '\\' ∧ ¬c.toNat < 0x20 := by
  have hhex : ∀ n < 0x20, hex4? '0' '0' (Nat.digitChar (n / 16)) (Nat.digitChar (n % 16)) =
      some n := by decide
  by_cases hspecial : c ∈ ['"', '\\', '\x08', '\x0c', '\n', '\r', '\t']
  · simp only [List.mem_cons, List.not_mem_nil, or_false] at hspecial
    rcases hspecial with rfl | rfl | rfl | rfl | rfl | rfl | rfl
    all_goals exact Or.inl ⟨_, rfl, by decide, rfl⟩
  · simp only [List.mem_cons, List.not_mem_nil, or_false, not_or] at hspecial
    obtain ⟨hquote, hslash, hb, hf, hn, hr, ht⟩ := hspecial
    have hescape : escape c = if c.toNat < 0x20 then '\\' :: 'u' :: '0' :: '0' :: hex2 c.toNat
        else [c] := by
      simp only [escape, hquote, hslash, hb, hf, hn, hr, ht, if_false]
    rw [hescape]
    by_cases hcontrol : c.toNat < 0x20
    · exact Or.inr (Or.inl ⟨_, _, if_pos hcontrol, hhex _ hcontrol, hcontrol⟩)
    · exact Or.inr (Or.inr ⟨if_neg hcontrol, hquote, hslash, hcontrol⟩)

/-- A four-digit escape at the front has its digits. This much is to be known of the text behind an
escape, because the two may be a pair. -/
def WellEscaped (cs : List Char) : Prop :=
  ∀ e f g h rest, cs = '\\' :: 'u' :: e :: f :: g :: h :: rest → ∃ n, hex4? e f g h = some n

lemma wellEscaped_flatMap (cs rest : List Char) :
    WellEscaped (cs.flatMap escape ++ '"' :: rest) := by
  intro e f g h tail htail
  cases cs with
  | nil => cases htail
  | cons c cs =>
    rw [List.flatMap_cons] at htail
    rcases escape_cases c with ⟨d, hc, hd, -⟩ | ⟨hi, lo, hc, hhex, -⟩ | ⟨hc, -, hslash, -⟩
    · rw [hc] at htail
      exact absurd (List.cons.inj (List.cons.inj htail).2).1 hd
    · rw [hc] at htail
      cases htail
      exact ⟨_, hhex⟩
    · rw [hc] at htail
      exact absurd (List.cons.inj htail).1 hslash

lemma charOfCode?_toNat (c : Char) : Text.charOfCode? c.toNat = some c := by
  rw [Text.charOfCode?, if_pos (show c.toNat.isValidChar from c.valid), Char.ofNat_toNat]

/-- A character is read from its escape. -/
lemma readString_escape (c : Char) (acc : List Char) {tail : List Char} (htail : WellEscaped tail) :
    readString acc (escape c ++ tail) = readString (c :: acc) tail := by
  rcases escape_cases c with ⟨d, hc, hd, hshort⟩ | ⟨hi, lo, hc, hhex, hcontrol⟩ |
    ⟨hc, hquote, hslash, hcontrol⟩
  · rw [hc]
    simp [readString, hd, hshort]
  · have hpair : ¬(0xD800 ≤ c.toNat ∧ c.toNat < 0xDC00) := by omega
    rw [hc]
    simp only [List.cons_append, List.nil_append]
    rw [readString.eq_def]
    split
    · next heq => cases heq
    · next heq => cases heq
    · next heq =>
      -- another escape follows, with which this one makes no pair
      cases heq
      obtain ⟨n, hn⟩ := htail _ _ _ _ _ rfl
      simp [hhex, hn, hpair, charOfCode?_toNat]
    · next heq =>
      cases heq
      simp [hhex, charOfCode?_toNat]
    · next hne heq =>
      cases heq
      exact (hne _ _ _ _ _ rfl rfl).elim
    · next hne _ heq =>
      cases heq
      exact (hne _ _ _ _ _ rfl rfl).elim
  · rw [hc, List.singleton_append]
    simp [readString, hslash, hcontrol]

lemma readString_escaped (cs acc rest : List Char) :
    readString acc (cs.flatMap escape ++ '"' :: rest) =
      some (String.ofList (acc.reverse ++ cs), rest) := by
  induction cs generalizing acc with
  | nil => simp [readString]
  | cons c cs ih =>
    rw [List.flatMap_cons, List.append_assoc,
      readString_escape c acc (wellEscaped_flatMap cs rest), ih]
    simp

/-! ### Numbers -/

lemma number?_digits (n : UInt64) : number? (Size.digits n.toNat) = some (.unsigned n) := by
  have hall : ∀ d ∈ Size.digits n.toNat, d.isDigit = true := fun _ hd =>
    Size.isDigit_of_mem_digits hd
  have hsplit : Decimal.splitPoint (Decimal.pointed (Size.digits n.toNat) [] ++ []) =
      (Size.digits n.toNat, [], []) := Decimal.splitPoint_pointed hall nofun nofun
  have hzero : ((Size.digits n.toNat).head? == some '0' && 1 < (Size.digits n.toNat).length) =
      false := by
    rcases Size.digits_cases n.toNat with h | ⟨d, ds, h, hd⟩
    · rw [h]
      rfl
    · rw [h]
      simp [hd]
  have hwhole : wholeNumber false (Size.digits n.toNat) = some (.unsigned n) := by
    simp [wholeNumber, n.toNat_lt]
  unfold number?
  split
  next negative cs heq =>
  have hsign : (negative, cs) = (false, Size.digits n.toNat) := by
    rw [← heq]
    split
    · next h => exact absurd rfl (Text.ne_of_isDigit (hall '-' (h ▸ List.mem_cons_self)) rfl)
    · rfl
  cases hsign
  have hpoint : '.' ∉ Size.digits n.toNat := fun h =>
    absurd rfl (Text.ne_of_isDigit (hall _ h) rfl)
  simp only [Decimal.pointed, List.append_nil] at hsplit
  simp only [hsplit, hzero]
  simp only [hpoint, hwhole, List.contains_eq_mem]
  simp [show Size.digits n.toNat ≠ [] from Nat.toDigits_ne_nil]

/-! ### Values -/

/-- A value that is read as it was written, up to the order of tables. -/
inductive IsExact : Value → Prop
  | null : IsExact .null
  | bool (b : Bool) : IsExact (.bool b)
  | unsigned (n : UInt64) : IsExact (.unsigned n)
  | text (s : String) : IsExact (.text s)
  | array {items : List Value} (h : ∀ v ∈ items, IsExact v) : IsExact (.array items)
  | table {entries : List (String × Value)} (h : ∀ e ∈ entries, IsExact e.2) :
      IsExact (.table entries)

mutual

/-- The value with every table sorted by key. -/
def sorted : Value → Value
  | .array items => .array (sortedItems items)
  | .table entries => Value.ofEntries (sortedEntries entries)
  | v => v

def sortedItems : List Value → List Value
  | [] => []
  | v :: rest => sorted v :: sortedItems rest

def sortedEntries : List (String × Value) → List (String × Value)
  | [] => []
  | (k, v) :: rest => (k, sorted v) :: sortedEntries rest

end

lemma isSpace_of_isDigit {d : Char} (h : d.isDigit = true) : isSpace d = false := by
  have hne (c : Char) (hc : c.isDigit = false) : d ≠ c := Text.ne_of_isDigit h hc
  simp [isSpace, hne ' ' rfl, hne '\t' rfl, hne '\n' rfl, hne '\r' rfl]

lemma skipSpace_cons {c : Char} (cs : List Char) (h : isSpace c = false) :
    skipSpace (c :: cs) = c :: cs :=
  List.dropWhile_cons_of_neg (by simp [h])

/-! ### Written values -/

section Written

lemma toList_quote (s : String) : (quote s).toList = '"' :: s.toList.flatMap escape ++ ['"'] :=
  String.toList_ofList

lemma toList_compact_unsigned (n : UInt64) :
    (compact (.unsigned n)).toList = Size.digits n.toNat := by
  change (toString n.toNat).toList = _
  rw [Nat.toString_eq_ofList_toDigits, String.toList_ofList]
  rfl

lemma toList_compact_text (s : String) :
    (compact (.text s)).toList = '"' :: s.toList.flatMap escape ++ ['"'] :=
  toList_quote s

lemma toList_member (key : String) (v : Value) (tail : List Char) :
    (quote key ++ ":" ++ compact v).toList ++ tail =
      '"' :: (key.toList.flatMap escape ++ '"' :: ':' :: ((compact v).toList ++ tail)) := by
  simp [toList_quote]

lemma length_compact_le (key : String) (v : Value) :
    (compact v).toList.length ≤ (quote key ++ ":" ++ compact v).toList.length := by
  simp only [String.toList_append, List.length_append]
  omega

/-- Texts with a comma between each two. -/
def separated (parts : List String) : List Char := (String.intercalate "," parts).toList

lemma separated_cons_cons (p q : String) (parts : List String) :
    separated (p :: q :: parts) = p.toList ++ ',' :: separated (q :: parts) := by
  simp [separated, String.intercalate_cons_cons]

lemma separated_singleton (p : String) : separated [p] = p.toList := by
  simp [separated]

lemma toList_compact_array (items : List Value) :
    (compact (.array items)).toList = '[' :: separated (compactItems items) ++ [']'] := by
  rw [compact, String.toList_append, String.toList_append]
  rfl

lemma toList_compact_table (entries : List (String × Value)) :
    (compact (.table entries)).toList =
      '\x7b' :: separated (compactEntries entries) ++ ['\x7d'] := by
  rw [compact, String.toList_append, String.toList_append]
  rfl

/-- No value begins with a blank or with the end of an array. -/
lemma exists_head {v : Value} (h : IsExact v) :
    ∃ c cs, (compact v).toList = c :: cs ∧ isSpace c = false ∧ c ≠ ']' := by
  cases h with
  | null => exact ⟨_, _, rfl, by decide, by decide⟩
  | bool b => cases b <;> exact ⟨_, _, rfl, by decide, by decide⟩
  | unsigned n =>
    rw [toList_compact_unsigned]
    obtain ⟨d, ds, hds, hd⟩ := Size.exists_digits n.toNat
    exact ⟨d, ds, hds, isSpace_of_isDigit hd, Text.ne_of_isDigit hd rfl⟩
  | text s => exact ⟨_, _, toList_compact_text s, by decide, by decide⟩
  | array h => exact ⟨_, _, toList_compact_array _, by decide, by decide⟩
  | table h => exact ⟨_, _, toList_compact_table _, by decide, by decide⟩

lemma exists_separated_head {v : Value} (h : IsExact v) (parts : List String) :
    ∃ c cs, separated (compact v :: parts) = c :: cs ∧ isSpace c = false ∧ c ≠ ']' := by
  obtain ⟨c, cs, hv, hc⟩ := exists_head h
  cases parts with
  | nil => exact ⟨c, cs, by rw [separated_singleton, hv], hc⟩
  | cons q parts => exact ⟨c, _, by rw [separated_cons_cons, hv]; rfl, hc⟩

lemma exists_separated_quote (key : String) (v : Value) (parts : List String) :
    ∃ cs, separated ((quote key ++ ":" ++ compact v) :: parts) = '"' :: cs := by
  cases parts with
  | nil =>
    have htext := toList_member key v []
    rw [List.append_nil] at htext
    exact ⟨_, by rw [separated_singleton, htext]⟩
  | cons q parts => exact ⟨_, by rw [separated_cons_cons, toList_member]⟩

end Written

/-! ### Read values -/

/-- Of a value followed by no part of a number, exactly its own text is read. A call for the value
and one for its place among others are made for every character at most. -/
def ReadsBack (v : Value) : Prop :=
  ∀ fuel rest, 2 * (compact v).toList.length < fuel →
    (∀ c ∈ rest.head?, isNumberChar c = false) →
      readValue fuel ((compact v).toList ++ rest) = some (sorted v, rest)

lemma readsBack_unsigned (n : UInt64) : ReadsBack (.unsigned n) := by
  intro fuel rest hfuel hrest
  have hall : ∀ d ∈ Size.digits n.toNat, d.isDigit = true := fun _ hd =>
    Size.isDigit_of_mem_digits hd
  have hnumber : ∀ d ∈ Size.digits n.toNat, isNumberChar d = true := fun d hd => by
    simp [isNumberChar, hall d hd]
  have htake := takeWhile_run hnumber hrest
  have hdrop := dropWhile_run hnumber hrest
  have hread := number?_digits n
  rw [toList_compact_unsigned] at hfuel ⊢
  obtain ⟨d, ds, hds, hd⟩ := Size.exists_digits n.toNat
  rw [hds] at hread
  rw [hds, List.cons_append] at htake hdrop ⊢
  cases fuel with
  | zero => omega
  | succ fuel =>
    rw [readValue, skipSpace_cons _ (isSpace_of_isDigit hd)]
    split
    -- no digit begins a value of another kind
    iterate 6
      next heq => exact absurd (List.cons.inj heq).1 (Text.ne_of_isDigit hd rfl)
    rw [htake, hdrop, hread]
    rfl

lemma readsBack_text (s : String) : ReadsBack (.text s) := by
  intro fuel rest hfuel _
  have hread := readString_escaped s.toList [] rest
  have htext : (compact (.text s)).toList ++ rest =
      '"' :: (s.toList.flatMap escape ++ '"' :: rest) := by
    rw [toList_compact_text, List.cons_append, List.cons_append, List.append_assoc]
    rfl
  cases fuel with
  | zero => omega
  | succ fuel =>
    rw [htext, readValue, skipSpace_cons _ (by decide)]
    simp only [hread]
    simp [sorted]

section Items

variable {v : Value} {fuel : Nat} (hv : ReadsBack v)
  (hfuel : 2 * (compact v).toList.length < fuel) (acc : List Value) (rest : List Char)

include hv hfuel

lemma readItems_comma :
    readItems (fuel + 1) acc ((compact v).toList ++ ',' :: rest) =
      readItems fuel (sorted v :: acc) rest := by
  have hread := hv fuel (',' :: rest) hfuel (by rintro c ⟨⟩; decide)
  rw [readItems, hread]
  simp only [skipSpace_cons rest (show isSpace ',' = false by decide)]

lemma readItems_end :
    readItems (fuel + 1) acc ((compact v).toList ++ ']' :: rest) =
      some (.array (sorted v :: acc).reverse, rest) := by
  have hread := hv fuel (']' :: rest) hfuel (by rintro c ⟨⟩; decide)
  rw [readItems, hread]
  simp only [skipSpace_cons rest (show isSpace ']' = false by decide)]

end Items

lemma readItems_separated (v : Value) (items : List Value) (hall : ∀ w ∈ v :: items, ReadsBack w)
    (acc : List Value) (fuel : Nat)
    (hfuel : 2 * (separated (compactItems (v :: items))).length + 1 < fuel) (rest : List Char) :
    readItems fuel acc (separated (compactItems (v :: items)) ++ ']' :: rest) =
      some (.array (acc.reverse ++ sortedItems (v :: items)), rest) := by
  induction items generalizing v acc fuel with
  | nil =>
    rw [compactItems, compactItems, separated_singleton] at hfuel ⊢
    obtain ⟨fuel, rfl⟩ : ∃ k, fuel = k + 1 := ⟨fuel - 1, by omega⟩
    rw [readItems_end (hall v List.mem_cons_self) (by omega)]
    simp [sortedItems]
  | cons w items ih =>
    rw [compactItems, compactItems, separated_cons_cons, ← compactItems] at hfuel ⊢
    rw [List.length_append, List.length_cons] at hfuel
    obtain ⟨fuel, rfl⟩ : ∃ k, fuel = k + 1 := ⟨fuel - 1, by omega⟩
    rw [List.append_assoc, List.cons_append,
      readItems_comma (hall v List.mem_cons_self) (by omega),
      ih w (fun u hu => hall u (List.mem_cons_of_mem v hu)) (sorted v :: acc) _ (by omega)]
    simp [sortedItems]

lemma readsBack_array {items : List Value} (hexact : ∀ v ∈ items, IsExact v)
    (hall : ∀ v ∈ items, ReadsBack v) : ReadsBack (.array items) := by
  intro fuel rest hfuel _
  have htext : (compact (.array items)).toList ++ rest =
      '[' :: (separated (compactItems items) ++ ']' :: rest) := by
    rw [toList_compact_array, List.cons_append, List.cons_append, List.append_assoc]
    rfl
  rw [toList_compact_array, List.length_append, List.length_cons] at hfuel
  obtain ⟨fuel, rfl⟩ : ∃ k, fuel = k + 1 := ⟨fuel - 1, by omega⟩
  rw [htext, readValue, skipSpace_cons _ (by decide)]
  cases items with
  | nil => rfl
  | cons v items =>
    have hread := readItems_separated v items hall [] fuel (by omega) rest
    obtain ⟨c, cs, hhead, hspace, hclose⟩ := exists_separated_head (hexact v List.mem_cons_self)
      (compactItems items)
    rw [compactItems, hhead] at hread ⊢
    simp only [List.cons_append, skipSpace_cons _ hspace] at hread ⊢
    split
    · next heq => exact absurd (List.cons.inj heq).1 hclose
    · rw [hread]
      simp [sorted]

section Members

variable {v : Value} {fuel : Nat} (hv : ReadsBack v)
  (hfuel : 2 * (compact v).toList.length < fuel) (key : String) (acc : List (String × Value))
  (rest : List Char)

include hv hfuel

lemma readMembers_comma :
    readMembers (fuel + 1) acc ((quote key ++ ":" ++ compact v).toList ++ ',' :: rest) =
      readMembers fuel ((key, sorted v) :: acc) rest := by
  have hread := hv fuel (',' :: rest) hfuel (by rintro c ⟨⟩; decide)
  rw [toList_member, readMembers, skipSpace_cons _ (by decide)]
  simp only [readString_escaped, skipSpace_cons _ (show isSpace ':' = false by decide), hread,
    skipSpace_cons rest (show isSpace ',' = false by decide)]
  simp

lemma readMembers_end :
    readMembers (fuel + 1) acc ((quote key ++ ":" ++ compact v).toList ++ '\x7d' :: rest) =
      some (Value.ofEntries ((key, sorted v) :: acc).reverse, rest) := by
  have hread := hv fuel ('\x7d' :: rest) hfuel (by rintro c ⟨⟩; decide)
  rw [toList_member, readMembers, skipSpace_cons _ (by decide)]
  simp only [readString_escaped, skipSpace_cons _ (show isSpace ':' = false by decide), hread,
    skipSpace_cons rest (show isSpace '\x7d' = false by decide)]
  simp

end Members

lemma readMembers_separated (key : String) (v : Value) (entries : List (String × Value))
    (hall : ∀ e ∈ (key, v) :: entries, ReadsBack e.2) (acc : List (String × Value)) (fuel : Nat)
    (hfuel : 2 * (separated (compactEntries ((key, v) :: entries))).length + 1 < fuel)
    (rest : List Char) :
    readMembers fuel acc (separated (compactEntries ((key, v) :: entries)) ++ '\x7d' :: rest) =
      some (Value.ofEntries (acc.reverse ++ sortedEntries ((key, v) :: entries)), rest) := by
  induction entries generalizing key v acc fuel with
  | nil =>
    rw [compactEntries, compactEntries, separated_singleton] at hfuel ⊢
    obtain ⟨fuel, rfl⟩ : ∃ k, fuel = k + 1 := ⟨fuel - 1, by omega⟩
    have hv : ReadsBack v := hall (key, v) List.mem_cons_self
    have hlength := length_compact_le key v
    rw [readMembers_end hv (by omega)]
    simp [sortedEntries]
  | cons e entries ih =>
    rw [compactEntries, compactEntries, separated_cons_cons, ← compactEntries] at hfuel ⊢
    rw [List.length_append, List.length_cons] at hfuel
    obtain ⟨fuel, rfl⟩ : ∃ k, fuel = k + 1 := ⟨fuel - 1, by omega⟩
    have hv : ReadsBack v := hall (key, v) List.mem_cons_self
    have hlength := length_compact_le key v
    rw [List.append_assoc, List.cons_append, readMembers_comma hv (by omega),
      ih e.1 e.2 (fun e' he' => hall e' (List.mem_cons_of_mem _ he')) ((key, sorted v) :: acc)
        _ (by omega)]
    simp [sortedEntries]

lemma readsBack_table {entries : List (String × Value)} (hall : ∀ e ∈ entries, ReadsBack e.2) :
    ReadsBack (.table entries) := by
  intro fuel rest hfuel _
  have htext : (compact (.table entries)).toList ++ rest =
      '\x7b' :: (separated (compactEntries entries) ++ '\x7d' :: rest) := by
    rw [toList_compact_table, List.cons_append, List.cons_append, List.append_assoc]
    rfl
  rw [toList_compact_table, List.length_append, List.length_cons] at hfuel
  obtain ⟨fuel, rfl⟩ : ∃ k, fuel = k + 1 := ⟨fuel - 1, by omega⟩
  rw [htext, readValue, skipSpace_cons _ (by decide)]
  cases entries with
  | nil => rfl
  | cons e entries =>
    obtain ⟨key, v⟩ := e
    have hread := readMembers_separated key v entries hall [] fuel (by omega) rest
    obtain ⟨cs, hhead⟩ := exists_separated_quote key v (compactEntries entries)
    rw [compactEntries, hhead] at hread ⊢
    simp only [List.cons_append, skipSpace_cons _ (show isSpace '"' = false by decide)] at hread ⊢
    split
    · next heq => exact absurd (List.cons.inj heq).1 (by decide)
    · rw [hread]
      simp [sorted]

/-- **What is written on one line is read back, with its tables sorted.** -/
theorem readsBack {v : Value} (h : IsExact v) : ReadsBack v := by
  induction h with
  | null =>
    intro fuel rest hfuel _
    cases fuel with
    | zero => omega
    | succ fuel => rfl
  | bool b =>
    intro fuel rest hfuel _
    cases fuel with
    | zero => omega
    | succ fuel => cases b <;> rfl
  | unsigned n => exact readsBack_unsigned n
  | text s => exact readsBack_text s
  | array hexact ih => exact readsBack_array hexact ih
  | table _ ih => exact readsBack_table ih

/-- What is relied on of a writer and a reader of the format: nothing, truth values, sizes, texts,
arrays and tables are read back as they were, but for the order within tables. -/
structure IsFaithful (write : Value → String) (read? : String → Option Value) : Prop where
  readsBack : ∀ {v}, IsExact v → read? (write v) = some (sorted v)

/-- **Text on one line is written and read as is relied on.** -/
theorem isFaithful_compact : IsFaithful compact read? where
  readsBack {v} h := by
    have hread := readsBack h (2 * (compact v).length + 2) []
      (by rw [String.length_toList]; omega) nofun
    rw [List.append_nil] at hread
    rw [read?, hread]
    rfl

/-! ### Sorted tables -/

section Sorted

variable {key : String} {entries : List (String × Value)}

lemma sortedItems_eq_map (items : List Value) : sortedItems items = items.map sorted := by
  induction items with
  | nil => rfl
  | cons v items ih => rw [sortedItems, ih, List.map_cons]

lemma sortedEntries_eq_map (entries : List (String × Value)) :
    sortedEntries entries = entries.map fun e => (e.1, sorted e.2) := by
  induction entries with
  | nil => rfl
  | cons e entries ih => rw [sortedEntries, ih, List.map_cons]

lemma keys_sortedEntries (entries : List (String × Value)) :
    (sortedEntries entries).map Prod.fst = entries.map Prod.fst := by
  rw [sortedEntries_eq_map, List.map_map]
  rfl

lemma lookup?_sortedEntries (key : String) (entries : List (String × Value)) :
    Value.lookup? key (sortedEntries entries) = (Value.lookup? key entries).map sorted := by
  induction entries with
  | nil => rfl
  | cons e entries ih =>
    rw [sortedEntries, Value.lookup?, Value.lookup?, ih]
    split
    · rfl
    · rfl

/-- Sorting a table whose keys are distinct moves no value to another key. -/
lemma get?_sorted (h : (entries.map Prod.fst).Nodup) (key : String) :
    (sorted (.table entries)).get? key = ((Value.table entries).get? key).map sorted := by
  change Value.lookup? key (Value.sortEntries (sortedEntries entries)) =
    (Value.lookup? key entries).map sorted
  rw [Value.lookup?_sortEntries, Value.lookup?_reverse (by rwa [keys_sortedEntries]),
    lookup?_sortedEntries]

/-- A table with ascending keys is as sorted as its values. -/
lemma sorted_table (h : Value.IsSorted entries) (hall : ∀ e ∈ entries, sorted e.2 = e.2) :
    sorted (.table entries) = .table entries := by
  have hvalues : ∀ e ∈ entries, (e.1, sorted e.2) = id e := fun e he => by
    rw [hall e he]
    rfl
  have hentries : sortedEntries entries = entries := by
    rw [sortedEntries_eq_map, List.map_congr_left hvalues, List.map_id]
  rw [sorted, hentries, Value.ofEntries, Value.sortEntries_of_isSorted h]

end Sorted

end Json

end PhaseExecutors
