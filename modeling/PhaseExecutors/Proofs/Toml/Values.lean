import PhaseExecutors.Proofs.Number.Positional
import PhaseExecutors.Toml.Document
import PhaseExecutors.Toml.Writer

/-!
Values on one line of a document.

A truth value, a whole number that is not negative, and a text of printable characters are read as
they were written, up to the end of the line. For a number this means that it is neither a date nor
a floating point number, and that its digits do not begin with a needless zero.
-/

namespace PhaseExecutors

namespace Size

/-- A size below the bound is the same number as a signed word. -/
lemma toInt_ofInt_natCast {n : Nat} (h : n < signedBound) : (Int64.ofInt n).toInt = n := by
  have hbound : (signedBound : Int) = 2 ^ 63 := rfl
  exact Int64.toInt_ofInt_of_le (by omega) (by omega)

end Size

namespace Toml

open Text (IsPrintable takeWhile_run dropWhile_run)

variable {ds rest : List Char} {s : String}

/-- The values that a line of a document may hold here. -/
inductive IsPlain : Value → Prop
  | bool (b : Bool) : IsPlain (.bool b)
  | number {n : Nat} (h : n < Size.signedBound) : IsPlain (.signed (Int64.ofInt n))
  | text {s : String} (h : ∀ c ∈ s.toList, IsPrintable c) : IsPlain (.text s)

/-- The text is read as the value up to the end of its line, and begins with no blank. -/
structure Denotes (text : List Char) (v : Value) : Prop where
  read : ∀ fuel depth rest, value? (fuel + 1) depth (text ++ '\n' :: rest) = some (v, '\n' :: rest)
  head : ∀ c ∈ text.head?, isBlank c = false

lemma denotes_bool (b : Bool) : Denotes (if b then "true" else "false").toList (.bool b) := by
  cases b with
  | true => exact ⟨fun fuel depth rest => rfl, fun c hc => by cases hc; rfl⟩
  | false => exact ⟨fun fuel depth rest => rfl, fun c hc => by cases hc; rfl⟩

/-! ### Texts -/

lemma escape_of_isPrintable {c : Char} (h : IsPrintable c) : Json.escape c = [c] := by
  obtain ⟨hlow, hhigh, hquote, hslash⟩ := h
  have hne (d : Char) (hd : d.toNat < 0x21) : c ≠ d := by
    rintro rfl
    omega
  have hcontrol : ¬c.toNat < 0x20 := by omega
  simp only [Json.escape, if_neg hquote, if_neg hslash, if_neg (hne '\x08' (by decide)),
    if_neg (hne '\x0c' (by decide)), if_neg (hne '\n' (by decide)),
    if_neg (hne '\r' (by decide)), if_neg (hne '\t' (by decide)), if_neg hcontrol]

lemma toList_quote (h : ∀ c ∈ s.toList, IsPrintable c) :
    (Json.quote s).toList = '"' :: (s.toList ++ ['"']) := by
  have hflat : s.toList.flatMap Json.escape = s.toList := by
    conv_rhs => rw [← List.flatMap_singleton' s.toList]
    exact List.flatMap_congr fun c hc => escape_of_isPrintable (h c hc)
  simp [Json.quote, hflat]

/-- Printable characters stand for themselves up to the closing quote. -/
lemma basic?_of_isPrintable {cs acc : List Char} {fuel : Nat} (h : ∀ c ∈ cs, IsPrintable c)
    (hfuel : cs.length < fuel) :
    basic? fuel acc (cs ++ '"' :: rest) = some (String.ofList (acc.reverse ++ cs), rest) := by
  induction cs generalizing acc fuel with
  | nil =>
    obtain ⟨fuel, rfl⟩ := Nat.exists_eq_succ_of_ne_zero (Nat.ne_of_gt hfuel)
    simp [basic?, closed]
  | cons c cs ih =>
    obtain ⟨fuel, rfl⟩ := Nat.exists_eq_succ_of_ne_zero (Nat.ne_of_gt (Nat.zero_lt_of_lt hfuel))
    obtain ⟨hlow, hhigh, hquote, hslash⟩ := h c List.mem_cons_self
    have htext : isTextChar c = true := by
      have hdel : decide (c.toNat = 127) = false := decide_eq_false (by omega)
      have hspace : decide (0x20 ≤ c.toNat) = true := decide_eq_true (by omega)
      simp [isTextChar, hdel, hspace]
    have hcs : ∀ d ∈ cs, IsPrintable d := fun d hd => h d (List.mem_cons_of_mem c hd)
    rw [List.cons_append, basic?, if_neg hquote, if_neg hslash, if_pos htext,
      ih hcs (Nat.lt_of_succ_lt_succ hfuel)]
    simp

lemma denotes_text (h : ∀ c ∈ s.toList, IsPrintable c) :
    Denotes (Json.quote s).toList (.text s) := by
  rw [toList_quote h]
  refine ⟨fun fuel depth rest => ?_, ?_⟩
  · have htext : '"' :: (s.toList ++ ['"']) ++ '\n' :: rest =
        '"' :: (s.toList ++ '"' :: '\n' :: rest) := by simp
    have hlen : s.toList.length < (s.toList ++ '"' :: '\n' :: rest).length + 1 := by
      rw [List.length_append]
      omega
    have hread : basic? _ [] (s.toList ++ '"' :: '\n' :: rest) = some (_, '\n' :: rest) :=
      basic?_of_isPrintable h hlen
    have hstring : string? ('"' :: (s.toList ++ '"' :: '\n' :: rest)) = some (s, '\n' :: rest) := by
      unfold string?
      split
      · next heq =>
        -- three quotes: the text would hold one
        cases hs : s.toList with
        | nil => simp [hs] at heq
        | cons c cs =>
          rw [hs] at heq h
          obtain ⟨-, -, hquote, -⟩ := h c List.mem_cons_self
          simp only [List.cons_append, List.cons.injEq] at heq
          exact absurd heq.2.1 hquote
      · next heq => cases heq
      · rw [shortString?, hread]
        simp
    rw [htext, value?]
    simp [hstring]
  · intro c hc
    cases hc
    decide

/-! ### Numbers -/

lemma digitRun_append (hds : ∀ d ∈ ds, d.isDigit = true) (rest : List Char) :
    digitRun Char.isDigit (ds ++ '\n' :: rest) = (ds, '\n' :: rest) := by
  have hnewline : Char.isDigit '\n' = false := rfl
  induction ds with
  | nil =>
    unfold digitRun
    split
    · next heq => cases heq; rfl
    · next heq => cases heq; rfl
    · next heq => cases heq
  | cons d ds ih =>
    have hd := hds d List.mem_cons_self
    have ih := ih fun c hc => hds c (List.mem_cons_of_mem d hc)
    unfold digitRun
    split
    · next c e tail heq =>
      -- no underscore among digits
      obtain ⟨rfl, htail⟩ := List.cons.inj heq
      cases ds with
      | nil => cases htail
      | cons f fs =>
        have hf := hds f (by simp)
        rw [(List.cons.inj htail).1] at hf
        exact absurd hf (by decide)
    · next c tail _ heq =>
      obtain ⟨rfl, htail⟩ := List.cons.inj heq
      rw [← htail, List.append_eq]
      simp only [hd, if_true, ih]
    · next heq => cases heq

lemma wholeDigits?_digits (n : Nat) (rest : List Char) :
    wholeDigits? (Size.digits n ++ '\n' :: rest) = some (Size.digits n, '\n' :: rest) := by
  rcases Size.digits_cases n with hzero | ⟨d, ds, hds, hd⟩
  · rw [hzero]
    rfl
  · have hdigits : ∀ c ∈ Size.digits n, c.isDigit = true := fun _ hc =>
      Size.isDigit_of_mem_digits hc
    have hrun := digitRun_append hdigits rest
    rw [hds] at hrun ⊢
    rw [List.cons_append] at hrun ⊢
    unfold wholeDigits?
    split
    · next heq => exact absurd (List.cons.inj heq).1 hd
    · rw [hrun]

/-- Behind some of the digits stands a digit or the end of the line. -/
lemma expect?_of_fixedDigits? {c : Char} {width n : Nat} {cs : List Char}
    (hds : ∀ d ∈ ds, d.isDigit = true) (hc : c.isDigit = false) (hnewline : c ≠ '\n')
    (h : fixedDigits? width (ds ++ '\n' :: rest) = some (n, cs)) : expect? c cs = none := by
  unfold fixedDigits? at h
  dsimp only at h
  split at h
  · next hall =>
    have hwidth : width ≤ ds.length := by
      by_contra hlt
      obtain ⟨k, hk⟩ : ∃ k, width - ds.length = k + 1 := ⟨width - ds.length - 1, by omega⟩
      rw [List.take_append, hk, List.take_succ_cons] at hall
      simp at hall
    rw [List.drop_append_of_le_length hwidth] at h
    cases h
    cases hdrop : ds.drop width with
    | nil => simp [expect?, hnewline]
    | cons d tail =>
      have hd := hds d (List.mem_of_mem_drop (i := width) (by rw [hdrop]; exact List.mem_cons_self))
      have hne : c ≠ d := by
        rintro rfl
        rw [hd] at hc
        cases hc
      simp [expect?, hne]
  · cases h

lemma dateTime?_digits (hds : ∀ d ∈ ds, d.isDigit = true) (rest : List Char) :
    dateTime? (ds ++ '\n' :: rest) = none := by
  have hdate : date? (ds ++ '\n' :: rest) = none := by
    unfold date?
    cases hyear : fixedDigits? 4 (ds ++ '\n' :: rest) with
    | none => rfl
    | some year =>
      have hminus := expect?_of_fixedDigits? (c := '-') hds rfl (by decide) hyear
      simp [hminus]
  have htime : time? (ds ++ '\n' :: rest) = none := by
    unfold time?
    cases hhour : fixedDigits? 2 (ds ++ '\n' :: rest) with
    | none => rfl
    | some hour =>
      have hcolon := expect?_of_fixedDigits? (c := ':') hds rfl (by decide) hhour
      simp [hcolon]
  simp [dateTime?, dateOrTime?, hdate, htime]

lemma sign_of_isDigit {d : Char} (cs : List Char) (hd : d.isDigit = true) :
    sign (d :: cs) = (false, d :: cs) := by
  unfold sign
  split
  · next heq =>
    cases heq
    exact absurd hd (by decide)
  · next heq =>
    cases heq
    exact absurd hd (by decide)
  · rfl

lemma float?_digits (n : Nat) (rest : List Char) :
    float? (Size.digits n ++ '\n' :: rest) = none := by
  have hwhole := wholeDigits?_digits n rest
  have htail : floatTail? ('\n' :: rest) = none := by
    simp [floatTail?, exponent?, fraction?]
  obtain ⟨d, ds, hds, hd⟩ := Size.exists_digits n
  rw [hds, List.cons_append] at hwhole ⊢
  unfold float?
  rw [sign_of_isDigit _ hd]
  dsimp only
  split
  · next heq => exact absurd (List.cons.inj heq).1 (Text.ne_of_isDigit hd rfl)
  · next heq => exact absurd (List.cons.inj heq).1 (Text.ne_of_isDigit hd rfl)
  · simp [hwhole, htail]

lemma signed?_natCast {n : Nat} (hn : n < Size.signedBound) :
    signed? (n : Int) = some (.signed (Int64.ofInt n)) := by
  have hlow : -(Size.signedBound : Int) ≤ n := by omega
  have hhigh : (n : Int) < Size.signedBound := by omega
  rw [signed?, if_pos ⟨hlow, hhigh⟩]

lemma integer?_digits {n : Nat} (hn : n < Size.signedBound) (rest : List Char) :
    integer? (Size.digits n ++ '\n' :: rest) =
      some (.signed (Int64.ofInt n), '\n' :: rest) := by
  have hwhole := wholeDigits?_digits n rest
  obtain ⟨d, ds, hds, hd⟩ := Size.exists_digits n
  have hvalue : Decimal.ofDigits (d :: ds) = n := by rw [← hds, Decimal.ofDigits_digits]
  -- a zero is followed by the end of the line, not by the letter of a base
  have hbase (c : Char) (tail : List Char) (hc : c ≠ '\n') :
      d :: (ds ++ '\n' :: rest) ≠ '0' :: c :: tail := by
    intro heq
    obtain ⟨rfl, htail⟩ := List.cons.inj heq
    rcases Size.digits_cases n with hzero | ⟨e, es, hes, he⟩
    · rw [hds] at hzero
      rw [(List.cons.inj hzero).2] at htail
      exact hc (List.cons.inj htail).1.symm
    · rw [hds] at hes
      exact he (List.cons.inj hes).1.symm
  rw [hds, List.cons_append] at hwhole ⊢
  unfold integer?
  split
  · next heq => exact absurd heq (hbase _ _ (by decide))
  · next heq => exact absurd heq (hbase _ _ (by decide))
  · next heq => exact absurd heq (hbase _ _ (by decide))
  · rw [sign_of_isDigit _ hd]
    dsimp only
    rw [hwhole, Option.bind_some]
    dsimp only
    rw [hvalue, if_neg Bool.false_ne_true, signed?_natCast hn, Option.map_some]

lemma denotes_number {n : Nat} (hn : n < Size.signedBound) :
    Denotes (Size.digits n) (.signed (Int64.ofInt n)) := by
  have hall : ∀ d ∈ Size.digits n, d.isDigit = true := fun _ hd => Size.isDigit_of_mem_digits hd
  refine ⟨fun fuel depth rest => ?_, ?_⟩
  · have hnumber : number? (Size.digits n ++ '\n' :: rest) =
        some (.signed (Int64.ofInt n), '\n' :: rest) := by
      simp only [number?, dateTime?_digits hall rest, float?_digits, integer?_digits hn]
    obtain ⟨d, ds, hds, hd⟩ := Size.exists_digits n
    have hne (c : Char) (hc : c.isDigit = false) : d ≠ c := Text.ne_of_isDigit hd hc
    rw [hds, List.cons_append] at hnumber ⊢
    rw [value?]
    simp only [hne '"' rfl, hne '\'' rfl, hne '[' rfl, hne '\x7b' rfl, decide_false,
      Bool.or_false, Bool.false_eq_true, if_false]
    split
    · next heq => exact absurd (List.cons.inj heq).1 (hne 't' rfl)
    · next heq => exact absurd (List.cons.inj heq).1 (hne 'f' rfl)
    · exact hnumber
  · intro c hc
    have hdigit := hall c (List.mem_of_mem_head? hc)
    simp [isBlank, Text.ne_of_isDigit hdigit (d := ' ') rfl,
      Text.ne_of_isDigit hdigit (d := '\t') rfl]

/-- **What is written for a plain value is read as that value.** -/
theorem exists_plain {v : Value} (h : IsPlain v) :
    ∃ text, plain v = .ok text ∧ Denotes text.toList v := by
  cases h with
  | bool b => exact ⟨_, rfl, denotes_bool b⟩
  | text h => exact ⟨_, rfl, denotes_text h⟩
  | @number n hn =>
    refine ⟨toString n, ?_, ?_⟩
    · rw [plain, Size.toInt_ofInt_natCast hn]
      rfl
    · rw [Nat.toString_eq_ofList_toDigits, String.toList_ofList]
      exact denotes_number hn

end Toml

end PhaseExecutors
