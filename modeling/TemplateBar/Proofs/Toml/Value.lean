import Mathlib.Data.Nat.Digits.Defs
import TemplateBar.Proofs.Toml.Key
import TemplateBar.Toml.Document

/-!
# Written values are read back

The digits of a whole number are no moment and no double, so they are read as that number. A value
ends where its line ends.
-/
namespace TemplateBar.Toml

open Text (isAsciiDigit)

variable {c : Char} {rest : List Char}

/-! ## Digits -/

theorem isAsciiDigit_of_mem_digitsOfNat {n : Nat} (h : c ∈ Decimal.digitsOfNat n) :
    isAsciiDigit c = true := by
  have hdigit := Nat.isDigit_of_mem_toDigits (by decide) (by decide) h
  simpa [Char.isDigit, isAsciiDigit, Char.le_def] using hdigit

theorem natOfDigits_digitsOfNat (n : Nat) : Decimal.natOfDigits (Decimal.digitsOfNat n) = n :=
  Nat.ofDigitChars_toDigits (by decide) (by decide)

theorem eq_zero_of_digitChar : ∀ n < 10, n.digitChar = '0' → n = 0 := by decide

theorem eq_zero_of_digitsOfNat {n : Nat} {ds : List Char} (h : Decimal.digitsOfNat n = '0' :: ds) :
    n = 0 := by
  induction n using Nat.strongRecOn generalizing ds with
  | ind n ih =>
    unfold Decimal.digitsOfNat at h ih
    rw [Nat.toDigits_eq_if (by decide)] at h
    split at h
    · rename_i hn
      exact eq_zero_of_digitChar n hn (List.cons.inj h).1
    · rename_i hn
      obtain ⟨d, ds', hds⟩ : ∃ d ds', Nat.toDigits 10 (n / 10) = d :: ds' :=
        List.exists_cons_of_ne_nil Nat.toDigits_ne_nil
      rw [hds] at h
      obtain ⟨rfl, -⟩ := List.cons.inj h
      have hzero := ih (n / 10) (by omega) hds
      omega

/-- The first digit of a number; a zero stands alone. -/
theorem exists_digitsOfNat_eq (n : Nat) :
    ∃ d ds, Decimal.digitsOfNat n = d :: ds ∧ isAsciiDigit d = true ∧ (d = '0' → ds = []) := by
  obtain ⟨d, ds, h⟩ : ∃ d ds, Decimal.digitsOfNat n = d :: ds :=
    List.exists_cons_of_ne_nil Nat.toDigits_ne_nil
  refine ⟨d, ds, h, isAsciiDigit_of_mem_digitsOfNat (n := n) (h ▸ List.mem_cons_self), ?_⟩
  rintro rfl
  obtain rfl := eq_zero_of_digitsOfNat h
  exact (List.cons.inj h).2.symm

theorem digitsRest_append {isDigit : Char → Bool} {ds : List Char}
    (hds : ∀ d ∈ ds, isDigit d = true ∧ d ≠ '_') (hc : isDigit c = false ∧ c ≠ '_') :
    digitsRest isDigit (ds ++ c :: rest) = (ds, c :: rest) := by
  induction ds with
  | nil =>
    unfold digitsRest
    split <;> simp_all
  | cons d ds ih =>
    obtain ⟨hd, hne⟩ := hds d List.mem_cons_self
    rw [List.cons_append, digitsRest]
    · simp [hd, ih fun d hd => hds d (List.mem_cons_of_mem _ hd)]
    · exact fun _ _ h => absurd h hne

theorem wholePart_digitsOfNat (n : Nat) (hc : isAsciiDigit c = false ∧ c ≠ '_') :
    wholePart (Decimal.digitsOfNat n ++ c :: rest) = some (Decimal.digitsOfNat n, c :: rest) := by
  obtain ⟨d, ds, heq, hd, hzero⟩ := exists_digitsOfNat_eq n
  have hds : ∀ d ∈ ds, isAsciiDigit d = true ∧ d ≠ '_' := fun d hd => by
    have h : isAsciiDigit d = true :=
      isAsciiDigit_of_mem_digitsOfNat (n := n) (heq ▸ List.mem_cons_of_mem _ hd)
    exact ⟨h, ne_of_class h (by decide)⟩
  rw [heq]
  unfold wholePart
  split
  · rename_i cs h
    obtain ⟨rfl, rfl⟩ := List.cons.inj h
    rw [hzero rfl]
    rfl
  · simp [digits, hd, digitsRest_append hds hc]

/-! ## Whole numbers -/

/-- A number of digits only, up to the end of its line. -/
def IsDigitLine (cs rest : List Char) : Prop :=
  ∃ ds, (∀ d ∈ ds, isAsciiDigit d = true) ∧ cs = ds ++ '\n' :: rest

theorem IsDigitLine.number {cs : List Char} {width : Nat} {r : Nat × List Char}
    (h : IsDigitLine cs rest) (hr : Moment.number width cs = some r) : IsDigitLine r.2 rest := by
  obtain ⟨ds, hds, rfl⟩ := h
  simp only [Moment.number, Option.ite_none_right_eq_some, Option.some.injEq] at hr
  obtain ⟨⟨hlen, hall⟩, rfl⟩ := hr
  refine ⟨ds.drop width, fun d hd => hds d (List.mem_of_mem_drop hd), ?_⟩
  have hwidth : width ≤ ds.length := by
    by_contra hlt
    have hmem : '\n' ∈ (ds ++ '\n' :: rest).take width := by
      rw [List.take_append, List.mem_append]
      right
      obtain ⟨k, hk⟩ : ∃ k, width - ds.length = k + 1 := ⟨width - ds.length - 1, by omega⟩
      rw [hk]
      exact List.mem_cons_self
    have hdigit := List.all_eq_true.mp hall _ hmem
    exact absurd hdigit (by decide)
  rw [List.drop_append_of_le_length hwidth]

theorem IsDigitLine.char_eq_none {cs : List Char} (h : IsDigitLine cs rest)
    (hc : isAsciiDigit c = false ∧ c ≠ '\n') : Moment.char c cs = none := by
  obtain ⟨ds, hds, rfl⟩ := h
  cases ds with
  | nil => simp [Moment.char, hc.2]
  | cons d ds =>
    have hne : d ≠ c := ne_of_class (hds d List.mem_cons_self) hc.1
    simp [Moment.char, hne.symm]

theorem IsDigitLine.text_eq_none {cs : List Char} (h : IsDigitLine cs rest) :
    Moment.text cs = none := by
  have hdate : Moment.date cs = none := by
    unfold Moment.date
    cases hy : Moment.number 4 cs with
    | none => rfl
    | some r => simp [(h.number hy).char_eq_none (c := '-') (by decide)]
  have htime : Moment.time cs = none := by
    unfold Moment.time
    cases hh : Moment.numberIn 0 23 cs with
    | none => rfl
    | some r =>
      have hnumber : Moment.number 2 cs = some r := (Option.filter_eq_some_iff.mp hh).1
      simp [(h.number hnumber).char_eq_none (c := ':') (by decide)]
  simp [Moment.text, Moment.dateAndTime, hdate, htime]

/-- A sign in front of a number is no moment either. -/
theorem text_minus_eq_none (cs : List Char) : Moment.text ('-' :: cs) = none := by
  have hnumber (width : Nat) (hw : 0 < width) : Moment.number width ('-' :: cs) = none := by
    obtain ⟨w, rfl⟩ := Nat.exists_eq_succ_of_ne_zero hw.ne'
    have hminus : isAsciiDigit '-' = false := by decide
    simp [Moment.number, hminus]
  simp [Moment.text, Moment.dateAndTime, Moment.date, Moment.time, Moment.numberIn, hnumber]

theorem wholePart_line (n : Nat) (rest : List Char) :
    wholePart (Decimal.digitsOfNat n ++ '\n' :: rest) =
      some (Decimal.digitsOfNat n, '\n' :: rest) :=
  wholePart_digitsOfNat n (by decide)

/-- Behind the digits there is neither a point nor an exponent. -/
theorem readDouble_eq_none {cs : List Char} {negative : Bool} {n : Nat}
    (hs : sign cs = (negative, Decimal.digitsOfNat n ++ '\n' :: rest)) : readDouble cs = none := by
  obtain ⟨d, ds, heq, hd, -⟩ := exists_digitsOfNat_eq n
  have hw := wholePart_line n rest
  have hi : d ≠ 'i' := ne_of_class hd (by decide)
  have hn : d ≠ 'n' := ne_of_class hd (by decide)
  rw [heq] at hs hw
  unfold readDouble
  simp only [hs]
  split
  · rename_i h
    exact absurd (List.cons.inj h).1 hi
  · rename_i h
    exact absurd (List.cons.inj h).1 hn
  · rw [hw]
    simp [fractionPart, exponentPart]

theorem readWhole_line {cs : List Char} {negative : Bool} {n : Nat}
    (hs : sign cs = (negative, Decimal.digitsOfNat n ++ '\n' :: rest))
    (hbase : ∀ cs', cs ≠ '0' :: 'x' :: cs' ∧ cs ≠ '0' :: 'o' :: cs' ∧ cs ≠ '0' :: 'b' :: cs') :
    readWhole cs = wordValue (if negative then -(n : Int) else n) ('\n' :: rest) := by
  unfold readWhole
  split
  · exact absurd rfl (hbase _).1
  · exact absurd rfl (hbase _).2.1
  · exact absurd rfl (hbase _).2.2
  · simp [hs, wholePart_line, natOfDigits_digitsOfNat]

theorem sign_of_isAsciiDigit {cs : List Char} (h : isAsciiDigit c = true) :
    sign (c :: cs) = (false, c :: cs) := by
  have hminus : c ≠ '-' := ne_of_class h (by decide)
  have hplus : c ≠ '+' := ne_of_class h (by decide)
  simp [sign, hminus, hplus]

/-- Whole numbers begin with a digit or a minus. -/
def opensWhole (c : Char) : Bool := isAsciiDigit c || c = '-'

theorem readScalar_of_opensWhole {cs : List Char} (h : opensWhole c = true)
    (hm : Moment.text (c :: cs) = none) (hd : readDouble (c :: cs) = none) :
    readScalar (c :: cs) = readWhole (c :: cs) := by
  have hne : c ≠ '"' ∧ c ≠ '\'' ∧ c ≠ 't' ∧ c ≠ 'f' := by
    refine ⟨?_, ?_, ?_, ?_⟩ <;> exact ne_of_class h (by decide)
  have hstring : readString (c :: cs) = none := by simp [readString, hne]
  have htruth : readTruth (c :: cs) = none := by
    simp [readTruth, Json.afterWord, hne.2.2.1.symm, hne.2.2.2.symm]
  simp [readScalar, hstring, htruth, readMoment, hm, hd]

theorem exists_digitsOfInt_eq (i : Int) :
    ∃ c cs, Decimal.digitsOfInt i = c :: cs ∧ opensWhole c = true := by
  unfold Decimal.digitsOfInt
  split
  · exact ⟨'-', _, rfl, by decide⟩
  · obtain ⟨d, ds, heq, hd, -⟩ := exists_digitsOfNat_eq i.natAbs
    exact ⟨d, ds, heq, by simp [opensWhole, hd]⟩

theorem readScalar_digitsOfInt {i : Int} (h : fitsWord i = true) (rest : List Char) :
    readScalar (Decimal.digitsOfInt i ++ '\n' :: rest) = some (.int i, '\n' :: rest) := by
  unfold Decimal.digitsOfInt
  split
  · rename_i hneg
    have hs : sign ('-' :: (Decimal.digitsOfNat i.natAbs ++ '\n' :: rest)) =
        (true, Decimal.digitsOfNat i.natAbs ++ '\n' :: rest) := rfl
    have hvalue : -(i.natAbs : Int) = i := by omega
    rw [List.cons_append, readScalar_of_opensWhole (by decide) (text_minus_eq_none _)
      (readDouble_eq_none hs), readWhole_line hs (by simp)]
    simp only [if_true, hvalue, wordValue, h]
  · rename_i hneg
    obtain ⟨d, ds, heq, hd, hzero⟩ := exists_digitsOfNat_eq i.natAbs
    have hline : IsDigitLine (Decimal.digitsOfNat i.natAbs ++ '\n' :: rest) rest :=
      ⟨_, fun _ => isAsciiDigit_of_mem_digitsOfNat, rfl⟩
    have hs : sign (Decimal.digitsOfNat i.natAbs ++ '\n' :: rest) =
        (false, Decimal.digitsOfNat i.natAbs ++ '\n' :: rest) := by
      rw [heq]
      exact sign_of_isAsciiDigit hd
    have hm := hline.text_eq_none
    have hdouble := readDouble_eq_none hs
    have hwhole := readWhole_line hs fun cs' => by
      rw [heq]
      refine ⟨?_, ?_, ?_⟩ <;>
        (intro hbase
         obtain ⟨hd, htail⟩ := List.cons.inj hbase
         rw [hzero hd] at htail
         exact absurd (List.cons.inj htail).1 (by decide))
    have hvalue : (i.natAbs : Int) = i := by omega
    rw [heq, List.cons_append] at hm hdouble hwhole ⊢
    rw [readScalar_of_opensWhole (by simp [opensWhole, hd]) hm hdouble, hwhole]
    simp only [Bool.false_eq_true, if_false, if_true, hvalue, wordValue, h]

/-! ## Values and entries -/

theorem readValue_of_ne (depth : Nat) {cs : List Char} (h : c ≠ '[' ∧ c ≠ '\x7b') :
    readValue depth (c :: cs) = readScalar (c :: cs) := by
  unfold readValue
  simp [h.1, h.2]

theorem readValue_written {j : Json} {v : List Char} (h : writtenValue j = some v)
    (rest : List Char) : readValue maxDepth (v ++ '\n' :: rest) = some (j, '\n' :: rest) := by
  unfold writtenValue at h
  split at h
  · rename_i s
    obtain rfl := Option.some.inj h
    have hstring : readString (writtenString s ++ '\n' :: rest) = some (s, '\n' :: rest) :=
      readString_writtenString s (by simp)
    obtain ⟨text, htext⟩ := (StringForm.best s.toList).exists_written_eq s.toList
    have hquote : (StringForm.best s.toList).quote ≠ '[' ∧
        (StringForm.best s.toList).quote ≠ '\x7b' := by
      unfold StringForm.quote
      split <;> decide
    rw [writtenString, htext, List.cons_append] at hstring ⊢
    rw [readValue_of_ne maxDepth hquote, readScalar, hstring]
    rfl
  · rename_i i
    split at h
    · rename_i hfits
      obtain rfl := Option.some.inj h
      have hscalar := readScalar_digitsOfInt hfits rest
      obtain ⟨c, cs, heq, hc⟩ := exists_digitsOfInt_eq i
      have hne : c ≠ '[' ∧ c ≠ '\x7b' :=
        ⟨ne_of_class hc (by decide), ne_of_class hc (by decide)⟩
      rw [heq, List.cons_append] at hscalar ⊢
      rw [readValue_of_ne maxDepth hne, hscalar]
    · simp at h
  · obtain rfl := Option.some.inj h
    rfl
  · simp at h

/-- No value begins with a blank. -/
theorem exists_writtenValue_eq {j : Json} {v : List Char} (h : writtenValue j = some v) :
    ∃ c cs, v = c :: cs ∧ StringForm.isSpace c = false := by
  unfold writtenValue at h
  split at h
  · rename_i s
    obtain ⟨text, htext⟩ := (StringForm.best s.toList).exists_written_eq s.toList
    refine ⟨_, text, (Option.some.inj h).symm.trans htext, ?_⟩
    exact not_isSpace_of_opensKey (opensKey_quote _)
  · rename_i i
    split at h
    · obtain ⟨c, cs, heq, hc⟩ := exists_digitsOfInt_eq i
      have hblank : c ≠ ' ' := ne_of_class hc (by decide)
      have htab : c ≠ '\t' := ne_of_class hc (by decide)
      exact ⟨c, cs, (Option.some.inj h).symm.trans heq, by simp [StringForm.isSpace, hblank, htab]⟩
    · simp at h
  · exact ⟨_, _, (Option.some.inj h).symm, by decide⟩
  · simp at h

theorem skipSpace_writtenValue {j : Json} {v : List Char} (h : writtenValue j = some v)
    (rest : List Char) : skipSpace (v ++ rest) = v ++ rest := by
  obtain ⟨c, cs, rfl, hc⟩ := exists_writtenValue_eq h
  exact skipSpace_of_not_isSpace hc

theorem endsPath_equals (rest : List Char) : EndsPath (' ' :: '=' :: rest) where
  key := fun c hc => by
    cases hc
    decide
  point := by simp [skipSpace, StringForm.isSpace]

theorem readEntry_written {path : Path} {j : Json} {v : List Char}
    (hp : path.parents.length < maxPath) (h : writtenValue j = some v) (rest : List Char) :
    readEntry (readValue maxDepth) (path.written ++ ' ' :: '=' :: ' ' :: (v ++ '\n' :: rest)) =
      some ((path, j), '\n' :: rest) := by
  have hpath := readPath_written hp (endsPath_equals (' ' :: (v ++ '\n' :: rest)))
  have hequals : skipSpace (' ' :: '=' :: ' ' :: (v ++ '\n' :: rest)) =
      '=' :: ' ' :: (v ++ '\n' :: rest) := rfl
  have hvalue : skipSpace (' ' :: (v ++ '\n' :: rest)) = v ++ '\n' :: rest :=
    skipSpace_writtenValue h _
  have hend : skipSpace ('\n' :: rest) = '\n' :: rest := rfl
  unfold readEntry
  simp [hpath, hequals, Json.afterWord, hvalue, readValue_written h, hend]

end TemplateBar.Toml
