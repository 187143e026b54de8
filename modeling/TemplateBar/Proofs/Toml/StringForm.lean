import Mathlib.Data.List.Basic
import TemplateBar.Toml.StringForm

/-!
# Written strings are read back

A text spells characters in a form if it leaves enough of its quotes escaped that only the closing
ones close it. The texts that are written do so, and what is spelled between quotes is read back.
-/
namespace TemplateBar.Toml

/-- What is in a class of characters differs from what is not. -/
theorem ne_of_class {p : Char → Bool} {c d : Char} (h : p c = true) (hd : p d = false) : c ≠ d := by
  rintro rfl
  exact absurd (h.symm.trans hd) (by decide)

namespace StringForm

variable {f : StringForm} {cs text rest : List Char} {run fuel : Nat}

/-- How many quotes in a row need no escape. -/
def maxRun (f : StringForm) : Nat := if f.isBlock then 2 else 0

/-- The text spells the characters, behind `run` quotes in a row. -/
inductive Spelled (f : StringForm) : Nat → List Char → List Char → Prop
  | done {run : Nat} : Spelled f run [] []
  | quote {run : Nat} {cs text : List Char} (h : run < f.maxRun)
      (later : Spelled f (run + 1) cs text) : Spelled f run (f.quote :: cs) (f.quote :: text)
  | plain {run : Nat} {c : Char} {cs text : List Char} (hq : c ≠ f.quote)
      (hb : ¬(f.hasEscapes = true ∧ c = '\\')) (hc : isPlain c = true ∨ c = '\n' ∧ f.isBlock = true)
      (later : Spelled f 0 cs text) : Spelled f run (c :: cs) (c :: text)
  | escape {run : Nat} {c : Char} {cs e text : List Char} (hf : f.hasEscapes = true)
      (he : ∀ rest, escaped (e ++ rest) = some (c, rest))
      (hj : ∀ rest, afterJoint (e ++ rest) = none)
      (later : Spelled f 0 cs text) : Spelled f run (c :: cs) ('\\' :: (e ++ text))

/-! ## Reading -/

theorem quote_ne_backslash (f : StringForm) : f.quote ≠ '\\' := by
  unfold quote
  split <;> decide

theorem isPlain_quote (f : StringForm) : isPlain f.quote = true := by
  unfold quote
  split <;> decide

theorem close?_of_ne {c : Char} (h : c ≠ f.quote) : f.close? (c :: cs) = none := by
  unfold close?
  split <;> simp_all

/-- Less than three quotes do not close a block. -/
theorem close?_quote_of_ne {c : Char} (hf : f.isBlock = true) (h : c ≠ f.quote) :
    f.close? (f.quote :: c :: cs) = none := by
  unfold close?
  split <;> simp_all

theorem close?_quotes_of_ne {c : Char} (hf : f.isBlock = true) (h : c ≠ f.quote) :
    f.close? (f.quote :: f.quote :: c :: cs) = none := by
  unfold close?
  split <;> simp_all

theorem close?_delimiter (hr : rest.head? ≠ some f.quote) :
    f.close? (f.delimiter ++ rest) = some ([], rest) := by
  unfold delimiter close?
  cases hf : f.isBlock with
  | false => simp
  | true =>
    match rest, hr with
    | [], _ => simp [List.replicate]
    | [d], hr => simpa [List.replicate] using hr
    | d :: e :: rest, hr =>
      have hd : d ≠ f.quote := by simpa using hr
      simp [List.replicate, hd]

/-- Up to two quotes in front of the closing ones belong to the text. -/
theorem close?_quote_delimiter (hf : f.isBlock = true) (hr : rest.head? ≠ some f.quote) :
    f.close? (f.quote :: (f.delimiter ++ rest)) = some ([f.quote], rest) := by
  unfold delimiter close?
  match rest, hr with
  | [], _ => simp [hf, List.replicate]
  | e :: rest, hr =>
    have he : e ≠ f.quote := by simpa using hr
    simp [hf, List.replicate, he]

theorem close?_quotes_delimiter (hf : f.isBlock = true) :
    f.close? (f.quote :: f.quote :: (f.delimiter ++ rest)) = some ([f.quote, f.quote], rest) := by
  unfold delimiter close?
  simp [hf, List.replicate]

theorem body_of_close? {r : List Char × List Char} (h : f.close? cs = some r) :
    f.body (fuel + 1) cs = some r := by
  unfold body
  rw [h]

theorem body_plain {c : Char} (h : f.close? (c :: text) = none)
    (hb : ¬(f.hasEscapes = true ∧ c = '\\')) (hc : isPlain c = true ∨ c = '\n' ∧ f.isBlock = true)
    (later : f.body fuel text = some (cs, rest)) :
    f.body (fuel + 1) (c :: text) = some (c :: cs, rest) := by
  rw [body, h]
  dsimp only
  rw [if_neg hb]
  by_cases hp : isPlain c = true
  · rw [if_pos hp, later]
    rfl
  · obtain ⟨rfl, hf⟩ := hc.resolve_left hp
    rw [if_neg hp, if_pos hf]
    simp [afterLineEnd, later]

theorem body_escape {c : Char} {e : List Char} (hf : f.hasEscapes = true)
    (he : escaped (e ++ text) = some (c, text)) (hj : afterJoint (e ++ text) = none)
    (later : f.body fuel text = some (cs, rest)) :
    f.body (fuel + 1) ('\\' :: (e ++ text)) = some (c :: cs, rest) := by
  have hnone : (if f.isBlock = true then afterJoint (e ++ text) else none) = none := by simp [hj]
  rw [body, close?_of_ne f.quote_ne_backslash.symm]
  dsimp only
  rw [if_pos ⟨hf, rfl⟩, hnone]
  simp [he, later]

/-- What is spelled in front of the closing quotes is read, up to these. -/
theorem Spelled.body_eq (h : f.Spelled run cs text) (hr : rest.head? ≠ some f.quote)
    (hfuel : (text ++ (f.delimiter ++ rest)).length < fuel) :
    f.body fuel (text ++ (f.delimiter ++ rest)) = some (cs, rest) := by
  induction h generalizing fuel with
  | done =>
    obtain ⟨n, rfl⟩ := Nat.exists_eq_succ_of_ne_zero (Nat.ne_zero_of_lt hfuel)
    exact body_of_close? (close?_delimiter hr)
  | @quote run cs text h later ih =>
    have hf : f.isBlock = true := by
      by_contra hf
      simp [maxRun, hf] at h
    have htwo : f.maxRun = 2 := by simp [maxRun, hf]
    obtain ⟨n, rfl⟩ := Nat.exists_eq_succ_of_ne_zero (Nat.ne_zero_of_lt hfuel)
    have hn : f.body n (text ++ (f.delimiter ++ rest)) = some (cs, rest) :=
      ih (by simp at hfuel ⊢; omega)
    -- Only what follows tells whether the quote belongs to the closing ones.
    have inside (hnone : f.close? (f.quote :: (text ++ (f.delimiter ++ rest))) = none) :=
      body_plain hnone (fun hb => f.quote_ne_backslash hb.2) (Or.inl f.isPlain_quote) hn
    cases later with
    | done => exact body_of_close? (close?_quote_delimiter hf hr)
    | plain hq => exact inside (close?_quote_of_ne hf hq)
    | escape => exact inside (close?_quote_of_ne hf f.quote_ne_backslash.symm)
    | quote h' later =>
      cases later with
      | done => exact body_of_close? (close?_quotes_delimiter hf)
      | plain hq => exact inside (close?_quotes_of_ne hf hq)
      | escape => exact inside (close?_quotes_of_ne hf f.quote_ne_backslash.symm)
      | quote h'' => omega
  | plain hq hb hc later ih =>
    obtain ⟨n, rfl⟩ := Nat.exists_eq_succ_of_ne_zero (Nat.ne_zero_of_lt hfuel)
    exact body_plain (close?_of_ne hq) hb hc (ih (by simp at hfuel ⊢; omega))
  | @escape run c cs e text hf he hj later ih =>
    obtain ⟨n, rfl⟩ := Nat.exists_eq_succ_of_ne_zero (Nat.ne_zero_of_lt hfuel)
    rw [List.cons_append, List.append_assoc]
    exact body_escape hf (he _) (hj _) (ih (by simp at hfuel ⊢; omega))

/-! ## Escapes -/

theorem hexValue_upperHex : ∀ n < 16, Json.hexValue (upperHex n) = some n := by decide

theorem escaped_code {c : Char} (h : c.toNat < 256) (rest : List Char) :
    escaped ('u' :: '0' :: '0' :: upperHex (c.toNat / 16) :: upperHex (c.toNat % 16) :: rest) =
      some (c, rest) := by
  have hhigh := hexValue_upperHex (c.toNat / 16) (by omega)
  have hlow := hexValue_upperHex (c.toNat % 16) (by omega)
  have hzero : Json.hexValue '0' = some 0 := by decide
  have hvalue : c.toNat / 16 * 16 + c.toNat % 16 = c.toNat := by omega
  have hvalid : c.toNat.isValidChar := c.valid
  simp [escaped, codePoint, hhigh, hlow, hzero, hvalue, hvalid]

/-- The characters that are written as escapes. -/
def Escapes (c : Char) : Prop := c = '"' ∨ c = '\\' ∨ c = '\n' ∨ c = '\t' ∨ needsEscape c = true

theorem toNat_of_needsEscape {c : Char} (h : needsEscape c = true) : c.toNat < 256 := by
  simp [needsEscape, isPlain] at h
  omega

theorem exists_escapeOf {c : Char} (h : Escapes c) :
    ∃ e, escapeOf c = '\\' :: e ∧ (∀ rest, escaped (e ++ rest) = some (c, rest)) ∧
      ∀ rest, afterJoint (e ++ rest) = none := by
  unfold escapeOf
  split_ifs with hb ht hn hf hr hq hs
  case neg =>
    have hcode : needsEscape c = true := by simpa [Escapes, hq, hs, hn, ht] using h
    exact ⟨_, rfl, escaped_code (toNat_of_needsEscape hcode), fun _ => rfl⟩
  -- What is left are the escapes of one letter.
  all_goals
    subst c
    exact ⟨_, rfl, fun _ => rfl, fun _ => rfl⟩

theorem Spelled.escapeOf {c : Char} (hf : f.hasEscapes = true) (h : Escapes c)
    (later : f.Spelled 0 cs text) : f.Spelled run (c :: cs) (escapeOf c ++ text) := by
  obtain ⟨e, heq, he, hj⟩ := exists_escapeOf h
  rw [heq]
  exact .escape hf he hj later

theorem spelled_withEscapes (hf : f.hasEscapes = true) (cs : List Char) (run : Nat) :
    f.Spelled run cs (f.withEscapes run cs) := by
  have hquote : f.quote = '"' := by simp [quote, hf]
  induction cs generalizing run with
  | nil => exact .done
  | cons c cs ih =>
    unfold withEscapes
    split_ifs with hq hrun hesc
    · rw [hq, ← hquote]
      exact .quote (by simp [maxRun, hrun.1, hrun.2]) (ih _)
    · exact .escapeOf hf (Or.inl hq) (ih 0)
    · have h : Escapes c := by
        rcases hesc with h | h | h | ⟨h, -⟩ <;> simp [Escapes, h]
      exact .escapeOf hf h (ih 0)
    · simp only [not_or, not_and] at hesc
      obtain ⟨-, hs, hneeds, hn⟩ := hesc
      refine .plain (hquote ▸ hq) (fun hb => hs hb.2) ?_ (ih 0)
      by_cases hc : c = '\n'
      · exact Or.inr ⟨hc, by simpa using hn hc⟩
      · exact Or.inl (by simpa [needsEscape, hc] using hneeds)

/-! ## Forms that hold a text as it stands -/

/-- The length of the run that a character ends, and the longest run so far. -/
def counted (q : Char) (r : Nat × Nat) (c : Char) : Nat × Nat :=
  if c = q then (r.1 + 1, max r.2 (r.1 + 1)) else (0, r.2)

theorem longestRun_eq (q : Char) (cs : List Char) :
    longestRun q cs = (cs.foldl (counted q) (0, 0)).2 := rfl

theorem le_counted (q : Char) (cs : List Char) (r : Nat × Nat) :
    r.2 ≤ (cs.foldl (counted q) r).2 := by
  induction cs generalizing r with
  | nil => exact Nat.le_refl _
  | cons c cs ih =>
    refine Nat.le_trans ?_ (ih _)
    unfold counted
    split
    · exact Nat.le_max_left ..
    · exact Nat.le_refl _

theorem spelled_self (hf : f.hasEscapes = false) (hneeds : ∀ c ∈ cs, needsEscape c = false)
    (hline : f.isBlock = true ∨ '\n' ∉ cs) {most : Nat}
    (hruns : (cs.foldl (counted f.quote) (run, most)).2 ≤ f.maxRun) :
    f.Spelled run cs cs := by
  induction cs generalizing run most with
  | nil => exact .done
  | cons c cs ih =>
    have hneeds' : ∀ c ∈ cs, needsEscape c = false :=
      fun c hc => hneeds c (List.mem_cons_of_mem _ hc)
    have hline' : f.isBlock = true ∨ '\n' ∉ cs :=
      hline.imp_right fun h hc => h (List.mem_cons_of_mem _ hc)
    rw [List.foldl_cons, counted] at hruns
    split at hruns
    · rename_i hq
      have hrun : max most (run + 1) ≤ f.maxRun :=
        Nat.le_trans (le_counted f.quote cs (run + 1, max most (run + 1))) hruns
      rw [hq]
      exact .quote (by omega) (ih hneeds' hline' hruns)
    · rename_i hq
      refine .plain hq (fun hb => by simp [hf] at hb) ?_ (ih hneeds' hline' hruns)
      have hc := hneeds c List.mem_cons_self
      by_cases hn : c = '\n'
      · refine Or.inr ⟨hn, hline.resolve_right fun h => h ?_⟩
        rw [hn]
        exact List.mem_cons_self
      · exact Or.inl (by simpa [needsEscape, hn] using hc)

/-- What stands between the quotes and spells the text. -/
def inside (f : StringForm) (cs : List Char) : List Char :=
  if f.hasEscapes then f.withEscapes 0 cs else cs

/-- The form can hold the text, with escapes or without. -/
def Suits (f : StringForm) (cs : List Char) : Prop := f.hasEscapes = true ∨ f.holds cs = true

theorem Suits.spelled (h : f.Suits cs) : f.Spelled 0 cs (f.inside cs) := by
  unfold inside
  cases hf : f.hasEscapes with
  | true => exact spelled_withEscapes hf cs 0
  | false =>
    have hholds : f.holds cs = true := h.resolve_left (by simp [hf])
    simp only [holds, Bool.and_eq_true, Bool.or_eq_true, Bool.not_eq_true', decide_eq_true_eq]
      at hholds
    obtain ⟨⟨⟨hneeds, -⟩, hline⟩, hruns⟩ := hholds
    rw [longestRun_eq] at hruns
    exact spelled_self hf (by simpa using hneeds) (hline.imp_right fun h => by simpa using h) hruns

theorem suits_best (cs : List Char) : (best cs).Suits cs := by
  unfold best
  split
  · rename_i f hf
    exact Or.inr (List.find?_some (p := fun g : StringForm => g.holds cs) hf)
  · refine Or.inl ?_
    split <;> rfl

/-! ## Whole strings -/

theorem afterLineEnd_eq_none (h : ∀ c, text.head? = some c → c ≠ '\n' ∧ c ≠ '\r') :
    afterLineEnd text = none := by
  unfold afterLineEnd
  split
  · simp at h
  · simp at h
  · rfl

theorem quote_ne_lineEnd (f : StringForm) : f.quote ≠ '\n' ∧ f.quote ≠ '\r' := by
  unfold quote
  split <;> decide

theorem ne_lineEnd_of_isPlain {c : Char} (h : isPlain c = true) : c ≠ '\n' ∧ c ≠ '\r' := by
  exact ⟨ne_of_class h (by decide), ne_of_class h (by decide)⟩

/-- What spells a text of one line does not begin with a line end. -/
theorem Spelled.head_ne (h : f.Spelled run cs text) (hn : '\n' ∉ cs) {c : Char}
    (hc : text.head? = some c) : c ≠ '\n' ∧ c ≠ '\r' := by
  cases h with
  | done => simp at hc
  | quote =>
    cases hc
    exact f.quote_ne_lineEnd
  | plain _ _ hplain =>
    cases hc
    exact ne_lineEnd_of_isPlain (hplain.resolve_right fun h => hn (h.1 ▸ List.mem_cons_self))
  | escape =>
    cases hc
    decide

theorem head?_delimiter_append (f : StringForm) (rest : List Char) :
    (f.delimiter ++ rest).head? = some f.quote := by
  unfold delimiter
  split <;> rfl

/-- What stands between the opening quotes and the first character of the text. -/
def opening (f : StringForm) (cs : List Char) : List Char :=
  if f.isBlock ∧ cs.contains '\n' then ['\n'] else []

theorem skip_opening (h : f.Spelled 0 cs text) (rest : List Char) :
    (if f.isBlock then
        (afterLineEnd (f.opening cs ++ (text ++ (f.delimiter ++ rest)))).getD
          (f.opening cs ++ (text ++ (f.delimiter ++ rest)))
      else f.opening cs ++ (text ++ (f.delimiter ++ rest))) = text ++ (f.delimiter ++ rest) := by
  unfold opening
  cases hf : f.isBlock with
  | false => simp
  | true =>
    by_cases hn : '\n' ∈ cs
    · simp [hn, afterLineEnd]
    · have hnone : afterLineEnd (text ++ (f.delimiter ++ rest)) = none := by
        refine afterLineEnd_eq_none fun c hc => ?_
        cases text with
        | nil =>
          rw [List.nil_append, head?_delimiter_append] at hc
          cases hc
          exact f.quote_ne_lineEnd
        | cons d text => exact h.head_ne hn hc
      simp [hn, hnone]

theorem read_inside (h : f.Suits cs) (hr : rest.head? ≠ some f.quote) :
    f.read (f.opening cs ++ (f.inside cs ++ (f.delimiter ++ rest))) =
      some (String.ofList cs, rest) := by
  unfold read
  simp only [skip_opening h.spelled, h.spelled.body_eq hr (Nat.lt_succ_self _), Option.map_some]

theorem written_eq (f : StringForm) (cs rest : List Char) :
    f.written cs ++ rest =
      f.delimiter ++ (f.opening cs ++ (f.inside cs ++ (f.delimiter ++ rest))) := by
  simp [written, opening, inside, List.append_assoc]

/-- What is written begins with a quote. -/
theorem exists_written_eq (f : StringForm) (cs : List Char) :
    ∃ text, f.written cs = f.quote :: text := by
  have h := head?_delimiter_append f (f.opening cs ++ (f.inside cs ++ (f.delimiter ++ [])))
  rw [← written_eq, List.append_nil] at h
  exact List.head?_eq_some_iff.mp h

/-- On one line no quote stands behind the opening one but the closing one. -/
theorem Spelled.head_ne_quote (h : f.Spelled run cs text) (hf : f.isBlock = false) :
    text.head? ≠ some f.quote := by
  cases h with
  | done => simp
  | quote hrun => simp [maxRun, hf] at hrun
  | plain hq => simpa using hq
  | escape => simpa using f.quote_ne_backslash.symm

end StringForm

open StringForm

variable {f : StringForm} {cs rest : List Char}

theorem readLineString_written (hf : f.isBlock = false) (h : f.Suits cs)
    (hr : rest.head? ≠ some f.quote) :
    readLineString (f.written cs ++ rest) = some (String.ofList cs, rest) := by
  have hread := read_inside h hr
  rw [written_eq]
  obtain ⟨hasEscapes, isBlock⟩ := f
  obtain rfl : isBlock = false := hf
  cases hasEscapes <;> exact hread

/-- Where no three quotes begin the text no block does. -/
theorem readString_eq_readLineString (h : ∀ q r, cs ≠ q :: q :: q :: r) :
    readString cs = readLineString cs := by
  unfold readString
  split
  · exact absurd rfl (h _ _)
  · rfl
  · exact absurd rfl (h _ _)
  · rfl
  · rename_i hbasic _ hliteral
    unfold readLineString
    split
    · exact absurd rfl (hbasic _)
    · exact absurd rfl (hliteral _)
    · rfl

/-- Not even the two quotes around nothing begin a block. -/
theorem written_ne_quotes (hf : f.isBlock = false) (h : f.Suits cs)
    (hr : rest.head? ≠ some f.quote) (q : Char) (r : List Char) :
    f.written cs ++ rest ≠ q :: q :: q :: r := by
  have hline : f.written cs ++ rest = f.quote :: (f.inside cs ++ f.quote :: rest) := by
    simp [written_eq, delimiter, opening, hf]
  have hhead := h.spelled.head_ne_quote hf
  rw [hline]
  intro heq
  obtain ⟨rfl, heq⟩ := List.cons.inj heq
  cases hinside : f.inside cs with
  | nil =>
    rw [hinside] at heq
    obtain ⟨-, rfl⟩ := List.cons.inj heq
    exact hr rfl
  | cons d text =>
    rw [hinside] at heq hhead
    exact hhead (congrArg some (List.cons.inj heq).1)

theorem readString_written (h : f.Suits cs) (hr : rest.head? ≠ some f.quote) :
    readString (f.written cs ++ rest) = some (String.ofList cs, rest) := by
  cases hf : f.isBlock with
  | false =>
    rw [readString_eq_readLineString (written_ne_quotes hf h hr)]
    exact readLineString_written hf h hr
  | true =>
    have hread := read_inside h hr
    rw [written_eq]
    obtain ⟨hasEscapes, isBlock⟩ := f
    obtain rfl : isBlock = true := hf
    cases hasEscapes <;> exact hread

theorem readString_writtenString (s : String)
    (hr : rest.head? ≠ some '"' ∧ rest.head? ≠ some '\'') :
    readString (writtenString s ++ rest) = some (s, rest) := by
  have hquote : rest.head? ≠ some (best s.toList).quote := by
    unfold quote
    split
    · exact hr.1
    · exact hr.2
  rw [writtenString, readString_written (suits_best _) hquote, String.ofList_toList]

end TemplateBar.Toml
