import Mathlib.Data.List.Basic
import TemplateBar.Proofs.Template.Member

/-!
# Spellings of lexemes

What a lexeme of each kind may look like in a source, said without the scanner. The scanner takes
the longest spelling at the front of what it is given. So the text of a lexeme is read as the same
lexeme again wherever it stands, as long as a blank or the end of the source comes before anything
that could make it longer.
-/
namespace TemplateBar.Template

open Text (isAsciiDigit isBlank)

/-- At least one decimal digit. -/
structure Digits where
  chars : List Char
  ne_nil : chars ≠ []
  digits : ∀ c ∈ chars, isAsciiDigit c = true

inductive ExponentSign where
  | absent | plus | minus

def ExponentSign.text : ExponentSign → List Char
  | absent => []
  | plus => ['+']
  | minus => ['-']

def ExponentSign.apply : ExponentSign → Nat → Int
  | minus, n => -n
  | _, n => n

structure ExponentLiteral where
  capital : Bool
  sign : ExponentSign
  power : Digits

/-- A number as it is written. -/
structure NumberLiteral where
  whole : Digits
  fraction : Option Digits
  exponent : Option ExponentLiteral

def Digits.fractionText : Option Digits → List Char
  | none => []
  | some d => '.' :: d.chars

def ExponentLiteral.text (e : ExponentLiteral) : List Char :=
  (if e.capital then 'E' else 'e') :: (e.sign.text ++ e.power.chars)

def ExponentLiteral.optionText (e : Option ExponentLiteral) : List Char := (e.map text).getD []

namespace NumberLiteral

def text (n : NumberLiteral) : List Char :=
  n.whole.chars ++ (Digits.fractionText n.fraction ++ ExponentLiteral.optionText n.exponent)

/-- All digits as one whole number, with the power of ten that puts the point where it is. -/
def decimal (n : NumberLiteral) : Decimal :=
  let places := (n.fraction.map Digits.chars).getD []
  let power := n.exponent.map fun e => e.sign.apply (Decimal.natOfDigits e.power.chars)
  ⟨Decimal.natOfDigits (n.whole.chars ++ places), power.getD 0 - places.length⟩

def value (n : NumberLiteral) : Float := n.decimal.toFloat

end NumberLiteral

/-- What a string stands for and how it is written between its quotes. -/
inductive IsQuoted (quote : Char) : List Char → List Char → Prop
  | nil : IsQuoted quote [] []
  | plain {c : Char} {value text : List Char} (hquote : c ≠ quote) (hescape : c ≠ '\\')
      (later : IsQuoted quote value text) : IsQuoted quote (c :: value) (c :: text)
  | escaped {c e : Char} {value text : List Char} (he : unescape e = some c)
      (later : IsQuoted quote value text) : IsQuoted quote (c :: value) ('\\' :: e :: text)

/-- What a lexeme of a kind may look like. -/
inductive LexemeKind.IsSpelling : LexemeKind → List Char → Prop
  | number (n : NumberLiteral) : IsSpelling (.number n.value) n.text
  | string {quote : Char} {value text : List Char} (hquote : quote = '\'' ∨ quote = '"')
      (h : IsQuoted quote value text) :
      IsSpelling (.string (String.ofList value)) (quote :: (text ++ [quote]))
  | name {name : String} (h : IsIdentifier name.toList)
      (hkey : Symbol.withSpelling Symbol.keywords name.toList = none) :
      IsSpelling (.name name) name.toList
  | symbol (s : Symbol) : IsSpelling (.symbol s) s.spelling

open LexemeKind (IsSpelling)

/-- No longer spelling begins with this text in front of this rest. -/
def Longest (text rest : List Char) : Prop :=
  ∀ more, more ≠ [] → more <+: rest → ∀ k : LexemeKind, ¬k.IsSpelling (text ++ more)

theorem longest_nil (text : List Char) : Longest text [] := by
  intro more hne hpre
  exact absurd (List.prefix_nil.mp hpre) hne

/-- A string between quotes with nothing escaped but the backslash and the quote. -/
def quoted (quote : Char) (value : List Char) : List Char :=
  quote :: ((value.flatMap fun c => if c = quote ∨ c = '\\' then ['\\', c] else [c]) ++ [quote])

theorem isQuoted_escape {quote : Char} (hquote : quote = '\'' ∨ quote = '"') (value : List Char) :
    IsQuoted quote value
      (value.flatMap fun c => if c = quote ∨ c = '\\' then ['\\', c] else [c]) := by
  induction value with
  | nil => exact .nil
  | cons c value ih =>
    rw [List.flatMap_cons]
    by_cases hc : c = quote ∨ c = '\\'
    · have he : unescape c = some c := by
        rcases hc with rfl | rfl
        · rcases hquote with rfl | rfl <;> rfl
        · rfl
      rw [if_pos hc]
      exact .escaped he ih
    · rw [if_neg hc]
      exact .plain (fun h => hc (Or.inl h)) (fun h => hc (Or.inr h)) ih

theorem isSpelling_quoted {quote : Char} (hquote : quote = '\'' ∨ quote = '"') (s : String) :
    (LexemeKind.string s).IsSpelling (quoted quote s.toList) := by
  have h := IsSpelling.string hquote (isQuoted_escape hquote s.toList)
  rwa [String.ofList_toList] at h

theorem isSpelling_wordKind {word : List Char} (h : IsIdentifier word) :
    (wordKind word).IsSpelling word := by
  unfold wordKind
  cases hs : Symbol.withSpelling Symbol.keywords word with
  | some s =>
    rw [← Symbol.spelling_of_withSpelling hs]
    exact .symbol s
  | none =>
    have hword : (String.ofList word).toList = word := String.toList_ofList
    have hn : (LexemeKind.name (String.ofList word)).IsSpelling (String.ofList word).toList :=
      .name (hword.symm ▸ h) (hword.symm ▸ hs)
    rwa [hword] at hn

/-! ### Numbers -/

theorem not_sign_of_isAsciiDigit {c : Char} (h : isAsciiDigit c = true) :
    c ≠ '+' ∧ c ≠ '-' ∧ c ≠ '.' ∧ c ≠ 'e' ∧ c ≠ 'E' := by
  refine ⟨?_, ?_, ?_, ?_, ?_⟩ <;> rintro rfl <;> exact absurd h (by decide)

namespace Digits

variable {p : Char → Bool} {rest : List Char}

theorem exists_cons (d : Digits) : ∃ c cs, d.chars = c :: cs ∧ isAsciiDigit c = true := by
  obtain ⟨chars, hne, hd⟩ := d
  cases chars with
  | nil => exact absurd rfl hne
  | cons c cs => exact ⟨c, cs, rfl, hd c List.mem_cons_self⟩

theorem takeWhile_append (d : Digits) (h : ∀ c ∈ rest.head?, isAsciiDigit c = false) :
    (d.chars ++ rest).takeWhile isAsciiDigit = d.chars :=
  takeWhile_append_of_stop d.digits h

theorem dropWhile_append (d : Digits) (h : ∀ c ∈ rest.head?, isAsciiDigit c = false) :
    (d.chars ++ rest).dropWhile isAsciiDigit = rest :=
  dropWhile_append_of_stop d.digits h

/-- The digits at the front of a text, where there are some. -/
def front (cs : List Char) (h : cs.takeWhile isAsciiDigit ≠ []) : Digits :=
  ⟨cs.takeWhile isAsciiDigit, h, fun _ hc => List.mem_takeWhile_imp hc⟩

def push (d : Digits) (c : Char) (h : isAsciiDigit c = true) : Digits where
  chars := d.chars ++ [c]
  ne_nil := by simp
  digits := by
    intro e he
    rcases List.mem_append.mp he with he | he
    · exact d.digits e he
    · rwa [List.mem_singleton.mp he]

end Digits

section

variable {rest : List Char}

theorem splitSign_text (s : ExponentSign) (d : Digits) (rest : List Char) :
    splitSign (s.text ++ (d.chars ++ rest)) = (s.text, d.chars ++ rest) := by
  obtain ⟨c, cs, hd, hc⟩ := d.exists_cons
  obtain ⟨hplus, hminus, -⟩ := not_sign_of_isAsciiDigit hc
  cases s with
  | absent => simp [ExponentSign.text, hd, splitSign, hplus, hminus]
  | plus => rfl
  | minus => rfl

theorem splitFraction_text {f : Option Digits} (hdigit : ∀ c ∈ rest.head?, isAsciiDigit c = false)
    (hnone : f = none → splitFraction rest = ([], rest)) :
    splitFraction (Digits.fractionText f ++ rest) = (Digits.fractionText f, rest) := by
  cases f with
  | none => exact hnone rfl
  | some d =>
    obtain ⟨c, cs, hd, -⟩ := d.exists_cons
    have htake := d.takeWhile_append hdigit
    have hdrop := d.dropWhile_append hdigit
    simp only [Digits.fractionText, List.cons_append, splitFraction]
    rw [htake, hdrop, hd]

theorem splitExponent_text {e : Option ExponentLiteral}
    (hdigit : ∀ c ∈ rest.head?, isAsciiDigit c = false)
    (hnone : e = none → splitExponent rest = ([], rest)) :
    splitExponent (ExponentLiteral.optionText e ++ rest) =
      (ExponentLiteral.optionText e, rest) := by
  cases e with
  | none => exact hnone rfl
  | some e =>
    obtain ⟨c, cs, hd, -⟩ := e.power.exists_cons
    have hsign := splitSign_text e.sign e.power rest
    have htake := e.power.takeWhile_append hdigit
    have hdrop := e.power.dropWhile_append hdigit
    have hmark : ∀ capital : Bool, (if capital then 'E' else 'e') = 'e' ∨
        (if capital then 'E' else 'e') = 'E' := by decide
    simp only [ExponentLiteral.optionText, Option.map_some, Option.getD_some, ExponentLiteral.text,
      List.cons_append, List.append_assoc, splitExponent]
    rw [if_pos (hmark e.capital), hsign]
    dsimp only
    rw [htake, hdrop, hd]

/-- What is in front of a sign or a digit in an exponent stands for its power. -/
theorem exponentValue_text (e : Option ExponentLiteral) :
    exponentValue (ExponentLiteral.optionText e) =
      (e.map fun e => e.sign.apply (Decimal.natOfDigits e.power.chars)).getD 0 := by
  cases e with
  | none => rfl
  | some e =>
    have hsign := splitSign_text e.sign e.power []
    rw [List.append_nil] at hsign
    simp only [exponentValue, ExponentLiteral.optionText, Option.map_some, Option.getD_some,
      ExponentLiteral.text, List.drop_succ_cons, List.drop_zero, hsign]
    cases e.sign <;> rfl

theorem numberValue_text (n : NumberLiteral) :
    numberValue n.whole.chars (Digits.fractionText n.fraction)
      (ExponentLiteral.optionText n.exponent) = n.value := by
  have hdigits : (Digits.fractionText n.fraction).drop 1 =
      (n.fraction.map Digits.chars).getD [] := by
    cases n.fraction <;> rfl
  rw [numberValue, hdigits, exponentValue_text]
  rfl

theorem head_optionText {e : Option ExponentLiteral}
    (hdigit : ∀ c ∈ rest.head?, isAsciiDigit c = false) :
    ∀ c ∈ (ExponentLiteral.optionText e ++ rest).head?, isAsciiDigit c = false := by
  cases e with
  | none => exact hdigit
  | some e =>
    rintro c ⟨rfl⟩
    cases e.capital <;> decide

theorem head_fractionText {f : Option Digits}
    (hdigit : ∀ c ∈ rest.head?, isAsciiDigit c = false) :
    ∀ c ∈ (Digits.fractionText f ++ rest).head?, isAsciiDigit c = false := by
  cases f with
  | none => exact hdigit
  | some d =>
    rintro c ⟨rfl⟩
    decide

theorem splitFraction_of_mark (e : ExponentLiteral) (cs : List Char) :
    splitFraction (e.text ++ cs) = ([], e.text ++ cs) := by
  have hmark : ∀ capital : Bool, (if capital then 'E' else 'e') ≠ '.' := by decide
  simp [ExponentLiteral.text, splitFraction, hmark]

/-- A number is scanned as it is written if nothing that could be part of it comes next. -/
theorem scanNumber_text (n : NumberLiteral) (hdigit : ∀ c ∈ rest.head?, isAsciiDigit c = false)
    (hfraction : n.fraction = none → n.exponent = none → splitFraction rest = ([], rest))
    (hexponent : n.exponent = none → splitExponent rest = ([], rest)) :
    scanNumber (n.text ++ rest) = ⟨.number n.value, n.text, rest⟩ := by
  have htail := head_optionText (e := n.exponent) hdigit
  have hrest := head_fractionText (f := n.fraction) htail
  have hsplit : splitFraction (Digits.fractionText n.fraction ++
      (ExponentLiteral.optionText n.exponent ++ rest)) =
        (Digits.fractionText n.fraction, ExponentLiteral.optionText n.exponent ++ rest) := by
    refine splitFraction_text htail fun hf => ?_
    cases he : n.exponent with
    | none => exact hfraction hf he
    | some e => exact splitFraction_of_mark e rest
  simp only [scanNumber, NumberLiteral.text, List.append_assoc]
  rw [n.whole.takeWhile_append hrest, n.whole.dropWhile_append hrest, hsplit,
    splitExponent_text hdigit hexponent, numberValue_text]

/-- What is cut off as a fraction is one. -/
theorem exists_fractionText (cs : List Char) :
    ∃ f : Option Digits, (splitFraction cs).1 = Digits.fractionText f := by
  unfold splitFraction
  split
  · next cs =>
    split
    · exact ⟨none, rfl⟩
    · next d ds hds =>
      have hne : cs.takeWhile isAsciiDigit ≠ [] := by simp [hds]
      exact ⟨some (.front cs hne), by simp [Digits.fractionText, Digits.front, hds]⟩
  · exact ⟨none, rfl⟩

theorem exists_signText (cs : List Char) :
    ∃ s : ExponentSign, (splitSign cs).1 = s.text := by
  unfold splitSign
  split
  · exact ⟨.plus, rfl⟩
  · exact ⟨.minus, rfl⟩
  · exact ⟨.absent, rfl⟩

/-- What is cut off as an exponent is one. -/
theorem exists_exponentText (cs : List Char) :
    ∃ e : Option ExponentLiteral, (splitExponent cs).1 = ExponentLiteral.optionText e := by
  unfold splitExponent
  split
  · next mark cs =>
    split
    · next hmark =>
      obtain ⟨sign, hsign⟩ := exists_signText cs
      split
      · exact ⟨none, rfl⟩
      · next d ds hds =>
        have hne : (splitSign cs).2.takeWhile isAsciiDigit ≠ [] := by simp [hds]
        have hcapital : (if mark = 'E' then 'E' else 'e') = mark := by
          rcases hmark with rfl | rfl <;> rfl
        refine ⟨some ⟨mark = 'E', sign, .front _ hne⟩, ?_⟩
        simp [ExponentLiteral.optionText, ExponentLiteral.text, Digits.front, hds, hsign, hcapital]
    · exact ⟨none, rfl⟩
  · exact ⟨none, rfl⟩

theorem isSpelling_scanNumber {c : Char} (cs : List Char) (hc : isAsciiDigit c = true) :
    (scanNumber (c :: cs)).kind.IsSpelling (scanNumber (c :: cs)).text := by
  have hne : (c :: cs).takeWhile isAsciiDigit ≠ [] := by simp [hc]
  obtain ⟨f, hf⟩ := exists_fractionText ((c :: cs).dropWhile isAsciiDigit)
  obtain ⟨e, he⟩ := exists_exponentText (splitFraction ((c :: cs).dropWhile isAsciiDigit)).2
  have hn := IsSpelling.number ⟨.front (c :: cs) hne, f, e⟩
  rw [← numberValue_text] at hn
  simp only [scanNumber, hf, he]
  exact hn

end

/-! ### Strings -/

theorem scanQuoted_isQuoted {quote : Char} (hquote : quote = '\'' ∨ quote = '"')
    {value text : List Char} (h : IsQuoted quote value text) (start offset : Nat)
    (rest : List Char) :
    scanQuoted quote start offset (text ++ quote :: rest) = .ok (value, text ++ [quote], rest) := by
  have hne : '\\' ≠ quote := by rcases hquote with rfl | rfl <;> decide
  induction h generalizing offset with
  | nil =>
    rw [List.nil_append, scanQuoted.eq_def]
    simp
  | plain hplain hescape later ih =>
    rw [List.cons_append, scanQuoted.eq_def]
    simp only [if_neg hplain, if_neg hescape, ih]
    rfl
  | escaped he later ih =>
    rw [List.cons_append, List.cons_append, scanQuoted.eq_def]
    simp only [if_neg hne, if_true, he, ih]
    rfl

theorem isQuoted_scanQuoted {quote : Char} {start offset : Nat} {cs value text rest : List Char}
    (h : scanQuoted quote start offset cs = .ok (value, text, rest)) :
    ∃ inner, text = inner ++ [quote] ∧ IsQuoted quote value inner := by
  fun_induction scanQuoted quote start offset cs generalizing value text rest with
  | case1 => simp at h
  | case2 =>
    simp only [Except.ok.injEq, Prod.mk.injEq] at h
    obtain ⟨rfl, rfl, rfl⟩ := h
    exact ⟨[], rfl, .nil⟩
  | case3 => simp at h
  | case4 => simp at h
  | case5 => simp at h
  | case6 _ _ _ _ hunescape _ _ _ hrest _ ih =>
    simp only [Except.ok.injEq, Prod.mk.injEq] at h
    obtain ⟨rfl, rfl, rfl⟩ := h
    obtain ⟨inner, rfl, hinner⟩ := ih hrest
    exact ⟨_, rfl, .escaped hunescape hinner⟩
  | case7 => simp at h
  | case8 _ _ _ hplain hescape _ _ _ hrest ih =>
    simp only [Except.ok.injEq, Prod.mk.injEq] at h
    obtain ⟨rfl, rfl, rfl⟩ := h
    obtain ⟨inner, rfl, hinner⟩ := ih hrest
    exact ⟨_, rfl, .plain hplain hescape hinner⟩

/-! ### Words and operators -/

theorem mem_keywords_or (s : Symbol) :
    s ∈ Symbol.keywords ∨ s ∈ Symbol.pairs ∨ s ∈ Symbol.singles := by
  cases s <;> decide

theorem isIdentifier_of_mem_keywords {s : Symbol} (h : s ∈ Symbol.keywords) :
    IsIdentifier s.spelling := by
  have hchars : ∀ s ∈ Symbol.keywords, s.spelling.all isNameChar = true := by decide
  have hhead : ∀ s ∈ Symbol.keywords, s.spelling.head?.any isNameStart = true := by decide
  refine ⟨?_, List.all_eq_true.mp (hchars s h)⟩
  obtain ⟨c, hc, hstart⟩ := (Option.any_eq_true _ _).mp (hhead s h)
  obtain ⟨cs, hcs⟩ := List.head?_eq_some_iff.mp hc
  exact ⟨c, cs, hcs, hstart⟩

theorem wordKind_of_mem_keywords {s : Symbol} (h : s ∈ Symbol.keywords) :
    wordKind s.spelling = .symbol s := by
  have hfound : ∀ s ∈ Symbol.keywords,
      Symbol.withSpelling Symbol.keywords s.spelling = some s := by decide
  rw [wordKind, hfound s h]

/-- The first character of an operator or bracket begins nothing else. -/
theorem scan_eq_scanSymbol {s : Symbol} (h : s ∈ Symbol.pairs ∨ s ∈ Symbol.singles) {c : Char}
    {cs rest : List Char} (hcs : c :: cs = s.spelling ++ rest) (offset : Nat) :
    scan offset c cs = scanSymbol offset c cs := by
  have hne : s.spelling ≠ [] := by cases s <;> decide
  have hhead : ∀ s ∈ Symbol.pairs ++ Symbol.singles, s.spelling.head?.all fun c =>
      !isAsciiDigit c && !(c == '\'' || c == '"') && !isNameStart c := by decide
  obtain ⟨d, ds, hd⟩ := List.exists_cons_of_ne_nil hne
  have hc := hhead s (List.mem_append.mpr h)
  rw [hd] at hcs hc
  cases hcs
  simp only [List.head?_cons, Option.all_some, Bool.and_eq_true, Bool.not_eq_true',
    Bool.or_eq_false_iff, beq_eq_false_iff_ne] at hc
  obtain ⟨⟨hdigit, hquote⟩, hstart⟩ := hc
  simp [scan, hdigit, hquote, hstart]

theorem scanSymbol_of_mem_pairs {s : Symbol} (h : s ∈ Symbol.pairs) {c : Char}
    {cs rest : List Char} (hcs : c :: cs = s.spelling ++ rest) (offset : Nat) :
    scanSymbol offset c cs = .ok ⟨.symbol s, s.spelling, rest⟩ := by
  have hlength : ∀ s ∈ Symbol.pairs, s.spelling.length = 2 := by decide
  have hfound : ∀ s ∈ Symbol.pairs, Symbol.withSpelling Symbol.pairs s.spelling = some s := by
    decide
  obtain ⟨a, b, hab⟩ := List.length_eq_two.mp (hlength s h)
  have hs := hfound s h
  rw [hab] at hcs hs ⊢
  cases hcs
  simp [scanSymbol, hs]

theorem scanSymbol_of_mem_singles {s : Symbol} (h : s ∈ Symbol.singles) {c : Char}
    {cs rest : List Char} (hcs : c :: cs = s.spelling ++ rest) (hl : Longest s.spelling rest)
    (offset : Nat) : scanSymbol offset c cs = .ok ⟨.symbol s, s.spelling, rest⟩ := by
  have hlength : ∀ s ∈ Symbol.singles, s.spelling.length = 1 := by decide
  have hfound : ∀ s ∈ Symbol.singles, Symbol.withSpelling Symbol.singles s.spelling = some s := by
    decide
  have hsingle : ∀ s ∈ Symbol.singles, Symbol.withSpelling Symbol.pairs s.spelling = none := by
    decide
  obtain ⟨a, ha⟩ := List.length_eq_one_iff.mp (hlength s h)
  have hs := hfound s h
  have hnone := hsingle s h
  rw [ha] at hcs hs hnone hl ⊢
  cases hcs
  have hpair : Symbol.withSpelling Symbol.pairs (c :: rest.take 1) = none := by
    cases rest with
    | nil => exact hnone
    | cons d rest =>
      cases hp : Symbol.withSpelling Symbol.pairs (c :: (d :: rest).take 1) with
      | none => rfl
      | some p =>
        have hspell := IsSpelling.symbol p
        rw [Symbol.spelling_of_withSpelling hp] at hspell
        exact absurd hspell (hl [d] (by simp) (by simp) _)
  simp [scanSymbol, hpair, hs]

/-! ### The longest spelling -/

namespace Longest

variable {n : NumberLiteral} {rest : List Char}

theorem exists_text_append (n : NumberLiteral) {d : Char} (hd : isAsciiDigit d = true) :
    ∃ n' : NumberLiteral, n'.text = n.text ++ [d] := by
  obtain ⟨whole, fraction, exponent⟩ := n
  cases exponent with
  | some e =>
    exact ⟨⟨whole, fraction, some { e with power := e.power.push d hd }⟩, by
      simp [NumberLiteral.text, ExponentLiteral.optionText, ExponentLiteral.text, Digits.push]⟩
  | none =>
    cases fraction with
    | some f =>
      exact ⟨⟨whole, some (f.push d hd), none⟩, by
        simp [NumberLiteral.text, ExponentLiteral.optionText, Digits.fractionText, Digits.push]⟩
    | none =>
      exact ⟨⟨whole.push d hd, none, none⟩, by
        simp [NumberLiteral.text, ExponentLiteral.optionText, Digits.fractionText, Digits.push]⟩

theorem head_not_digit (h : Longest n.text rest) :
    ∀ c ∈ rest.head?, isAsciiDigit c = false := by
  intro c hc
  obtain ⟨cs, rfl⟩ := List.head?_eq_some_iff.mp hc
  by_contra hd
  obtain ⟨n', hn'⟩ := exists_text_append n (eq_true_of_ne_false hd)
  exact h [c] (by simp) (by simp) _ (hn' ▸ IsSpelling.number n')

theorem splitExponent_eq (h : Longest n.text rest) (hn : n.exponent = none) :
    splitExponent rest = ([], rest) := by
  obtain ⟨e, he⟩ := exists_exponentText rest
  have happend := splitExponent_append rest
  rw [he] at happend
  cases e with
  | none => exact Prod.ext he happend
  | some e =>
    have htext : (NumberLiteral.mk n.whole n.fraction (some e)).text = n.text ++ e.text := by
      simp [NumberLiteral.text, ExponentLiteral.optionText, hn]
    exact absurd (htext ▸ IsSpelling.number _)
      (h e.text (by simp [ExponentLiteral.text]) ⟨_, happend⟩ _)

theorem splitFraction_eq (h : Longest n.text rest) (hf : n.fraction = none)
    (he : n.exponent = none) : splitFraction rest = ([], rest) := by
  obtain ⟨f, hfront⟩ := exists_fractionText rest
  have happend := splitFraction_append rest
  rw [hfront] at happend
  cases f with
  | none => exact Prod.ext hfront happend
  | some d =>
    have htext : (NumberLiteral.mk n.whole (some d) none).text =
        n.text ++ Digits.fractionText (some d) := by
      simp [NumberLiteral.text, ExponentLiteral.optionText, Digits.fractionText, hf, he]
    exact absurd (htext ▸ IsSpelling.number _)
      (h _ (by simp [Digits.fractionText]) ⟨_, happend⟩ _)

theorem head_not_nameChar {word : List Char} (hword : IsIdentifier word) (h : Longest word rest) :
    ∀ c ∈ rest.head?, isNameChar c = false := by
  intro c hc
  obtain ⟨cs, rfl⟩ := List.head?_eq_some_iff.mp hc
  by_contra hn
  have hlonger : IsIdentifier (word ++ [c]) := by
    obtain ⟨d, ds, rfl, hd⟩ := hword.head
    refine ⟨⟨d, ds ++ [c], rfl, hd⟩, fun e he => ?_⟩
    rcases List.mem_append.mp he with he | he
    · exact hword.chars e he
    · rw [List.mem_singleton.mp he]
      exact eq_true_of_ne_false hn
  exact h [c] (by simp) (by simp) _ (isSpelling_wordKind hlonger)

end Longest

theorem scan_of_word {word rest : List Char} (hword : IsIdentifier word) (hl : Longest word rest)
    {c : Char} {cs : List Char} (hcs : c :: cs = word ++ rest) (offset : Nat) :
    scan offset c cs = .ok ⟨wordKind word, word, rest⟩ := by
  obtain ⟨d, ds, rfl, -⟩ := hword.head
  cases hcs
  exact scan_of_isIdentifier hword (hl.head_not_nameChar hword) offset

/-- A spelling is scanned as the lexeme that it spells, if it cannot be made longer. -/
theorem scan_of_isSpelling {k : LexemeKind} {text rest : List Char} (h : k.IsSpelling text)
    (hl : Longest text rest) {c : Char} {cs : List Char} (hcs : c :: cs = text ++ rest)
    (offset : Nat) : scan offset c cs = .ok ⟨k, text, rest⟩ := by
  cases h with
  | number n =>
    obtain ⟨d, ds, hd, hdigit⟩ := n.whole.exists_cons
    have hc : c = d := by
      rw [NumberLiteral.text, hd] at hcs
      exact (List.cons.inj hcs).1
    rw [scan, if_pos (hc ▸ hdigit), hcs, scanNumber_text n hl.head_not_digit hl.splitFraction_eq
      hl.splitExponent_eq]
  | @string quote value text hquote hinner =>
    obtain ⟨rfl, rfl⟩ := List.cons.inj hcs
    have hdigit : isAsciiDigit c = false := by rcases hquote with rfl | rfl <;> rfl
    have htail : (text ++ [c]).append rest = text ++ c :: rest := by simp
    rw [scan, if_neg (by simp [hdigit]), if_pos hquote, htail, scanQuoted_isQuoted hquote hinner]
  | name hword hkey =>
    have hkind := scan_of_word hword hl hcs offset
    rwa [wordKind, hkey, String.ofList_toList] at hkind
  | symbol s =>
    rcases mem_keywords_or s with hs | hs | hs
    · rw [scan_of_word (isIdentifier_of_mem_keywords hs) hl hcs offset, wordKind_of_mem_keywords hs]
    · rw [scan_eq_scanSymbol (Or.inl hs) hcs, scanSymbol_of_mem_pairs hs hcs]
    · rw [scan_eq_scanSymbol (Or.inr hs) hcs, scanSymbol_of_mem_singles hs hcs hl]

/-- What is scanned is a spelling of its kind. -/
theorem isSpelling_of_scan {offset : Nat} {c : Char} {cs : List Char} {s : Scanned}
    (h : scan offset c cs = .ok s) : s.kind.IsSpelling s.text := by
  unfold scan at h
  split at h
  · next hc =>
    cases h
    exact isSpelling_scanNumber cs hc
  · split at h
    · next hquote =>
      split at h
      · simp at h
      · next value text rest hq =>
        cases h
        obtain ⟨inner, rfl, hinner⟩ := isQuoted_scanQuoted hq
        exact .string hquote hinner
    · split at h
      · next hstart =>
        cases h
        have hname : isNameChar c = true := by simp [isNameChar, hstart]
        refine isSpelling_wordKind ⟨⟨c, cs.takeWhile isNameChar, ?_, hstart⟩, fun d hd => ?_⟩
        · rw [List.takeWhile_cons_of_pos hname]
        · exact List.mem_takeWhile_imp hd
      · unfold scanSymbol at h
        split at h
        · next s hs =>
          cases h
          exact Symbol.spelling_of_withSpelling hs ▸ IsSpelling.symbol s
        · split at h
          · next s hs =>
            cases h
            exact Symbol.spelling_of_withSpelling hs ▸ IsSpelling.symbol s
          · simp at h

/-- What is scanned cannot be made longer. -/
theorem longest_of_scan {offset : Nat} {c : Char} {cs : List Char} {s : Scanned}
    (h : scan offset c cs = .ok s) : Longest s.text s.rest := by
  intro more hne hpre k hk
  -- If there were longer spellings, the longest of them would have been scanned.
  induction hlen : s.rest.length - more.length using Nat.strong_induction_on generalizing more k with
  | _ n ih =>
    obtain ⟨rest, hrest⟩ := hpre
    have hlength : more.length + rest.length = s.rest.length := by
      rw [← hrest, List.length_append]
    have hl : Longest (s.text ++ more) rest := by
      intro further hfurther hpre k' hk'
      have hshorter : further.length ≤ rest.length := hpre.length_le
      have hpos : 0 < further.length := List.length_pos_iff.mpr hfurther
      have hlonger : more ++ further <+: s.rest := by
        rw [← hrest]
        exact List.prefix_append_right_inj more |>.mpr hpre
      refine ih (s.rest.length - (more ++ further).length) ?_ (more ++ further) (by simp [hne])
        hlonger k' (by rwa [← List.append_assoc]) rfl
      rw [List.length_append]
      omega
    have hcs : c :: cs = s.text ++ more ++ rest := by
      rw [List.append_assoc, hrest, scan_append h]
    have hscan := h.symm.trans (scan_of_isSpelling hk hl hcs offset)
    have htext : s.text = s.text ++ more := congrArg Scanned.text (Except.ok.inj hscan)
    exact hne (List.self_eq_append_right.mp htext)

/-! ### Blanks end a lexeme -/

theorem not_blank_of_isAsciiDigit {c : Char} (h : isAsciiDigit c = true) : isBlank c = false := by
  have hrange : 48 ≤ c.toNat ∧ c.toNat ≤ 57 := by
    simp only [isAsciiDigit, Bool.and_eq_true, decide_eq_true_eq, Char.le_def,
      UInt32.le_iff_toNat_le] at h
    exact h
  simp only [isBlank, Bool.or_eq_false_iff, Bool.and_eq_false_iff, decide_eq_false_iff_not,
    beq_eq_false_iff_ne]
  omega

theorem not_blank_of_isNameChar {c : Char} (h : isNameChar c = true) : isBlank c = false := by
  rcases (Bool.or_eq_true _ _).mp h with h | h
  · exact (not_blank_of_isNameStart h).1
  · exact not_blank_of_isAsciiDigit h

theorem not_blank_of_mem_optionText {e : Option ExponentLiteral} {c : Char}
    (h : c ∈ ExponentLiteral.optionText e) : isBlank c = false := by
  cases e with
  | none => cases h
  | some e =>
    simp only [ExponentLiteral.optionText, Option.map_some, Option.getD_some, ExponentLiteral.text,
      List.mem_cons, List.mem_append] at h
    rcases h with rfl | h | h
    · cases e.capital <;> rfl
    · cases hs : e.sign <;> simp only [hs, ExponentSign.text, List.mem_singleton,
        List.not_mem_nil] at h <;> subst h <;> rfl
    · exact not_blank_of_isAsciiDigit (e.power.digits c h)

theorem not_blank_of_mem_text {n : NumberLiteral} {c : Char} (h : c ∈ n.text) :
    isBlank c = false := by
  rcases List.mem_append.mp h with h | h
  · exact not_blank_of_isAsciiDigit (n.whole.digits c h)
  · rcases List.mem_append.mp h with h | h
    · cases hf : n.fraction with
      | none => simp [hf, Digits.fractionText] at h
      | some d =>
        simp only [hf, Digits.fractionText, List.mem_cons] at h
        rcases h with rfl | h
        · rfl
        · exact not_blank_of_isAsciiDigit (d.digits c h)
    · exact not_blank_of_mem_optionText h

/-- Only strings can have blanks in their spelling. -/
theorem LexemeKind.IsSpelling.not_blank_or_string {k : LexemeKind} {text : List Char}
    (h : k.IsSpelling text) :
    (∀ c ∈ text, isBlank c = false) ∨ ∃ quote value inner, (quote = '\'' ∨ quote = '"') ∧
      text = quote :: (inner ++ [quote]) ∧ IsQuoted quote value inner := by
  cases h with
  | number n => exact Or.inl fun c hc => not_blank_of_mem_text hc
  | string hquote hinner => exact Or.inr ⟨_, _, _, hquote, rfl, hinner⟩
  | name hword _ => exact Or.inl fun c hc => not_blank_of_isNameChar (hword.chars c hc)
  | symbol s =>
    left
    cases s <;> simp [Symbol.spelling, isBlank]

namespace LexemeKind.IsSpelling

variable {k k' : LexemeKind} {text more : List Char}

theorem ne_nil (h : k.IsSpelling text) : text ≠ [] := by
  cases h with
  | number n => simp [NumberLiteral.text, n.whole.ne_nil]
  | string => simp
  | name hword _ =>
    obtain ⟨c, cs, hc, -⟩ := hword.head
    simp [hc]
  | symbol s => cases s <;> decide

theorem head_not_blank (h : k.IsSpelling text) : ∀ c ∈ text.head?, isBlank c = false := by
  intro c hc
  rcases h.not_blank_or_string with hb | ⟨quote, value, inner, hquote, rfl, -⟩
  · exact hb c (List.mem_of_mem_head? hc)
  · cases hc
    rcases hquote with rfl | rfl <;> rfl

theorem last_not_blank (h : k.IsSpelling text) : ∀ c ∈ text.getLast?, isBlank c = false := by
  intro c hc
  rcases h.not_blank_or_string with hb | ⟨quote, value, inner, hquote, rfl, -⟩
  · exact hb c (List.mem_of_mem_getLast? hc)
  · rw [← List.cons_append, List.getLast?_concat] at hc
    cases hc
    rcases hquote with rfl | rfl <;> rfl

/-- What begins with a quote is a string. -/
theorem isQuoted_of_cons {quote : Char} (hquote : quote = '\'' ∨ quote = '"') {tail : List Char}
    (h : k.IsSpelling (quote :: tail)) :
    ∃ value inner, tail = inner ++ [quote] ∧ IsQuoted quote value inner := by
  have hdigit : isAsciiDigit quote = false := by rcases hquote with rfl | rfl <;> rfl
  have hscan := scan_of_isSpelling h (longest_nil _) (List.append_nil _).symm 0
  rw [scan, if_neg (by simp [hdigit]), if_pos hquote] at hscan
  split at hscan
  · simp at hscan
  · next value text rest hq =>
    cases hscan
    obtain ⟨inner, htail, hinner⟩ := isQuoted_scanQuoted hq
    exact ⟨value, inner, htail, hinner⟩

/-- The closing quote ends a string, whatever comes next. -/
theorem eq_nil_of_string {quote : Char} (hquote : quote = '\'' ∨ quote = '"')
    {value inner : List Char} (h : k.IsSpelling text)
    (htext : text ++ more = quote :: (inner ++ [quote])) (hinner : IsQuoted quote value inner) :
    more = [] := by
  obtain ⟨c, tail, rfl⟩ := List.exists_cons_of_ne_nil h.ne_nil
  obtain ⟨rfl, htail⟩ := List.cons.inj htext
  obtain ⟨value', inner', rfl, hinner'⟩ := h.isQuoted_of_cons hquote
  have hwhole := scanQuoted_isQuoted hquote hinner 0 0 []
  have hpart := scanQuoted_isQuoted hquote hinner' 0 0 more
  have heq : inner' ++ c :: more = inner ++ [c] := by
    rw [← htail]
    simp
  rw [heq, hwhole] at hpart
  have hends := Except.ok.inj hpart
  simp only [Prod.mk.injEq] at hends
  exact hends.2.2.symm

/-- No spelling is made longer by anything with a blank in it. -/
theorem not_blank_of_append (h : k.IsSpelling text) (h' : k'.IsSpelling (text ++ more)) :
    ∀ c ∈ more, isBlank c = false := by
  intro c hc
  rcases h'.not_blank_or_string with hb | ⟨quote, value, inner, hquote, htext, hinner⟩
  · exact hb c (List.mem_append_right text hc)
  · rw [h.eq_nil_of_string hquote htext hinner] at hc
    cases hc

end LexemeKind.IsSpelling

/-- A rest that is cut off before a blank, or by the end, makes no lexeme longer. -/
theorem Longest.cut {k : LexemeKind} {text front tail tail' : List Char} (h : k.IsSpelling text)
    (hl : Longest text (front ++ tail)) (hb : ∀ c ∈ tail'.head?, isBlank c = true) :
    Longest text (front ++ tail') := by
  intro more hne hpre k' hk'
  by_cases hle : more.length ≤ front.length
  · have hfront : more <+: front :=
      List.prefix_of_prefix_length_le hpre (List.prefix_append front tail') hle
    exact hl more hne (hfront.trans (List.prefix_append front tail)) k' hk'
  · have hfront : front <+: more :=
      List.prefix_of_prefix_length_le (List.prefix_append front tail') hpre (by omega)
    obtain ⟨beyond, rfl⟩ := hfront
    have hbeyond : beyond <+: tail' := (List.prefix_append_right_inj front).mp hpre
    cases beyond with
    | nil => simp at hle
    | cons b beyond =>
      obtain ⟨rest, rfl⟩ := hbeyond
      have hblank : isBlank b = false := h.not_blank_of_append hk' b (by simp)
      rw [hb b rfl] at hblank
      cases hblank

/-- Before a blank and at the end of the source a spelling cannot be made longer. -/
theorem longest_of_blank {k : LexemeKind} {text rest : List Char} (h : k.IsSpelling text)
    (hb : ∀ c ∈ rest.head?, isBlank c = true) : Longest text rest :=
  Longest.cut h (show Longest text ([] ++ []) from longest_nil text) hb

/-- The scanner takes the longest spelling at the front of a source, and of the kind spelled. -/
theorem scan_eq_ok_iff {offset : Nat} {c : Char} {cs : List Char} {s : Scanned} :
    scan offset c cs = .ok s ↔
      s.kind.IsSpelling s.text ∧ Longest s.text s.rest ∧ c :: cs = s.text ++ s.rest := by
  constructor
  · intro h
    exact ⟨isSpelling_of_scan h, longest_of_scan h, (scan_append h).symm⟩
  · rintro ⟨hspell, hl, hcs⟩
    exact scan_of_isSpelling hspell hl hcs offset

end TemplateBar.Template
