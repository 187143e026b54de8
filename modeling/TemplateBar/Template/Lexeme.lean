import TemplateBar.Template.Error
import TemplateBar.Text.Blank
import TemplateBar.Text.Word

/-!
# Lexemes

A source is cut into lexemes, each with the byte offset at which it starts. `scan` takes one lexeme
off the front of a source and keeps its spelling, so that spelling and rest make up what was there;
`lexemes` skips blanks and scans until the source is used up, and ends with an `eof` lexeme at the
source's length.
-/
namespace TemplateBar.Template

open Text (isAsciiDigit isAsciiAlpha isBlank byteLength)

structure Lexeme where
  kind : LexemeKind
  offset : Nat
  deriving DecidableEq, Repr

/-- A lexeme taken off the front of a source. -/
structure Scanned where
  kind : LexemeKind
  text : List Char
  rest : List Char
  deriving DecidableEq, Repr

def isNameStart (c : Char) : Bool := isAsciiAlpha c || c == '_' || c == '$'

def isNameChar (c : Char) : Bool := isNameStart c || isAsciiDigit c

/-- The fraction of a number is a point with at least one digit after it. -/
def splitFraction : List Char → List Char × List Char
  | '.' :: cs =>
    match cs.takeWhile isAsciiDigit with
    | [] => ([], '.' :: cs)
    | d :: ds => ('.' :: d :: ds, cs.dropWhile isAsciiDigit)
  | cs => ([], cs)

/-- The sign of an exponent, if it has one. -/
def splitSign : List Char → List Char × List Char
  | '+' :: cs => (['+'], cs)
  | '-' :: cs => (['-'], cs)
  | cs => ([], cs)

/-- The exponent of a number is its mark, perhaps a sign, and at least one digit. -/
def splitExponent : List Char → List Char × List Char
  | c :: cs =>
    if c = 'e' ∨ c = 'E' then
      match (splitSign cs).2.takeWhile isAsciiDigit with
      | [] => ([], c :: cs)
      | d :: ds => (c :: ((splitSign cs).1 ++ d :: ds), (splitSign cs).2.dropWhile isAsciiDigit)
    else ([], c :: cs)
  | [] => ([], [])

/-- The power of ten that an exponent stands for. -/
def exponentValue (exponent : List Char) : Int :=
  match splitSign (exponent.drop 1) with
  | (['-'], ds) => -(Decimal.natOfDigits ds : Int)
  | (_, ds) => Decimal.natOfDigits ds

/-- The double nearest to a spelled number. -/
def numberValue (whole fraction exponent : List Char) : Float :=
  (Decimal.mk (Decimal.natOfDigits (whole ++ fraction.drop 1))
    (exponentValue exponent - (fraction.drop 1).length)).toFloat

/-- A number at the front of a source that starts with a digit. -/
def scanNumber (cs : List Char) : Scanned :=
  let whole := cs.takeWhile isAsciiDigit
  let fraction := splitFraction (cs.dropWhile isAsciiDigit)
  let exponent := splitExponent fraction.2
  ⟨.number (numberValue whole fraction.1 exponent.1), whole ++ (fraction.1 ++ exponent.1),
    exponent.2⟩

/-- What a backslash and a character stand for. -/
def unescape (c : Char) : Option Char :=
  if c = 'n' then some '\n'
  else if c = 't' then some '\t'
  else if c = 'r' then some '\r'
  else if c = '\\' ∨ c = '\'' ∨ c = '"' then some c
  else none

/-- The characters of a string that starts at `start`, its spelling up to the closing quote, and
the rest; `offset` is that of the first character to read. -/
def scanQuoted (quote : Char) (start : Nat) :
    Nat → List Char → Except EvalError (List Char × List Char × List Char)
  | _, [] => .error (.syntaxError start .unterminatedString)
  | offset, c :: cs =>
    if c = quote then .ok ([], [c], cs)
    else if c = '\\' then
      match cs with
      | [] => .error (.syntaxError start .unterminatedString)
      | e :: cs =>
        match unescape e with
        | none => .error (.syntaxError offset (.unknownEscape e))
        | some d =>
          match scanQuoted quote start (offset + 1 + e.utf8Size) cs with
          | .error err => .error err
          | .ok (value, text, rest) => .ok (d :: value, c :: e :: text, rest)
    else
      match scanQuoted quote start (offset + c.utf8Size) cs with
      | .error err => .error err
      | .ok (value, text, rest) => .ok (c :: value, c :: text, rest)

/-- A word is a keyword or a name. -/
def wordKind (word : List Char) : LexemeKind :=
  match Symbol.withSpelling Symbol.keywords word with
  | some s => .symbol s
  | none => .name (String.ofList word)

/-- An operator or bracket: two characters where they make one, else a single one. -/
def scanSymbol (offset : Nat) (c : Char) (cs : List Char) : Except EvalError Scanned :=
  match Symbol.withSpelling Symbol.pairs (c :: cs.take 1) with
  | some s => .ok ⟨.symbol s, c :: cs.take 1, cs.drop 1⟩
  | none =>
    match Symbol.withSpelling Symbol.singles [c] with
    | some s => .ok ⟨.symbol s, [c], cs⟩
    | none => .error (.syntaxError offset (if c = '=' then .assignment else .strayCharacter c))

/-- The lexeme at the front of `c :: cs`, which starts at `offset` and is not blank. -/
def scan (offset : Nat) (c : Char) (cs : List Char) : Except EvalError Scanned :=
  if isAsciiDigit c then .ok (scanNumber (c :: cs))
  else if c = '\'' ∨ c = '"' then
    match scanQuoted c offset (offset + 1) cs with
    | .error err => .error err
    | .ok (value, text, rest) => .ok ⟨.string (String.ofList value), c :: text, rest⟩
  else if isNameStart c then
    .ok ⟨wordKind ((c :: cs).takeWhile isNameChar), (c :: cs).takeWhile isNameChar,
      (c :: cs).dropWhile isNameChar⟩
  else scanSymbol offset c cs

theorem splitFraction_append (cs : List Char) :
    (splitFraction cs).1 ++ (splitFraction cs).2 = cs := by
  unfold splitFraction
  split
  · rename_i cs
    split
    · rfl
    · rename_i h
      rw [List.cons_append, ← h, List.takeWhile_append_dropWhile]
  · rfl

theorem splitSign_append (cs : List Char) : (splitSign cs).1 ++ (splitSign cs).2 = cs := by
  unfold splitSign
  split <;> rfl

theorem splitExponent_append (cs : List Char) :
    (splitExponent cs).1 ++ (splitExponent cs).2 = cs := by
  unfold splitExponent
  split
  · rename_i c cs
    split
    · split
      · rfl
      · rename_i h
        rw [List.cons_append, List.append_assoc, ← h, List.takeWhile_append_dropWhile,
          splitSign_append]
    · rfl
  · rfl

theorem scanNumber_append (cs : List Char) : (scanNumber cs).text ++ (scanNumber cs).rest = cs := by
  simp only [scanNumber, List.append_assoc, splitExponent_append, splitFraction_append]
  exact List.takeWhile_append_dropWhile

theorem scanQuoted_append {quote : Char} {start offset : Nat} {cs value text rest : List Char}
    (h : scanQuoted quote start offset cs = .ok (value, text, rest)) : text ++ rest = cs := by
  fun_induction scanQuoted quote start offset cs generalizing value text rest with
  | case1 => simp at h
  | case2 =>
    simp only [Except.ok.injEq, Prod.mk.injEq] at h
    obtain ⟨rfl, rfl, rfl⟩ := h
    rfl
  | case3 => simp at h
  | case4 => simp at h
  | case5 => simp at h
  | case6 _ _ _ _ _ _ _ _ hrest _ ih =>
    simp only [Except.ok.injEq, Prod.mk.injEq] at h
    obtain ⟨rfl, rfl, rfl⟩ := h
    simp [ih hrest]
  | case7 => simp at h
  | case8 _ _ _ _ _ _ _ _ hrest ih =>
    simp only [Except.ok.injEq, Prod.mk.injEq] at h
    obtain ⟨rfl, rfl, rfl⟩ := h
    simp [ih hrest]

theorem scanSymbol_append {offset : Nat} {c : Char} {cs : List Char} {s : Scanned}
    (h : scanSymbol offset c cs = .ok s) : s.text ++ s.rest = c :: cs := by
  unfold scanSymbol at h
  split at h
  · simp only [Except.ok.injEq] at h; subst h
    rw [List.cons_append, List.take_append_drop]
  · split at h
    · simp only [Except.ok.injEq] at h; subst h; simp
    · simp at h

/-- Spelling and rest make up the source. -/
theorem scan_append {offset : Nat} {c : Char} {cs : List Char} {s : Scanned}
    (h : scan offset c cs = .ok s) : s.text ++ s.rest = c :: cs := by
  unfold scan at h
  split at h
  · simp only [Except.ok.injEq] at h; subst h; exact scanNumber_append _
  · split at h
    · split at h
      · simp at h
      · rename_i hq; simp only [Except.ok.injEq] at h; subst h; simp [scanQuoted_append hq]
    · split at h
      · simp only [Except.ok.injEq] at h; subst h; exact List.takeWhile_append_dropWhile
      · exact scanSymbol_append h

/-- No lexeme is empty. -/
theorem scan_text_ne_nil {offset : Nat} {c : Char} {cs : List Char} {s : Scanned}
    (h : scan offset c cs = .ok s) : s.text ≠ [] := by
  unfold scan at h
  split at h
  · rename_i hd; simp only [Except.ok.injEq] at h; subst h; simp [scanNumber, hd]
  · split at h
    · split at h
      · simp at h
      · simp only [Except.ok.injEq] at h; subst h; simp
    · split at h
      · rename_i hs
        simp only [Except.ok.injEq] at h; subst h; simp [isNameChar, hs]
      · unfold scanSymbol at h
        split at h
        · simp only [Except.ok.injEq] at h; subst h; simp
        · split at h
          · simp only [Except.ok.injEq] at h; subst h; simp
          · simp at h

theorem scan_rest_length {offset : Nat} {c : Char} {cs : List Char} {s : Scanned}
    (h : scan offset c cs = .ok s) : s.rest.length < (c :: cs).length := by
  have hl := congrArg List.length (scan_append h)
  have hp := List.length_pos_iff.2 (scan_text_ne_nil h)
  rw [List.length_append] at hl
  omega

/-- The lexemes of a source whose first character is at `offset`. -/
def lexemes (offset : Nat) : List Char → Except EvalError (List Lexeme)
  | [] => .ok [⟨.eof, offset⟩]
  | c :: cs =>
    if isBlank c then lexemes (offset + c.utf8Size) cs
    else
      match _h : scan offset c cs with
      | .error err => .error err
      | .ok s =>
        match lexemes (offset + byteLength s.text) s.rest with
        | .error err => .error err
        | .ok ls => .ok (⟨s.kind, offset⟩ :: ls)
termination_by cs => cs.length
decreasing_by
  · simp
  · exact scan_rest_length _h

/-- The lexemes of a whole source. -/
def tokenize (source : String) : Except EvalError (List Lexeme) := lexemes 0 source.toList

end TemplateBar.Template
