import TemplateBar.Proofs.Icon.WordRun
import TemplateBar.Proofs.Template.Parse

/-!
# Members by name

A word at the front of a source is one lexeme, a name unless it is a keyword. Two words with a point
between them are the member of that name, if neither is a keyword; a keyword behind the point is
refused as a syntax error.
-/
namespace TemplateBar.Template

open Text (isAsciiDigit isAsciiAlpha isBlank byteLength)

/-- What is scanned as one word. -/
structure IsIdentifier (word : List Char) : Prop where
  head : ∃ c cs, word = c :: cs ∧ isNameStart c = true
  chars : ∀ c ∈ word, isNameChar c = true

theorem not_blank_of_isAsciiAlpha {c : Char} (h : isAsciiAlpha c = true) : isBlank c = false := by
  have hrange : 65 ≤ c.toNat ∧ c.toNat ≤ 122 := by
    simp only [isAsciiAlpha, Bool.or_eq_true, Bool.and_eq_true, decide_eq_true_eq, Char.le_def,
      UInt32.le_iff_toNat_le] at h
    rcases h with ⟨hl, hu⟩ | ⟨hl, hu⟩
    · exact ⟨Nat.le_trans (by decide) hl, hu⟩
    · exact ⟨hl, Nat.le_trans hu (by decide)⟩
  simp only [isBlank, Bool.or_eq_false_iff, Bool.and_eq_false_iff, decide_eq_false_iff_not,
    beq_eq_false_iff_ne]
  omega

theorem not_blank_of_isNameStart {c : Char} (h : isNameStart c = true) :
    isBlank c = false ∧ isAsciiDigit c = false ∧ ¬(c = '\'' ∨ c = '"') := by
  simp only [isNameStart, Bool.or_eq_true, beq_iff_eq] at h
  rcases h with (h | rfl) | rfl
  · refine ⟨not_blank_of_isAsciiAlpha h, isAsciiDigit_of_isAsciiAlpha h, ?_⟩
    rintro (rfl | rfl) <;> exact absurd h (by decide)
  · decide
  · decide

theorem scan_of_isIdentifier {c : Char} {cs rest : List Char} (h : IsIdentifier (c :: cs))
    (hstop : ∀ d ∈ rest.head?, isNameChar d = false) (offset : Nat) :
    scan offset c (cs ++ rest) = .ok ⟨wordKind (c :: cs), c :: cs, rest⟩ := by
  obtain ⟨c, cs, heq, hc⟩ := h.head
  cases heq
  obtain ⟨-, hdigit, hquote⟩ := not_blank_of_isNameStart hc
  rw [scan, if_neg (by simp [hdigit]), if_neg hquote, if_pos hc, ← List.cons_append,
    takeWhile_append_of_stop h.chars hstop, dropWhile_append_of_stop h.chars hstop]

theorem lexemes_of_scan {offset : Nat} {c : Char} {cs : List Char} {s : Scanned}
    (hb : isBlank c = false) (h : scan offset c cs = .ok s) :
    lexemes offset (c :: cs) =
      (lexemes (offset + byteLength s.text) s.rest).map (⟨s.kind, offset⟩ :: ·) := by
  rw [lexemes, if_neg (by simp [hb])]
  split
  · next err herr => rw [h] at herr; cases herr
  · next s' hs' =>
    rw [h] at hs'
    cases hs'
    cases lexemes (offset + byteLength s.text) s.rest <;> rfl

theorem lexemes_word {word rest : List Char} (h : IsIdentifier word)
    (hstop : ∀ d ∈ rest.head?, isNameChar d = false) (offset : Nat) :
    lexemes offset (word ++ rest) =
      (lexemes (offset + byteLength word) rest).map (⟨wordKind word, offset⟩ :: ·) := by
  obtain ⟨c, cs, rfl, hc⟩ := h.head
  exact lexemes_of_scan (not_blank_of_isNameStart hc).1 (scan_of_isIdentifier h hstop offset)

theorem lexemes_dot (cs : List Char) (offset : Nat) :
    lexemes offset ('.' :: cs) = (lexemes (offset + 1) cs).map (⟨.symbol .dot, offset⟩ :: ·) :=
  lexemes_of_scan (s := ⟨.symbol .dot, ['.'], cs⟩) rfl rfl

/-- Two words with a point between them. -/
theorem tokenize_member {a b : String} (ha : IsIdentifier a.toList) (hb : IsIdentifier b.toList) :
    tokenize (a ++ "." ++ b) = .ok [⟨wordKind a.toList, 0⟩, ⟨.symbol .dot, byteLength a.toList⟩,
      ⟨wordKind b.toList, byteLength a.toList + 1⟩,
      ⟨.eof, byteLength a.toList + 1 + byteLength b.toList⟩] := by
  have hsource : (a ++ "." ++ b).toList = a.toList ++ '.' :: (b.toList ++ []) := by simp
  have hdot : ∀ d ∈ ('.' :: (b.toList ++ [])).head?, isNameChar d = false := by
    intro d hd
    cases hd
    decide
  rw [tokenize, hsource, lexemes_word ha hdot, lexemes_dot, lexemes_word hb (by simp), lexemes,
    Nat.zero_add]
  rfl

theorem LexemeKind.atom?_name (s : String) : (LexemeKind.name s).atom? = some (.name s) := rfl

/-- A member of a name. -/
def Phrase.ofMember (owner property : String) : Phrase .expr :=
  alone (.tight (.base (.linked (.atom (.name owner) (.name owner) (LexemeKind.atom?_name owner))
    (.member property .unlinked))))

namespace Expr

/-- A member by name has one link, so it needs two levels of nesting. -/
theorem ofLexemes_member {a b : String} {i j k l D : Nat} (hD : 2 ≤ D) :
    ofLexemes D [⟨.name a, i⟩, ⟨.symbol .dot, j⟩, ⟨.name b, k⟩, ⟨.eof, l⟩] =
      .ok (.member (.name a) b) := by
  have hended : Ended [⟨.name a, i⟩, ⟨.symbol .dot, j⟩, ⟨.name b, k⟩, ⟨.eof, l⟩] :=
    .cons (by simp) (.cons (by simp) (.cons (by simp) (.last l)))
  have hneed : (Phrase.ofMember a b).need = 2 := rfl
  rw [ofLexemes_of_phrase hended (Phrase.ofMember a b) rfl, if_pos (hneed.trans_le hD)]
  rfl

theorem ofLexemes_keyword_member {a : String} {s : Symbol} {i j k l D : Nat} (hD : 2 ≤ D) :
    ofLexemes D [⟨.name a, i⟩, ⟨.symbol .dot, j⟩, ⟨.symbol s, k⟩, ⟨.eof, l⟩] =
      .error (.syntaxError k (.expectedProperty (.symbol s))) := by
  obtain ⟨D, rfl⟩ := Nat.exists_eq_add_of_le' hD
  -- Both levels can be taken, so the reading runs up to the keyword and ends there.
  rfl

variable {a b : String} {D : Nat}

/-- A point between two words takes the member of that name, unless the second one is a keyword. -/
theorem parse_member (ha : IsIdentifier a.toList) (hb : IsIdentifier b.toList)
    (hkey : Symbol.withSpelling Symbol.keywords a.toList = none) (hD : 2 ≤ D) :
    parse (a ++ "." ++ b) D =
      match Symbol.withSpelling Symbol.keywords b.toList with
      | some s => .error (.syntaxError (byteLength a.toList + 1) (.expectedProperty (.symbol s)))
      | none => .ok (.member (.name a) b) := by
  have hword : wordKind a.toList = .name a := by rw [wordKind, hkey, String.ofList_toList]
  rw [parse, tokenize_member ha hb, hword]
  cases hproperty : Symbol.withSpelling Symbol.keywords b.toList with
  | some s =>
    rw [wordKind, hproperty]
    exact ofLexemes_keyword_member hD
  | none =>
    rw [wordKind, hproperty, String.ofList_toList]
    exact ofLexemes_member hD

end Expr
end TemplateBar.Template
