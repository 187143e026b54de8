import TemplateBar.Proofs.Template.Sound

/-!
# The parser accepts the grammar

A source that can be cut into lexemes compiles, with enough levels of nesting, exactly if these are
the lexemes of a phrase, and then to the tree of that phrase, of which there is only one.
-/
namespace TemplateBar.Template

open Parse

theorem kind_of_scanSymbol {offset : Nat} {c : Char} {cs : List Char} {s : Scanned}
    (h : scanSymbol offset c cs = .ok s) : ∃ t, s.kind = .symbol t := by
  unfold scanSymbol at h
  split at h
  · cases h
    exact ⟨_, rfl⟩
  · split at h
    · cases h
      exact ⟨_, rfl⟩
    · simp at h

theorem kind_ne_eof_of_scan {offset : Nat} {c : Char} {cs : List Char} {s : Scanned}
    (h : scan offset c cs = .ok s) : s.kind ≠ .eof := by
  unfold scan at h
  split at h
  · cases h
    simp [scanNumber]
  · split at h
    · split at h
      · simp at h
      · cases h
        simp
    · split at h
      · cases h
        simp only [wordKind]
        split <;> simp
      · obtain ⟨t, ht⟩ := kind_of_scanSymbol h
        simp [ht]

/-- A name is never spelled like a keyword. -/
theorem not_keyword_of_scan {offset : Nat} {c : Char} {cs : List Char} {s : Scanned} {name : String}
    (h : scan offset c cs = .ok s) (hk : s.kind = .name name) :
    Symbol.withSpelling Symbol.keywords name.toList = none := by
  unfold scan at h
  split at h
  · cases h
    simp [scanNumber] at hk
  · split at h
    · split at h
      · simp at h
      · cases h
        simp at hk
    · split at h
      · cases h
        simp only [wordKind] at hk
        split at hk
        · simp at hk
        · rename_i hnone
          cases hk
          rwa [String.toList_ofList]
      · obtain ⟨t, ht⟩ := kind_of_scanSymbol h
        simp [ht] at hk

theorem ended_of_lexemes {offset : Nat} {cs : List Char} {ls : List Lexeme}
    (h : lexemes offset cs = .ok ls) : Ended ls := by
  fun_induction lexemes offset cs generalizing ls with
  | case1 offset =>
    cases h
    exact Ended.last offset
  | case2 _ _ _ _ ih => exact ih h
  | case3 => simp at h
  | case4 => simp at h
  | case5 _ _ _ _ _ hscan _ hls ih =>
    cases h
    exact Ended.cons (kind_ne_eof_of_scan hscan) (ih hls)

theorem not_keyword_of_lexemes {offset : Nat} {cs : List Char} {ls : List Lexeme}
    (h : lexemes offset cs = .ok ls) {l : Lexeme} (hl : l ∈ ls) {name : String}
    (hk : l.kind = .name name) : Symbol.withSpelling Symbol.keywords name.toList = none := by
  fun_induction lexemes offset cs generalizing ls with
  | case1 offset =>
    cases h
    cases List.mem_singleton.mp hl
    simp at hk
  | case2 _ _ _ _ ih => exact ih h hl
  | case3 => simp at h
  | case4 => simp at h
  | case5 _ _ _ _ _ hscan _ hls ih =>
    cases h
    rcases List.mem_cons.mp hl with rfl | hl
    · exact not_keyword_of_scan hscan hk
    · exact ih hls hl

namespace Phrase

/-- A name without links. -/
def ofName (s : String) : Phrase .linked := linked (atom (.name s) (.name s) rfl) unlinked

/-- An operand that is a whole expression. -/
def alone (u : Phrase .unary) : Phrase .expr :=
  plain (run (run (run (run (run (run (operand u) done) done) done) done) done) done)

end Phrase

namespace Expr

/-- With as many levels as the phrase needs its tree comes out, else a level is missing. -/
theorem ofLexemes_of_phrase {ls : List Lexeme} (he : Ended ls) (p : Phrase .expr)
    (h : ls.map (·.kind) = p.kinds ++ [.eof]) (D : Nat) :
    ofLexemes D ls = if p.need ≤ D then .ok p.tree else .error (.depthLimit D) := by
  obtain ⟨offset, hs⟩ := spells_of_kinds_eq h
  obtain ⟨k, ks, hk, ho⟩ := p.exists_first rfl
  have hstart : (current ⟨ls, 0⟩).kind ≠ .eof := by
    rw [hk] at hs
    rw [Phrase.current_of_spells hs]
    rintro rfl
    simp [Category.Opens, LexemeKind.opensOperand, LexemeKind.opensPrimary, UnaryOp.ofKind?] at ho
  have hsettles := p.readable (D := D) ls.length hs he
    ⟨_, _, rfl, LexemeKind.endsExpr_eof⟩ (Nat.le_refl _) (Nat.zero_le _)
  unfold ofLexemes
  rw [if_neg hstart]
  change Settles D 0 p.need p.tree _ (entire D ⟨ls, 0⟩) at hsettles
  by_cases hneed : p.need ≤ D
  · rw [if_pos hneed, hsettles.1 (by omega)]
    rfl
  · have herr := hsettles.2 (by omega)
    rw [if_neg hneed]
    cases hentire : entire D ⟨ls, 0⟩ with
    | mk r c =>
      rw [hentire] at herr
      obtain rfl : r = .error (.depthLimit D) := herr
      rfl

theorem phrase_of_ofLexemes {ls : List Lexeme} (he : Ended ls) {D : Nat} {e : Expr}
    (h : ofLexemes D ls = .ok e) :
    ∃ p : Phrase .expr, ls.map (·.kind) = p.kinds ++ [.eof] ∧ p.tree = e := by
  unfold ofLexemes at h
  dsimp only at h
  split at h
  · simp at h
  · cases hentire : entire D ⟨ls, 0⟩ with
    | mk r c =>
      rw [hentire] at h
      cases r with
      | error err => simp at h
      | ok a =>
        obtain ⟨p, rest, hp, rfl, rfl⟩ := finds_expression D ls.length he (Nat.le_refl _) hentire
        simp only at h
        split at h
        · rename_i heof
          obtain ⟨offset, rfl⟩ := hp.ended.eq_of_eof heof
          exact ⟨p, hp.spells.kinds_eq, Except.ok.inj h⟩
        · simp at h

/-- A source compiles to the trees of the phrases that it spells, and it spells at most one. -/
theorem parse_ok_iff {source : String} {ls : List Lexeme} (h : tokenize source = .ok ls) :
    (∀ e, (∃ D, parse source D = .ok e) ↔
      ∃ p : Phrase .expr, ls.map (·.kind) = p.kinds ++ [.eof] ∧ p.tree = e) ∧
    (∀ p q : Phrase .expr, ls.map (·.kind) = p.kinds ++ [.eof] →
      ls.map (·.kind) = q.kinds ++ [.eof] → p = q) ∧
    ∀ l ∈ ls, ∀ name, l.kind = .name name →
      Symbol.withSpelling Symbol.keywords name.toList = none := by
  have he : Ended ls := ended_of_lexemes h
  have hparse : ∀ D, parse source D = ofLexemes D ls := fun D => by rw [parse, h]
  refine ⟨fun e => ⟨?_, ?_⟩, ?_, fun l hl name hk => not_keyword_of_lexemes h hl hk⟩
  · rintro ⟨D, hD⟩
    rw [hparse] at hD
    exact phrase_of_ofLexemes he hD
  · rintro ⟨p, hp, rfl⟩
    refine ⟨p.need, ?_⟩
    rw [hparse, ofLexemes_of_phrase he p hp, if_pos (Nat.le_refl _)]
  · intro p q hp hq
    have hend : Category.expr.Follows [.eof] := ⟨_, _, rfl, LexemeKind.endsExpr_eof⟩
    exact (p.unique q trivial hend hend (hp.symm.trans hq)).1

/-- A sign in front is looser than a power. -/
theorem parse_sign_power :
    tokenize "-a ^ b" = .ok [⟨.symbol .minus, 0⟩, ⟨.name "a", 1⟩, ⟨.symbol .caret, 3⟩,
      ⟨.name "b", 5⟩, ⟨.eof, 6⟩] ∧
    ∃ D, parse "-a ^ b" D = .ok (unary .neg (power (name "a") (name "b"))) := by
  have hlexemes : tokenize "-a ^ b" = .ok [⟨.symbol .minus, 0⟩, ⟨.name "a", 1⟩,
      ⟨.symbol .caret, 3⟩, ⟨.name "b", 5⟩, ⟨.eof, 6⟩] := by
    have h : (tokenize "-a ^ b").toOption = some [⟨.symbol .minus, 0⟩, ⟨.name "a", 1⟩,
        ⟨.symbol .caret, 3⟩, ⟨.name "b", 5⟩, ⟨.eof, 6⟩] := by decide +kernel
    cases ht : tokenize "-a ^ b" with
    | ok ls => rw [ht] at h; exact congrArg Except.ok (Option.some.inj h)
    | error e => rw [ht] at h; cases h
  have hminus : (Symbol.minus, UnaryOp.neg) ∈ UnaryOp.symbols := by decide
  refine ⟨hlexemes, ((parse_ok_iff hlexemes).1 _).mpr ⟨Phrase.alone (.front .minus .neg hminus
    (.tight (.raised (.ofName "a") (.tight (.base (.ofName "b")))))), rfl, rfl⟩⟩

end Expr
end TemplateBar.Template
