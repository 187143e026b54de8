import TemplateBar.Proofs.Template.Append
import TemplateBar.Proofs.Template.Refusal
import TemplateBar.Proofs.Template.Parse

/-!
# Syntax errors are the first ones

A syntax error names the first lexeme that cannot be right: there is a source with the lexemes in
front of it that compiles, but with the one that is named no list of lexemes goes on to a phrase.
-/
namespace TemplateBar.Template

open Parse LexemeKind

theorem Spells.exists_append {ks : List LexemeKind} {ls rest : List Lexeme} (h : Spells ks ls rest) :
    ∃ before, ls = before ++ rest ∧ before.map (·.kind) = ks := by
  induction ks generalizing ls with
  | nil => exact ⟨[], h, rfl⟩
  | cons k ks ih =>
    obtain ⟨offset, ls', rfl, h⟩ := h
    obtain ⟨before, rfl, hkinds⟩ := ih h
    exact ⟨⟨k, offset⟩ :: before, rfl, congrArg (k :: ·) hkinds⟩

/-- Behind a phrase that ends where something else than the end of the source stands. -/
theorem Stuck.trailing (p : Phrase .expr) {k : LexemeKind} (hk : k.EndsExpr) (hne : k ≠ eof) :
    Stuck .expr (· = [eof]) p.kinds k where
  completable := ⟨p, [], (List.append_nil _).symm, by simp⟩
  dead := by
    rintro q _ later rfl heq
    have hend : Category.expr.Follows [eof] := ⟨_, _, rfl, endsExpr_eof⟩
    have hlater : Category.expr.Follows (k :: later) := ⟨_, _, rfl, hk⟩
    have hbehind := (q.unique p trivial hend hlater heq).2
    exact hne (List.cons.inj hbehind).1.symm

theorem Stuck.whole {ks : List LexemeKind} {k : LexemeKind}
    (h : Stuck .expr Category.expr.Follows ks k) : Stuck .expr (· = [eof]) ks k where
  completable := h.completable
  dead := by
    rintro q _ later rfl
    exact h.dead q [eof] later ⟨_, _, rfl, endsExpr_eof⟩

namespace Expr

variable {D offset : Nat} {cause : SyntaxCause} {ls : List Lexeme}

theorem stuckAt_of_ofLexemes (he : Ended ls) (hne : 1 < ls.length)
    (h : ofLexemes D ls = .error (.syntaxError offset cause)) :
    StuckAt .expr (· = [eof]) ls offset := by
  have hstart : (current ⟨ls, 0⟩).kind ≠ eof := by
    intro heof
    obtain ⟨offset, rfl⟩ := he.eq_of_eof heof
    simp at hne
  unfold ofLexemes at h
  rw [if_neg hstart] at h
  cases hentire : entire D ⟨ls, 0⟩ with
  | mk r c =>
    rw [hentire] at h
    cases r with
    | error err =>
      cases h
      exact (refuses_expression D ls.length he (Nat.le_refl _) hentire).imp fun _ _ _ _ => .whole
    | ok a =>
      obtain ⟨p, rest, hp, rfl, rfl⟩ := finds_expression D ls.length he (Nat.le_refl _) hentire
      simp only at h
      split at h
      · cases h
      · rename_i htrailing
        obtain ⟨k, offset', rest, rfl, -⟩ := hp.ended.exists_cons
        cases h
        exact ⟨_, k, rest, hp.spells, .trailing p hp.follows.head htrailing⟩

/-- The lexemes in front of where a source is stuck are those of a source that compiles. -/
theorem exists_completion {source : String} {before after : List Lexeme} {l : Lexeme}
    (h : tokenize source = .ok (before ++ l :: after)) {k : LexemeKind}
    (hstuck : Stuck .expr (· = [eof]) (before.map (·.kind)) k) :
    ∃ source' later, tokenize source' = .ok (before ++ later) ∧
      ∃ D e, parse source' D = .ok e := by
  obtain ⟨p, more, hp, hmore⟩ := hstuck.completable
  obtain ⟨front, back, -, hfront⟩ := exists_before h
  obtain ⟨text, htext⟩ := exists_consistsOf hmore
  obtain ⟨later, hlater, hkinds⟩ := htext.lexemes_then hfront
  have htokens : tokenize (String.ofList (front ++ ' ' :: text)) = .ok (before ++ later) := by
    rw [tokenize, String.toList_ofList, hlater]
  have hphrase : (before ++ later).map (·.kind) = p.kinds ++ [eof] := by
    rw [List.map_append, hkinds, hp, List.append_assoc]
  refine ⟨_, later, htokens, p.need, p.tree, ?_⟩
  rw [parse, htokens]
  exact (ofLexemes_of_phrase (ended_of_lexemes htokens) p hphrase _).trans (if_pos (Nat.le_refl _))

/-- The lexeme between the others is the first one that cannot be right, and the only one there. -/
structure FirstWrong (before : List Lexeme) (l : Lexeme) (after : List Lexeme) : Prop where
  only : ∀ l' ∈ before ++ after, l'.offset ≠ l.offset
  /-- A source that compiles has the lexemes in front of it, also at their offsets. -/
  completable : ∃ source later, tokenize source = .ok (before ++ later) ∧
    ∃ D e, parse source D = .ok e
  /-- No lexemes that go on with this kind are read as an expression, from a source or not. -/
  dead : ∀ ls, Ended ls → before.map (·.kind) ++ [l.kind] <+: ls.map (·.kind) →
    ∀ D e, ofLexemes D ls ≠ .ok e

/-- A syntax error points at the first lexeme that cannot be right. -/
theorem parse_syntaxError_first {source : String} {ls : List Lexeme} {D offset : Nat}
    {cause : SyntaxCause} (ht : tokenize source = .ok ls) (hne : 1 < ls.length)
    (h : parse source D = .error (.syntaxError offset cause)) :
    ∃ before l after, ls = before ++ l :: after ∧ l.offset = offset ∧ FirstWrong before l after := by
  have he : Ended ls := ended_of_lexemes ht
  have hlexemes : ofLexemes D ls = .error (.syntaxError offset cause) := by rwa [parse, ht] at h
  obtain ⟨ks, k, after, hspells, hstuck⟩ := stuckAt_of_ofLexemes he hne hlexemes
  obtain ⟨before, rfl, rfl⟩ := hspells.exists_append
  refine ⟨before, ⟨k, offset⟩, after, rfl, rfl, ?_, exists_completion ht hstuck, ?_⟩
  · -- Offsets increase from lexeme to lexeme, so no two are the same.
    obtain ⟨lead, ps, hpieces⟩ := tokenize_eq_ok_iff.mp ht
    have hincreasing := hpieces.faithful.increasing
    rw [List.map_append, List.map_cons, List.pairwise_append, List.pairwise_cons] at hincreasing
    obtain ⟨-, ⟨hafter, -⟩, hbefore⟩ := hincreasing
    intro l' hl'
    rcases List.mem_append.mp hl' with hl' | hl'
    · exact (hbefore _ (List.mem_map_of_mem hl') _ List.mem_cons_self).ne
    · exact (hafter _ (List.mem_map_of_mem hl')).ne'
  · rintro ls' he' ⟨later, hkinds⟩ D' e hok
    obtain ⟨q, hq, -⟩ := phrase_of_ofLexemes he' hok
    refine hstuck.dead q [eof] later rfl ?_
    rw [← hq, ← hkinds, List.append_assoc]
    rfl

/-- A bracket that is still open where the second case begins. -/
theorem parse_syntaxError_first_open :
    tokenize "x ? [a, b : y" = .ok [⟨.name "x", 0⟩, ⟨.symbol .question, 2⟩,
      ⟨.symbol .openBracket, 4⟩, ⟨.name "a", 5⟩, ⟨.symbol .comma, 6⟩, ⟨.name "b", 8⟩,
      ⟨.symbol .colon, 10⟩, ⟨.name "y", 12⟩, ⟨.eof, 13⟩] ∧
    parse "x ? [a, b : y" 64 =
      .error (.syntaxError 10 (.expected .comma (.symbol .colon))) ∧
    ∃ before l after, [⟨.name "x", 0⟩, ⟨.symbol .question, 2⟩, ⟨.symbol .openBracket, 4⟩,
      ⟨.name "a", 5⟩, ⟨.symbol .comma, 6⟩, ⟨.name "b", 8⟩, ⟨.symbol .colon, 10⟩, ⟨.name "y", 12⟩,
      ⟨.eof, 13⟩] = before ++ l :: after ∧ l.offset = 10 ∧ FirstWrong before l after := by
  have ht : tokenize "x ? [a, b : y" = .ok [⟨.name "x", 0⟩, ⟨.symbol .question, 2⟩,
      ⟨.symbol .openBracket, 4⟩, ⟨.name "a", 5⟩, ⟨.symbol .comma, 6⟩, ⟨.name "b", 8⟩,
      ⟨.symbol .colon, 10⟩, ⟨.name "y", 12⟩, ⟨.eof, 13⟩] := by
    have h : (tokenize "x ? [a, b : y").toOption = some [⟨.name "x", 0⟩, ⟨.symbol .question, 2⟩,
        ⟨.symbol .openBracket, 4⟩, ⟨.name "a", 5⟩, ⟨.symbol .comma, 6⟩, ⟨.name "b", 8⟩,
        ⟨.symbol .colon, 10⟩, ⟨.name "y", 12⟩, ⟨.eof, 13⟩] := by decide +kernel
    cases ht : tokenize "x ? [a, b : y" with
    | ok ls => rw [ht] at h; exact congrArg Except.ok (Option.some.inj h)
    | error e => rw [ht] at h; cases h
  have hparse : parse "x ? [a, b : y" 64 =
      .error (.syntaxError 10 (.expected .comma (.symbol .colon))) := by
    rw [parse, ht]
    rfl
  exact ⟨ht, hparse, parse_syntaxError_first ht (by simp) hparse⟩

end Expr
end TemplateBar.Template
