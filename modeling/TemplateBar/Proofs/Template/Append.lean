import TemplateBar.Proofs.Template.Tokenize

/-!
# Sources put together

A source that is put in front of a blank keeps its lexemes, with the lexemes of what follows behind
them. So the kinds of lexemes of sources with blanks between them are those of the sources, one
after the other, and what stands in front of a lexeme has the lexemes in front of it.
-/
namespace TemplateBar.Template

open Text (isBlank byteLength)

/-- Pieces in front of a blank, or of nothing. -/
theorem IsCut.lexemes_append {ps : List Piece} (h : IsCut ps) (offset : Nat) :
    ∃ front, placed offset ps = front ++ [⟨.eof, offset + byteLength (written ps)⟩] ∧
      ∀ rest : List Char, (∀ c ∈ rest.head?, isBlank c = true) →
        lexemes offset (written ps ++ rest) =
          (lexemes (offset + byteLength (written ps)) rest).map (front ++ ·) := by
  induction h generalizing offset with
  | nil =>
    refine ⟨[], rfl, fun rest _ => ?_⟩
    cases hrest : lexemes (offset + byteLength (written [])) rest with
    | error e => exact hrest
    | ok ls => exact hrest
  | @cons p ps spelled blank longest later ih =>
    obtain ⟨front, hfront, hlater⟩ := ih (offset + byteLength p.chars)
    have hlength : offset + byteLength p.chars + byteLength (written ps) =
        offset + byteLength (written (p :: ps)) := by
      rw [written_cons, ← List.append_assoc, byteLength_append, ← Piece.chars, Nat.add_assoc]
    rw [hlength] at hfront hlater
    refine ⟨⟨p.kind, offset⟩ :: front, by rw [placed, hfront]; rfl, fun rest hrest => ?_⟩
    have hall := longest
    rw [← List.append_nil (p.blanks ++ written ps)] at hall
    have hbefore := Longest.cut spelled hall hrest
    obtain ⟨c, cs, hcs⟩ := List.exists_cons_of_ne_nil spelled.ne_nil
    have hc : isBlank c = false := spelled.head_not_blank c (by simp [hcs])
    have hwritten : written (p :: ps) ++ rest = c :: (cs ++ ((p.blanks ++ written ps) ++ rest)) := by
      rw [written_cons, hcs]
      simp
    have hscan := scan_of_isSpelling spelled hbefore
      (show c :: (cs ++ ((p.blanks ++ written ps) ++ rest)) = _ by rw [hcs]; rfl) offset
    rw [hwritten, lexemes_of_scan hc hscan, List.append_assoc, lexemes_blanks blank, Nat.add_assoc,
      ← byteLength_append, ← Piece.chars, hlater rest hrest]
    cases lexemes (offset + byteLength (written (p :: ps))) rest <;> rfl

/-- A source in front of a blank, or of nothing. -/
theorem lexemes_append {offset : Nat} {cs : List Char} {ls : List Lexeme}
    (h : lexemes offset cs = .ok ls) :
    ∃ front, ls = front ++ [⟨.eof, offset + byteLength cs⟩] ∧
      ∀ rest : List Char, (∀ c ∈ rest.head?, isBlank c = true) →
        lexemes offset (cs ++ rest) = (lexemes (offset + byteLength cs) rest).map (front ++ ·) := by
  obtain ⟨lead, ps, hlead, hcut, rfl, rfl⟩ := exists_cut h
  obtain ⟨front, hfront, happend⟩ := hcut.lexemes_append (offset + byteLength lead)
  rw [Nat.add_assoc, ← byteLength_append] at hfront happend
  refine ⟨front, hfront, fun rest hrest => ?_⟩
  rw [List.append_assoc, lexemes_blanks hlead, happend rest hrest]

/-- The text consists of lexemes of these kinds. -/
def ConsistsOf (cs : List Char) (ks : List LexemeKind) : Prop :=
  ∀ offset, ∃ ls, lexemes offset cs = .ok ls ∧ ls.map (·.kind) = ks ++ [.eof]

theorem consistsOf_nil : ConsistsOf [] [] := fun offset => ⟨_, by rw [lexemes], rfl⟩

theorem consistsOf_of_lexemes {offset : Nat} {cs : List Char} {ls : List Lexeme}
    {ks : List LexemeKind} (h : lexemes offset cs = .ok ls) (hk : ls.map (·.kind) = ks ++ [.eof]) :
    ConsistsOf cs ks := by
  obtain ⟨lead, ps, hlead, hcut, rfl, rfl⟩ := exists_cut h
  intro offset'
  refine ⟨_, lexemes_eq_ok_iff.mpr ⟨lead, ps, hlead, hcut, rfl, rfl⟩, ?_⟩
  rw [← hk, kinds_placed, kinds_placed]

theorem consistsOf_of_isSpelling {k : LexemeKind} {text : List Char} (h : k.IsSpelling text) :
    ConsistsOf text [k] := by
  have hcut : IsCut [⟨k, text, []⟩] := .cons h (by simp) (longest_of_blank h (by simp)) .nil
  have hone : lexemes 0 text = .ok (placed 0 [⟨k, text, []⟩]) := by simpa using hcut.lexemes_eq 0
  exact consistsOf_of_lexemes hone rfl

/-- A text behind a source and a blank only adds its lexemes. -/
theorem ConsistsOf.lexemes_then {offset : Nat} {cs cs' : List Char} {front : List Lexeme}
    {last : Lexeme} {ks : List LexemeKind} (h' : ConsistsOf cs' ks)
    (h : lexemes offset cs = .ok (front ++ [last])) :
    ∃ ls, lexemes offset (cs ++ ' ' :: cs') = .ok (front ++ ls) ∧
      ls.map (·.kind) = ks ++ [.eof] := by
  obtain ⟨front', hfront, happend⟩ := lexemes_append h
  obtain ⟨rfl, -⟩ := List.append_inj' hfront rfl
  obtain ⟨ls, hls, hk⟩ := h' (offset + byteLength cs + 1)
  have hblank : lexemes (offset + byteLength cs) (' ' :: cs') = .ok ls := by
    rw [← hls]
    exact lexemes_blanks (show ∀ c ∈ [' '], isBlank c = true by simp [isBlank]) _ _
  refine ⟨ls, ?_, hk⟩
  rw [happend (' ' :: cs') (by simp [isBlank]), hblank]
  rfl

theorem ConsistsOf.append {cs cs' : List Char} {ks ks' : List LexemeKind} (h : ConsistsOf cs ks)
    (h' : ConsistsOf cs' ks') : ConsistsOf (cs ++ ' ' :: cs') (ks ++ ks') := by
  intro offset
  obtain ⟨ls, hls, hk⟩ := h offset
  obtain ⟨front, rfl, -⟩ := lexemes_append hls
  rw [List.map_append] at hk
  have hfront : front.map (·.kind) = ks := List.append_cancel_right hk
  obtain ⟨ls', hls', hk'⟩ := h'.lexemes_then hls
  exact ⟨front ++ ls', hls', by rw [List.map_append, hfront, hk', List.append_assoc]⟩

/-- Kinds of lexemes that all have a spelling make up a text. -/
theorem exists_consistsOf {ks : List LexemeKind} (h : ∀ k ∈ ks, ∃ text, k.IsSpelling text) :
    ∃ cs, ConsistsOf cs ks := by
  induction ks with
  | nil => exact ⟨[], consistsOf_nil⟩
  | cons k ks ih =>
    obtain ⟨text, htext⟩ := h k List.mem_cons_self
    obtain ⟨cs, hcs⟩ := ih fun k' hk' => h k' (List.mem_cons_of_mem k hk')
    exact ⟨_, (consistsOf_of_isSpelling htext).append hcs⟩

theorem exists_placed {offset : Nat} {ps : List Piece} {before after : List Lexeme} {l : Lexeme}
    (h : placed offset ps = before ++ l :: after) :
    ∃ front back, ps = front ++ back ∧ placed offset front = before ++ [⟨.eof, l.offset⟩] := by
  induction before generalizing offset ps with
  | nil =>
    refine ⟨[], ps, rfl, ?_⟩
    cases ps <;> obtain ⟨rfl, -⟩ := List.cons.inj h <;> rfl
  | cons b before ih =>
    cases ps with
    | nil => simp [placed] at h
    | cons p ps =>
      obtain ⟨rfl, hlater⟩ := List.cons.inj h
      obtain ⟨front, back, rfl, hfront⟩ := ih hlater
      exact ⟨p :: front, back, rfl, congrArg (_ :: ·) hfront⟩

/-- What stands in front of a lexeme has the lexemes in front of it. -/
theorem exists_before {offset : Nat} {cs : List Char} {before after : List Lexeme} {l : Lexeme}
    (h : lexemes offset cs = .ok (before ++ l :: after)) : ∃ front back : List Char,
      cs = front ++ back ∧ lexemes offset front = .ok (before ++ [⟨.eof, l.offset⟩]) := by
  obtain ⟨lead, ps, hlead, hcut, rfl, hplaced⟩ := exists_cut h
  obtain ⟨front, back, rfl, hfront⟩ := exists_placed hplaced.symm
  have hcut' : IsCut (front ++ []) :=
    hcut.exchange .nil (show written back = [] ++ written back from rfl) rfl (by simp)
  rw [List.append_nil] at hcut'
  refine ⟨lead ++ written front, written back, by simp, ?_⟩
  rw [lexemes_blanks hlead, hcut'.lexemes_eq, hfront]

end TemplateBar.Template
