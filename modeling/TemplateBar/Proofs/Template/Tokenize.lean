import TemplateBar.Proofs.Template.Pieces

/-!
# Faithful lexemes

The lexemes of a source say where it was cut: they stand at boundaries of characters, in order, with
blanks in front of the first one and the end of the source as the last one, and each of them is what
its stretch of the source is read as by itself. Blanks can be put in where a lexeme begins and be
exchanged for others where there are some. And whatever kinds of lexemes are spelled with spaces
between them, these are the lexemes that come out.
-/
namespace TemplateBar.Template

open Text (isBlank byteLength isAllBlank)

open LexemeKind (IsSpelling)

/-- What the lexemes of a source say about it. -/
structure Faithful (source : String) (ls : List Lexeme) : Prop where
  /-- The end of the source comes last and nowhere else. -/
  ended : ∃ front, ls = front ++ [⟨.eof, source.utf8ByteSize⟩] ∧ ∀ l ∈ front, l.kind ≠ .eof
  increasing : (ls.map (·.offset)).Pairwise (· < ·)
  boundary : ∀ l ∈ ls, String.Pos.Raw.IsValid source ⟨l.offset⟩
  /-- In front of the first lexeme is nothing but blanks. -/
  lead : ∃ before after, source = before ++ after ∧
    ls.head?.map (·.offset) = some before.utf8ByteSize ∧ isAllBlank before = true
  /-- From one lexeme to the next the source is that lexeme by itself. -/
  slices : ∀ front l l' back, ls = front ++ l :: l' :: back → ∃ before slice after,
    source = before ++ slice ++ after ∧ before.utf8ByteSize = l.offset ∧
      (before ++ slice).utf8ByteSize = l'.offset ∧
      tokenize slice = .ok [⟨l.kind, 0⟩, ⟨.eof, slice.utf8ByteSize⟩]
  /-- Blanks in front of a lexeme, also none, may be others, but not none where there were some. -/
  spacing : ∀ before blanks after blanks', source = before ++ blanks ++ after →
    (before ++ blanks).utf8ByteSize ∈ ls.map (·.offset) → isAllBlank blanks = true →
      isAllBlank blanks' = true → (blanks ≠ "" → blanks' ≠ "") →
      ∃ ls', tokenize (before ++ blanks' ++ after) = .ok ls' ∧
        ls'.map (·.kind) = ls.map (·.kind)

theorem isAllBlank_iff {s : String} : isAllBlank s = true ↔ ∀ c ∈ s.toList, isBlank c = true := by
  rw [isAllBlank, List.all_eq_true]

/-- A source as blanks and pieces, with its lexemes. -/
structure InPieces (source : String) (lead : List Char) (ps : List Piece) (ls : List Lexeme) :
    Prop where
  blank : ∀ c ∈ lead, isBlank c = true
  cut : IsCut ps
  source : source.toList = lead ++ written ps
  lexemes : ls = placed (byteLength lead) ps

theorem tokenize_eq_ok_iff {source : String} {ls : List Lexeme} :
    tokenize source = .ok ls ↔ ∃ lead ps, InPieces source lead ps ls := by
  rw [tokenize, lexemes_eq_ok_iff]
  simp only [Nat.zero_add]
  constructor
  · rintro ⟨lead, ps, hlead, hcut, hsource, hls⟩
    exact ⟨lead, ps, hlead, hcut, hsource, hls⟩
  · rintro ⟨lead, ps, h⟩
    exact ⟨lead, ps, h.blank, h.cut, h.source, h.lexemes⟩

namespace InPieces

variable {source : String} {lead : List Char} {ps : List Piece} {ls : List Lexeme}

theorem kinds (h : InPieces source lead ps ls) :
    ls.map (·.kind) = ps.map (·.kind) ++ [.eof] := by
  rw [h.lexemes, kinds_placed]

theorem size (h : InPieces source lead ps ls) :
    source.utf8ByteSize = byteLength lead + byteLength (written ps) := by
  rw [← byteLength_toList, h.source, byteLength_append]

/-- The source in front of a lexeme is the blanks in front of it all and some of the pieces. -/
theorem before_of_mem (h : InPieces source lead ps ls) {before after : String}
    (hsource : source = before ++ after) (hoffset : before.utf8ByteSize ∈ ls.map (·.offset)) :
    ∃ front back, ps = front ++ back ∧ before.toList = lead ++ written front ∧
      after.toList = written back := by
  obtain ⟨l, hl, hbefore⟩ := List.mem_map.mp hoffset
  rw [h.lexemes] at hl
  obtain ⟨front, back, rfl, hplace⟩ := offset_of_mem_placed hl
  have hchars : before.toList ++ after.toList = (lead ++ written front) ++ written back := by
    rw [← String.toList_append, ← hsource, h.source, written_append, List.append_assoc]
  have hbytes : byteLength before.toList = byteLength (lead ++ written front) := by
    rw [byteLength_toList, ← hbefore, hplace, byteLength_append]
  have hfront := eq_of_byteLength_eq hchars hbytes
  rw [hfront] at hchars
  exact ⟨front, back, rfl, hfront, List.append_cancel_left hchars⟩

theorem ended (h : InPieces source lead ps ls) :
    ∃ front, ls = front ++ [⟨.eof, source.utf8ByteSize⟩] ∧ ∀ l ∈ front, l.kind ≠ .eof := by
  obtain ⟨front, hfront, hkinds⟩ := placed_eq_append (byteLength lead) ps
  refine ⟨front, by rw [h.lexemes, hfront, h.size], fun l hl => ?_⟩
  have hk : l.kind ∈ ps.map (·.kind) := hkinds ▸ List.mem_map_of_mem hl
  obtain ⟨p, hp, hpk⟩ := List.mem_map.mp hk
  exact hpk ▸ h.cut.kind_ne_eof p hp

theorem boundary (h : InPieces source lead ps ls) :
    ∀ l ∈ ls, String.Pos.Raw.IsValid source ⟨l.offset⟩ := by
  intro l hl
  rw [h.lexemes] at hl
  obtain ⟨front, back, rfl, hplace⟩ := offset_of_mem_placed hl
  refine String.Pos.Raw.isValid_iff_exists_append.mpr
    ⟨String.ofList (lead ++ written front), String.ofList (written back), ?_, ?_⟩
  · rw [← String.ofList_append, List.append_assoc, ← written_append, ← h.source,
      String.ofList_toList]
  · rw [String.Pos.Raw.ext_iff, String.byteIdx_rawEndPos, ← byteLength_toList,
      String.toList_ofList, byteLength_append, hplace]

theorem slices (h : InPieces source lead ps ls) {front back : List Lexeme} {l l' : Lexeme}
    (hls : ls = front ++ l :: l' :: back) : ∃ before slice after,
      source = before ++ slice ++ after ∧ before.utf8ByteSize = l.offset ∧
        (before ++ slice).utf8ByteSize = l'.offset ∧
        tokenize slice = .ok [⟨l.kind, 0⟩, ⟨.eof, slice.utf8ByteSize⟩] := by
  obtain ⟨before, p, after, rfl, rfl, hnext⟩ := exists_piece (h.lexemes.symm.trans hls)
  have hcut : IsCut [p] := by
    cases h.cut.of_append with
    | cons spelled blank _ _ =>
      refine .cons spelled blank (longest_of_blank spelled fun c hc => ?_) .nil
      rw [written_nil, List.append_nil] at hc
      exact blank c (List.mem_of_mem_head? hc)
  have hbefore : (String.ofList (lead ++ written before)).utf8ByteSize =
      byteLength lead + byteLength (written before) := by
    rw [← byteLength_toList, String.toList_ofList, byteLength_append]
  have hslice : (String.ofList p.chars).utf8ByteSize = byteLength p.chars := by
    rw [← byteLength_toList, String.toList_ofList]
  refine ⟨String.ofList (lead ++ written before), String.ofList p.chars,
    String.ofList (written after), ?_, hbefore, ?_, ?_⟩
  · rw [← String.ofList_append, ← String.ofList_append, ← String.ofList_toList (s := source),
      h.source]
    simp [Piece.chars]
  · rw [String.utf8ByteSize_append, hbefore, hslice, hnext]
  · have hone := hcut.lexemes_eq 0
    rw [tokenize, String.toList_ofList, hslice]
    simpa [Piece.chars, placed] using hone

theorem faithful (h : InPieces source lead ps ls) : Faithful source ls where
  ended := h.ended
  increasing := h.lexemes ▸ h.cut.offsets_pairwise _
  boundary := h.boundary
  lead := by
    refine ⟨String.ofList lead, String.ofList (written ps), ?_, ?_, ?_⟩
    · rw [← String.ofList_append, ← h.source, String.ofList_toList]
    · rw [← byteLength_toList, String.toList_ofList, h.lexemes]
      cases ps <;> rfl
    · rw [isAllBlank_iff, String.toList_ofList]
      exact h.blank
  slices := fun _ _ _ _ hls => h.slices hls
  spacing := by
    intro before blanks after blanks' hsource hoffset hb hb' hne
    obtain ⟨front, back, rfl, hbefore, hafter⟩ := h.before_of_mem hsource hoffset
    rw [String.toList_append] at hbefore
    obtain ⟨lead', front', hlead', hcut', hkinds, hbefore'⟩ :=
      IsCut.respaced h.blank h.cut hbefore (isAllBlank_iff.mp hb) (isAllBlank_iff.mp hb')
        (by simpa using hne)
    have hpieces : InPieces (before ++ blanks' ++ after) lead' (front' ++ back)
        (placed (byteLength lead') (front' ++ back)) :=
      ⟨hlead', hcut', by simp [hbefore', hafter], rfl⟩
    refine ⟨_, tokenize_eq_ok_iff.mpr ⟨_, _, hpieces⟩, ?_⟩
    rw [hpieces.kinds, h.kinds, List.map_append, List.map_append, hkinds]

end InPieces

/-- Spellings that are kept apart by single spaces. -/
theorem tokenize_intercalate {spellings : List (LexemeKind × String)}
    (h : ∀ s ∈ spellings, s.1.IsSpelling s.2.toList) :
    ∃ ls, tokenize (" ".intercalate (spellings.map (·.2))) = .ok ls ∧
      ls.map (·.kind) = spellings.map (·.1) ++ [.eof] := by
  let chars := spellings.map fun s => (s.1, s.2.toList)
  have hcut : IsCut (spaced chars) := by
    refine isCut_spaced fun s hs => ?_
    obtain ⟨t, ht, rfl⟩ := List.mem_map.mp hs
    exact h t ht
  have hsource : (" ".intercalate (spellings.map (·.2))).toList = written (spaced chars) := by
    rw [written_spaced, String.toList_intercalate, List.map_map, List.map_map]
    rfl
  have hpieces : InPieces (" ".intercalate (spellings.map (·.2))) [] (spaced chars)
      (placed 0 (spaced chars)) := ⟨by simp, hcut, hsource, rfl⟩
  refine ⟨_, tokenize_eq_ok_iff.mpr ⟨_, _, hpieces⟩, ?_⟩
  rw [hpieces.kinds, kinds_spaced, List.map_map]
  rfl

/-- Where a source can be cut into lexemes these are faithful to it, and any kinds of lexemes,
spelled in any way and with single spaces between them, are the kinds that come out. A string may
be spelled between quotes of either sort, with the backslash and that quote escaped. -/
theorem tokenize_faithful :
    (∀ source ls, tokenize source = .ok ls → Faithful source ls) ∧
    (∀ spellings : List (LexemeKind × String), (∀ s ∈ spellings, s.1.IsSpelling s.2.toList) →
      ∃ ls, tokenize (" ".intercalate (spellings.map (·.2))) = .ok ls ∧
        ls.map (·.kind) = spellings.map (·.1) ++ [.eof]) ∧
    ∀ quote, quote = '\'' ∨ quote = '"' → ∀ s,
      (LexemeKind.string s).IsSpelling (quoted quote s.toList) := by
  refine ⟨fun source ls h => ?_, fun spellings h => tokenize_intercalate h,
    fun quote hquote s => isSpelling_quoted hquote s⟩
  obtain ⟨lead, ps, hpieces⟩ := tokenize_eq_ok_iff.mp h
  exact hpieces.faithful

/-- A number without an exponent. -/
def oneAndHalf : NumberLiteral :=
  ⟨⟨['1'], List.cons_ne_nil _ _, List.forall_mem_singleton.mpr rfl⟩,
    some ⟨['5'], List.cons_ne_nil _ _, List.forall_mem_singleton.mpr rfl⟩, none⟩

/-- A point behind a number with a fraction, which needs no blank, and a string with a blank. -/
theorem tokenize_faithful_member :
    tokenize "x!= 1.5.a+'é \"'" = .ok [⟨.name "x", 0⟩, ⟨.symbol .notEqual, 1⟩, ⟨.number 1.5, 4⟩,
      ⟨.symbol .dot, 7⟩, ⟨.name "a", 8⟩, ⟨.symbol .plus, 9⟩, ⟨.string "é \"", 10⟩, ⟨.eof, 16⟩] ∧
    Faithful "x!= 1.5.a+'é \"'" [⟨.name "x", 0⟩, ⟨.symbol .notEqual, 1⟩, ⟨.number 1.5, 4⟩,
      ⟨.symbol .dot, 7⟩, ⟨.name "a", 8⟩, ⟨.symbol .plus, 9⟩, ⟨.string "é \"", 10⟩, ⟨.eof, 16⟩] ∧
    ∃ ls, tokenize "!= 1.5 . \"é \\\"\"" = .ok ls ∧
      ls.map (·.kind) = [.symbol .notEqual, .number 1.5, .symbol .dot, .string "é \"", .eof] := by
  have hlexemes : tokenize "x!= 1.5.a+'é \"'" = .ok [⟨.name "x", 0⟩, ⟨.symbol .notEqual, 1⟩,
      ⟨.number 1.5, 4⟩, ⟨.symbol .dot, 7⟩, ⟨.name "a", 8⟩, ⟨.symbol .plus, 9⟩,
      ⟨.string "é \"", 10⟩, ⟨.eof, 16⟩] := by
    have h : (tokenize "x!= 1.5.a+'é \"'").toOption = some [⟨.name "x", 0⟩,
        ⟨.symbol .notEqual, 1⟩, ⟨.number 1.5, 4⟩, ⟨.symbol .dot, 7⟩, ⟨.name "a", 8⟩,
        ⟨.symbol .plus, 9⟩, ⟨.string "é \"", 10⟩, ⟨.eof, 16⟩] := by decide +kernel
    cases ht : tokenize "x!= 1.5.a+'é \"'" with
    | ok ls => rw [ht] at h; exact congrArg Except.ok (Option.some.inj h)
    | error e => rw [ht] at h; cases h
  have hvalue : oneAndHalf.value = 1.5 := by decide +kernel
  refine ⟨hlexemes, tokenize_faithful.1 _ _ hlexemes, ?_⟩
  obtain ⟨ls, hls, hkinds⟩ := tokenize_faithful.2.1 [(.symbol .notEqual, "!="),
    (.number oneAndHalf.value, "1.5"), (.symbol .dot, "."), (.string "é \"", "\"é \\\"\"")] (by
      simp only [List.forall_mem_cons, List.not_mem_nil, false_implies, implies_true, and_true]
      exact ⟨.symbol .notEqual, .number oneAndHalf, .symbol .dot,
        tokenize_faithful.2.2 '"' (.inr rfl) "é \""⟩)
  rw [hvalue] at hkinds
  exact ⟨ls, hls, hkinds⟩

end TemplateBar.Template
