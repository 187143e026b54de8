import TemplateBar.Proofs.Template.Spelling

/-!
# Sources in pieces

A source that can be cut into lexemes is blanks followed by pieces, each a spelling with the blanks
behind it, and the lexemes stand where the pieces begin. What is blank and where it stands makes no
difference to the kinds of the lexemes, as long as it keeps apart what it kept apart before; and
spellings that are kept apart by single spaces are the lexemes that they spell.
-/
namespace TemplateBar.Template

open Text (isBlank byteLength)

open LexemeKind (IsSpelling)

/-- A lexeme as it is written, with the blanks behind it. -/
structure Piece where
  kind : LexemeKind
  text : List Char
  blanks : List Char

def Piece.chars (p : Piece) : List Char := p.text ++ p.blanks

def written (ps : List Piece) : List Char := ps.flatMap Piece.chars

/-- The lexemes of pieces, the first of which begins at the offset. -/
def placed (offset : Nat) : List Piece → List Lexeme
  | [] => [⟨.eof, offset⟩]
  | p :: ps => ⟨p.kind, offset⟩ :: placed (offset + byteLength p.chars) ps

/-- Pieces that are told apart as they stand. -/
inductive IsCut : List Piece → Prop
  | nil : IsCut []
  | cons {p : Piece} {ps : List Piece} (spelled : p.kind.IsSpelling p.text)
      (blank : ∀ c ∈ p.blanks, isBlank c = true) (longest : Longest p.text (p.blanks ++ written ps))
      (later : IsCut ps) : IsCut (p :: ps)

@[simp] theorem written_nil : written [] = [] := rfl

@[simp] theorem written_cons (p : Piece) (ps : List Piece) :
    written (p :: ps) = p.text ++ (p.blanks ++ written ps) := by
  simp [written, Piece.chars]

@[simp] theorem written_append (ps qs : List Piece) :
    written (ps ++ qs) = written ps ++ written qs := List.flatMap_append

@[simp] theorem byteLength_append (cs ds : List Char) :
    byteLength (cs ++ ds) = byteLength cs + byteLength ds := by
  induction cs with
  | nil => simp
  | cons c cs ih => simp [ih, Nat.add_assoc]

theorem byteLength_pos {cs : List Char} (h : cs ≠ []) : 0 < byteLength cs := by
  cases cs with
  | nil => exact absurd rfl h
  | cons c cs =>
    rw [Text.byteLength_cons]
    exact Nat.add_pos_left c.utf8Size_pos _

theorem byteLength_toList (s : String) : byteLength s.toList = s.utf8ByteSize := by
  have h (cs : List Char) : (String.ofList cs).utf8ByteSize = byteLength cs := by
    induction cs with
    | nil => rfl
    | cons c cs ih =>
      rw [← List.singleton_append, String.ofList_append, String.utf8ByteSize_append, ih,
        byteLength_append]
      simp
  rw [← h, String.ofList_toList]

/-- Where a text is cut is told by the number of bytes in front. -/
theorem eq_of_byteLength_eq {a a' b b' : List Char} (h : a ++ b = a' ++ b')
    (hl : byteLength a = byteLength a') : a = a' := by
  induction a generalizing a' with
  | nil =>
    by_contra hne
    exact absurd hl (byteLength_pos (Ne.symm hne)).ne
  | cons c a ih =>
    cases a' with
    | nil => exact absurd hl.symm (byteLength_pos (List.cons_ne_nil c a)).ne
    | cons c' a' =>
      obtain ⟨rfl, htail⟩ := List.cons.inj h
      rw [ih htail (Nat.add_left_cancel hl)]

/-! ### Cutting -/

theorem lexemes_blanks {blanks : List Char} (h : ∀ c ∈ blanks, isBlank c = true) (offset : Nat)
    (cs : List Char) : lexemes offset (blanks ++ cs) = lexemes (offset + byteLength blanks) cs := by
  induction blanks generalizing offset with
  | nil => rfl
  | cons b blanks ih =>
    rw [List.cons_append, lexemes, if_pos (h b List.mem_cons_self),
      ih fun c hc => h c (List.mem_cons_of_mem b hc), Text.byteLength_cons, Nat.add_assoc]

theorem IsCut.lexemes_eq {ps : List Piece} (h : IsCut ps) (offset : Nat) :
    lexemes offset (written ps) = .ok (placed offset ps) := by
  induction h generalizing offset with
  | nil => rw [written_nil, lexemes, placed]
  | @cons p ps spelled blank longest later ih =>
    obtain ⟨c, cs, hcs⟩ := List.exists_cons_of_ne_nil spelled.ne_nil
    have hc : isBlank c = false := spelled.head_not_blank c (by simp [hcs])
    have hwritten : written (p :: ps) = c :: (cs ++ (p.blanks ++ written ps)) := by
      rw [written_cons, hcs, List.cons_append]
    have hscan := scan_of_isSpelling spelled longest (hwritten.symm.trans (written_cons p ps)) offset
    rw [hwritten, lexemes_of_scan hc hscan, lexemes_blanks blank, ih, placed, Piece.chars,
      byteLength_append, Nat.add_assoc]
    rfl

theorem exists_cut {offset : Nat} {cs : List Char} {ls : List Lexeme}
    (h : lexemes offset cs = .ok ls) : ∃ lead ps, (∀ c ∈ lead, isBlank c = true) ∧ IsCut ps ∧
      cs = lead ++ written ps ∧ ls = placed (offset + byteLength lead) ps := by
  fun_induction lexemes offset cs generalizing ls with
  | case1 offset =>
    cases h
    exact ⟨[], [], by simp, .nil, rfl, rfl⟩
  | case2 offset c cs hc ih =>
    obtain ⟨lead, ps, hlead, hcut, rfl, rfl⟩ := ih h
    refine ⟨c :: lead, ps, ?_, hcut, rfl, by rw [Text.byteLength_cons, Nat.add_assoc]⟩
    simpa [hc] using hlead
  | case3 => simp at h
  | case4 => simp at h
  | case5 offset c cs _ s hscan ls' hls ih =>
    cases h
    obtain ⟨spelled, longest, hcs⟩ := scan_eq_ok_iff.mp hscan
    obtain ⟨blanks, ps, hblanks, hcut, hrest, rfl⟩ := ih hls
    rw [hrest] at longest hcs
    refine ⟨[], ⟨s.kind, s.text, blanks⟩ :: ps, by simp, .cons spelled hblanks longest hcut, ?_, ?_⟩
    · rw [hcs, List.nil_append, written_cons]
    · simp [placed, Piece.chars, Nat.add_assoc]

/-- What a source is cut into. -/
theorem lexemes_eq_ok_iff {offset : Nat} {cs : List Char} {ls : List Lexeme} :
    lexemes offset cs = .ok ls ↔ ∃ lead ps, (∀ c ∈ lead, isBlank c = true) ∧ IsCut ps ∧
      cs = lead ++ written ps ∧ ls = placed (offset + byteLength lead) ps := by
  refine ⟨exists_cut, ?_⟩
  rintro ⟨lead, ps, hlead, hcut, rfl, rfl⟩
  rw [lexemes_blanks hlead, hcut.lexemes_eq]

/-! ### Where the lexemes are -/

@[simp] theorem kinds_placed (offset : Nat) (ps : List Piece) :
    (placed offset ps).map (·.kind) = ps.map (·.kind) ++ [.eof] := by
  induction ps generalizing offset with
  | nil => rfl
  | cons p ps ih => simp [placed, ih]

theorem IsCut.kind_ne_eof {ps : List Piece} (h : IsCut ps) : ∀ p ∈ ps, p.kind ≠ .eof := by
  induction h with
  | nil => simp
  | cons spelled _ _ _ ih =>
    refine List.forall_mem_cons.mpr ⟨?_, ih⟩
    intro hk
    rw [hk] at spelled
    cases spelled

theorem placed_eq_append (offset : Nat) (ps : List Piece) :
    ∃ front, placed offset ps = front ++ [⟨.eof, offset + byteLength (written ps)⟩] ∧
      front.map (·.kind) = ps.map (·.kind) := by
  induction ps generalizing offset with
  | nil => exact ⟨[], rfl, rfl⟩
  | cons p ps ih =>
    obtain ⟨front, hfront, hkinds⟩ := ih (offset + byteLength p.chars)
    refine ⟨⟨p.kind, offset⟩ :: front, ?_, by simp [hkinds]⟩
    rw [placed, hfront, written_cons, ← List.append_assoc, byteLength_append, ← Piece.chars,
      Nat.add_assoc]
    rfl

theorem offset_of_mem_placed {offset : Nat} {ps : List Piece} {l : Lexeme}
    (h : l ∈ placed offset ps) :
    ∃ front back, ps = front ++ back ∧ l.offset = offset + byteLength (written front) := by
  induction ps generalizing offset with
  | nil =>
    obtain rfl := List.mem_singleton.mp h
    exact ⟨[], [], rfl, rfl⟩
  | cons p ps ih =>
    rcases List.mem_cons.mp h with rfl | h
    · exact ⟨[], p :: ps, rfl, rfl⟩
    · obtain ⟨front, back, rfl, hoffset⟩ := ih h
      refine ⟨p :: front, back, rfl, ?_⟩
      simp [hoffset, Piece.chars, Nat.add_assoc]

theorem IsCut.offsets_pairwise {ps : List Piece} (h : IsCut ps) (offset : Nat) :
    ((placed offset ps).map (·.offset)).Pairwise (· < ·) := by
  induction h generalizing offset with
  | nil => simp [placed]
  | @cons p ps spelled _ _ later ih =>
    rw [placed, List.map_cons]
    refine List.pairwise_cons.mpr ⟨fun n hn => ?_, ih _⟩
    obtain ⟨l, hl, rfl⟩ := List.mem_map.mp hn
    obtain ⟨front, back, -, hoffset⟩ := offset_of_mem_placed hl
    have hpos := byteLength_pos spelled.ne_nil
    change offset < l.offset
    rw [hoffset, Piece.chars, byteLength_append]
    omega

/-- Between two lexemes stands one piece. -/
theorem exists_piece {offset : Nat} {ps : List Piece} {front back : List Lexeme} {l l' : Lexeme}
    (h : placed offset ps = front ++ l :: l' :: back) : ∃ before p after,
      ps = before ++ p :: after ∧ l = ⟨p.kind, offset + byteLength (written before)⟩ ∧
        l'.offset = l.offset + byteLength p.chars := by
  induction front generalizing offset ps with
  | nil =>
    cases ps with
    | nil => simp [placed] at h
    | cons p ps =>
      rw [placed, List.nil_append, List.cons.injEq] at h
      obtain ⟨rfl, h⟩ := h
      refine ⟨[], p, ps, rfl, rfl, ?_⟩
      cases ps with
      | nil => exact (congrArg Lexeme.offset (List.cons.inj h).1).symm
      | cons q qs => exact (congrArg Lexeme.offset (List.cons.inj h).1).symm
  | cons f front ih =>
    cases ps with
    | nil => simp [placed] at h
    | cons p ps =>
      obtain ⟨before, q, after, rfl, hl, hl'⟩ := ih (List.cons.inj h).2
      refine ⟨p :: before, q, after, rfl, ?_, hl'⟩
      simp [hl, Piece.chars, Nat.add_assoc]

/-! ### Other blanks -/

theorem IsCut.of_append {ps qs : List Piece} (h : IsCut (ps ++ qs)) : IsCut qs := by
  induction ps with
  | nil => exact h
  | cons p ps ih =>
    cases h with
    | cons _ _ _ later => exact ih later

/-- The last pieces may be exchanged for others that begin the same, up to a blank. -/
theorem IsCut.exchange {ps qs qs' : List Piece} {front tail tail' : List Char}
    (h : IsCut (ps ++ qs)) (h' : IsCut qs') (hqs : written qs = front ++ tail)
    (hqs' : written qs' = front ++ tail') (hb : ∀ c ∈ tail'.head?, isBlank c = true) :
    IsCut (ps ++ qs') := by
  induction ps with
  | nil => exact h'
  | cons p ps ih =>
    rw [List.cons_append] at h ⊢
    cases h with
    | cons spelled blank longest later =>
      refine .cons spelled blank ?_ (ih later)
      have hsplit : p.blanks ++ written (ps ++ qs) =
          (p.blanks ++ (written ps ++ front)) ++ tail := by simp [hqs]
      have hsplit' : p.blanks ++ written (ps ++ qs') =
          (p.blanks ++ (written ps ++ front)) ++ tail' := by simp [hqs']
      rw [hsplit']
      exact Longest.cut spelled (hsplit ▸ longest) hb

/-- Blanks at the end of a text that ends in a piece are the last of the blanks of this piece. -/
theorem exists_blanks {before blanks front text behind : List Char}
    (h : before ++ blanks = front ++ (text ++ behind)) (hb : ∀ c ∈ blanks, isBlank c = true)
    (hne : text ≠ []) (hlast : ∀ c ∈ text.getLast?, isBlank c = false) :
    ∃ left, behind = left ++ blanks ∧ before = front ++ (text ++ left) := by
  rw [← List.append_assoc] at h
  rcases List.append_eq_append_iff.mp h with ⟨middle, hfront, hblanks⟩ | ⟨left, hbefore, hbehind⟩
  · cases hm : middle.getLast? with
    | none =>
      rw [List.getLast?_eq_none_iff] at hm
      subst hm
      exact ⟨[], by simpa using hblanks.symm, by simpa using hfront.symm⟩
    | some c =>
      -- Otherwise the last character of the text is one of the blanks.
      have hc : c ∈ text.getLast? := by
        have hsame := congrArg List.getLast? hfront
        rw [List.getLast?_append_of_ne_nil _ hne, List.getLast?_append, hm] at hsame
        simpa using hsame
      have hmem : c ∈ blanks := hblanks ▸ List.mem_append_left _ (List.mem_of_getLast? hm)
      exact absurd ((hb c hmem).symm.trans (hlast c hc)) (by decide)
  · exact ⟨left, hbehind, by rw [hbefore, List.append_assoc]⟩

/-- Other blanks at the end of some pieces, if they keep apart what is kept apart there. -/
theorem IsCut.respaced {lead before blanks blanks' : List Char} {ps qs : List Piece}
    (hlead : ∀ c ∈ lead, isBlank c = true) (h : IsCut (ps ++ qs))
    (hbefore : before ++ blanks = lead ++ written ps) (hb : ∀ c ∈ blanks, isBlank c = true)
    (hb' : ∀ c ∈ blanks', isBlank c = true) (hne : blanks ≠ [] → blanks' ≠ []) :
    ∃ lead' ps', (∀ c ∈ lead', isBlank c = true) ∧ IsCut (ps' ++ qs) ∧
      ps'.map (·.kind) = ps.map (·.kind) ∧ before ++ blanks' = lead' ++ written ps' := by
  by_cases hnil : blanks' = []
  · obtain rfl : blanks = [] := by_contra fun hn => hne hn hnil
    exact ⟨lead, ps, hlead, h, rfl, by rw [hnil, hbefore]⟩
  · have hhead (left : List Char) (hleft : ∀ c ∈ left, isBlank c = true) (rest : List Char) :
        ∀ c ∈ (left ++ (blanks' ++ rest)).head?, isBlank c = true := by
      intro c hc
      rw [← List.append_assoc, List.head?_append_of_ne_nil _ (by simp [hnil])] at hc
      rcases List.mem_append.mp (List.mem_of_mem_head? hc) with hc | hc
      · exact hleft c hc
      · exact hb' c hc
    rcases List.eq_nil_or_concat ps with rfl | ⟨front, q, rfl⟩
    · refine ⟨before ++ blanks', [], ?_, h, rfl, (List.append_nil _).symm⟩
      intro c hc
      rcases List.mem_append.mp hc with hc | hc
      · have hmem : c ∈ lead ++ written [] := hbefore ▸ List.mem_append_left blanks hc
        exact hlead c (by simpa using hmem)
      · exact hb' c hc
    · rw [List.concat_eq_append, List.append_assoc, List.singleton_append] at h
      cases h.of_append with
      | cons spelled blank longest later =>
        have htext : before ++ blanks = (lead ++ written front) ++ (q.text ++ q.blanks) := by
          simp [hbefore]
        obtain ⟨left, hleft, rfl⟩ := exists_blanks htext hb spelled.ne_nil spelled.last_not_blank
        have hblank : ∀ c ∈ left, isBlank c = true := fun c hc =>
          blank c (hleft ▸ List.mem_append_left blanks hc)
        let q' : Piece := { q with blanks := left ++ blanks' }
        have hq' : IsCut (q' :: qs) := by
          refine .cons spelled ?_ (longest_of_blank spelled ?_) later
          · exact List.forall_mem_append.mpr ⟨hblank, hb'⟩
          · simpa [q'] using hhead left hblank (written qs)
        refine ⟨lead, front ++ [q'], hlead, ?_, by simp [q'], by simp [q']⟩
        rw [List.append_assoc, List.singleton_append]
        have hold : written (q :: qs) = (q.text ++ left) ++ (blanks ++ written qs) := by
          simp [hleft]
        have hnew : written (q' :: qs) = (q.text ++ left) ++ (blanks' ++ written qs) := by
          simp [q']
        exact h.exchange hq' hold hnew (hhead [] (by simp) (written qs))

/-! ### Single spaces -/

/-- Spellings with one space between any two of them. -/
def spaced : List (LexemeKind × List Char) → List Piece
  | [] => []
  | [s] => [⟨s.1, s.2, []⟩]
  | s :: t :: rest => ⟨s.1, s.2, [' ']⟩ :: spaced (t :: rest)

theorem kinds_spaced (spellings : List (LexemeKind × List Char)) :
    (spaced spellings).map (·.kind) = spellings.map (·.1) := by
  fun_induction spaced spellings with
  | case1 => rfl
  | case2 => rfl
  | case3 s t rest ih => simp [ih]

theorem written_spaced (spellings : List (LexemeKind × List Char)) :
    written (spaced spellings) = [' '].intercalate (spellings.map (·.2)) := by
  fun_induction spaced spellings with
  | case1 => simp
  | case2 => simp
  | case3 s t rest ih => simp [ih]

theorem isCut_spaced {spellings : List (LexemeKind × List Char)}
    (h : ∀ s ∈ spellings, s.1.IsSpelling s.2) : IsCut (spaced spellings) := by
  fun_induction spaced spellings with
  | case1 => exact .nil
  | case2 s =>
    have hs := h s (by simp)
    exact .cons hs (by simp) (longest_of_blank hs (by simp)) .nil
  | case3 s t rest ih =>
    have hs := h s List.mem_cons_self
    refine .cons hs (by simp [isBlank]) (longest_of_blank hs (by simp [isBlank])) ?_
    exact ih fun u hu => h u (List.mem_cons_of_mem s hu)

end TemplateBar.Template
