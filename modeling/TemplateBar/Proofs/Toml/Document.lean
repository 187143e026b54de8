import TemplateBar.Proofs.Toml.Value

/-!
# Written documents are read back

Each statement is written on a line of its own and read back from it, so that the statements of a
document that is written are those that were to be written.
-/
namespace TemplateBar.Toml

variable {c : Char} {rest : List Char} {s : Statement}

def Statement.path : Statement → Path
  | entry path _ => path
  | table path => path
  | listItem path => path

/-- The path has no more keys than a path may have. -/
def Statement.IsShort (s : Statement) : Prop := s.path.parents.length < maxPath

/-- The characters that a statement may begin with. -/
def opensLine (c : Char) : Bool := opensKey c || c = '['

theorem endsPath_bracket (rest : List Char) : EndsPath (']' :: rest) where
  key := fun c hc => by
    cases hc
    decide
  point := by simp [skipSpace, StringForm.isSpace]

theorem readHeader_table {path : Path} (hp : path.parents.length < maxPath) (rest : List Char) :
    readHeader ('[' :: (path.written ++ ']' :: rest)) = some (.table path, rest) := by
  have hpath := readPath_written hp (endsPath_bracket rest)
  have hbracket : skipSpace (']' :: rest) = ']' :: rest := rfl
  obtain ⟨c, text, heq, hc⟩ := exists_path_written_eq path
  have hne : c ≠ '[' := ne_of_class hc (by decide)
  rw [heq, List.cons_append] at hpath ⊢
  unfold readHeader
  split
  · rename_i h
    exact absurd (List.cons.inj (List.cons.inj h).2).1 hne
  · rename_i h
    obtain ⟨-, rfl⟩ := List.cons.inj h
    simp [hpath, hbracket, Json.afterWord]
  · rename_i h
    exact absurd rfl (h _)

theorem readHeader_listItem {path : Path} (hp : path.parents.length < maxPath) (rest : List Char) :
    readHeader ('[' :: '[' :: (path.written ++ ']' :: ']' :: rest)) =
      some (.listItem path, rest) := by
  have hpath := readPath_written hp (endsPath_bracket (']' :: rest))
  have hbracket : skipSpace (']' :: ']' :: rest) = ']' :: ']' :: rest := rfl
  simp [readHeader, hpath, hbracket, Json.afterWord]

theorem readStatement_of_ne {cs : List Char} (h : c ≠ '[') :
    readStatement (c :: cs) =
      (readEntry (readValue maxDepth) (c :: cs)).map fun r => (.entry r.1.1 r.1.2, r.2) := by
  unfold readStatement
  split
  · rename_i heq
    exact absurd (List.cons.inj heq).1 h
  · rfl

/-- A statement stands on a line of its own, from which it is read. -/
theorem exists_line {line : List Char} (hp : s.IsShort) (h : s.written = some line) :
    ∃ c body, line = c :: (body ++ ['\n']) ∧ opensLine c = true ∧
      ∀ rest, readStatement (c :: (body ++ '\n' :: rest)) = some (s, '\n' :: rest) := by
  cases s with
  | entry path j =>
    obtain ⟨v, hv, rfl⟩ := Option.map_eq_some_iff.mp h
    obtain ⟨c, text, heq, hc⟩ := exists_path_written_eq path
    have hne : c ≠ '[' := ne_of_class hc (by decide)
    refine ⟨c, text ++ ' ' :: '=' :: ' ' :: v, by simp [heq], by simp [opensLine, hc],
      fun rest => ?_⟩
    have hentry : readEntry (readValue maxDepth)
        (path.written ++ ' ' :: '=' :: ' ' :: (v ++ '\n' :: rest)) =
          some ((path, j), '\n' :: rest) := readEntry_written hp hv rest
    rw [heq, List.cons_append] at hentry
    rw [readStatement_of_ne hne, List.append_assoc, List.cons_append, List.cons_append,
      List.cons_append, hentry]
    rfl
  | table path =>
    refine ⟨'[', path.written ++ [']'], by simpa using (Option.some.inj h).symm, by decide,
      fun rest => ?_⟩
    rw [List.append_assoc]
    exact readHeader_table hp ('\n' :: rest)
  | listItem path =>
    refine ⟨'[', '[' :: (path.written ++ [']', ']']), by simpa using (Option.some.inj h).symm,
      by decide, fun rest => ?_⟩
    rw [List.cons_append, List.append_assoc]
    exact readHeader_listItem hp ('\n' :: rest)

theorem endOfLine_newline (rest : List Char) : endOfLine ('\n' :: rest) = some rest := rfl

theorem endOfLine_of_opensLine (h : opensLine c = true) (cs : List Char) :
    skipSpace (c :: cs) = c :: cs ∧ endOfLine (c :: cs) = none := by
  have hne : c ≠ ' ' ∧ c ≠ '\t' ∧ c ≠ '#' ∧ c ≠ '\n' ∧ c ≠ '\r' := by
    refine ⟨?_, ?_, ?_, ?_, ?_⟩ <;> exact ne_of_class h (by decide)
  obtain ⟨hblank, htab, hcomment, hn, hr⟩ := hne
  have hspace : skipSpace (c :: cs) = c :: cs :=
    skipSpace_of_not_isSpace (by simp [StringForm.isSpace, hblank, htab])
  refine ⟨hspace, ?_⟩
  simp [endOfLine, hspace, hcomment, StringForm.afterLineEnd, hn, hr]

theorem statementsRest_newline (fuel : Nat) (rest : List Char) :
    statementsRest (fuel + 1) ('\n' :: rest) = statementsRest fuel rest := rfl

theorem statementsRest_line {body : List Char} (fuel : Nat) (hc : opensLine c = true)
    (h : readStatement (c :: (body ++ '\n' :: rest)) = some (s, '\n' :: rest)) :
    statementsRest (fuel + 1) (c :: (body ++ '\n' :: rest)) =
      (statementsRest fuel rest).map (s :: ·) := by
  obtain ⟨hspace, hend⟩ := endOfLine_of_opensLine hc (body ++ '\n' :: rest)
  rw [statementsRest, hspace]
  simp only [hend, h]
  cases hrest : statementsRest fuel rest <;> simp [endOfLine_newline, hrest]

theorem writtenRest_cons {isFirst : Bool} {ss : List Statement} {text : List Char}
    (h : writtenRest isFirst (s :: ss) = some text) :
    ∃ line lines, s.written = some line ∧ writtenRest false ss = some lines ∧
      text = (if s.isHeader && !isFirst then ['\n'] else []) ++ line ++ lines := by
  rw [writtenRest] at h
  simp only [Option.bind_eq_bind, Option.bind_eq_some_iff] at h
  obtain ⟨line, hline, lines, hlines, h⟩ := h
  exact ⟨line, lines, hline, hlines, (Option.some.inj h).symm⟩

theorem statementsRest_written {isFirst : Bool} {ss : List Statement} {text : List Char}
    {fuel : Nat} (hp : ∀ s ∈ ss, s.IsShort) (h : writtenRest isFirst ss = some text)
    (hf : text.length < fuel) : statementsRest fuel text = some ss := by
  induction ss generalizing isFirst text fuel with
  | nil =>
    obtain ⟨n, rfl⟩ := Nat.exists_eq_succ_of_ne_zero (Nat.ne_zero_of_lt hf)
    obtain rfl := Option.some.inj h
    rfl
  | cons s ss ih =>
    obtain ⟨line, lines, hline, hlines, rfl⟩ := writtenRest_cons h
    obtain ⟨c, body, rfl, hc, hread⟩ := exists_line (hp s List.mem_cons_self) hline
    have hlater (fuel : Nat) (hf : lines.length < fuel) : statementsRest fuel lines = some ss :=
      ih (fun s hs => hp s (List.mem_cons_of_mem _ hs)) hlines hf
    have hall (n : Nat) (hn : lines.length < n) :
        statementsRest (n + 1) (c :: (body ++ ['\n']) ++ lines) = some (s :: ss) := by
      rw [List.cons_append, List.append_assoc]
      exact (statementsRest_line n hc (hread lines)).trans (by rw [hlater n hn]; rfl)
    obtain ⟨n, rfl⟩ := Nat.exists_eq_succ_of_ne_zero (Nat.ne_zero_of_lt hf)
    by_cases hblank : (s.isHeader && !isFirst) = true
    · rw [if_pos hblank] at hf ⊢
      obtain ⟨n, rfl⟩ : ∃ k, n = k + 1 := ⟨n - 1, by simp at hf; omega⟩
      rw [List.cons_append, List.nil_append, List.cons_append, statementsRest_newline]
      exact hall n (by simp at hf; omega)
    · rw [if_neg hblank] at hf ⊢
      exact hall n (by simp at hf; omega)

/-- A document can be written if each of its statements can. -/
theorem isSome_written_iff (ss : List Statement) :
    (written ss).isSome = true ↔ ∀ s ∈ ss, s.written.isSome = true := by
  have hrest (isFirst : Bool) :
      (writtenRest isFirst ss).isSome = true ↔ ∀ s ∈ ss, s.written.isSome = true := by
    induction ss generalizing isFirst with
    | nil => simp [writtenRest]
    | cons s ss ih =>
      rw [List.forall_mem_cons, ← ih false, writtenRest]
      cases s.written <;> cases writtenRest false ss <;> simp
  rw [written, Option.isSome_map, hrest]

/-- A document that is written consists of the statements that it was written from. -/
theorem statements_written {ss : List Statement} {text : String} (hp : ∀ s ∈ ss, s.IsShort)
    (h : written ss = some text) : statements text = some ss := by
  obtain ⟨cs, hcs, rfl⟩ := Option.map_eq_some_iff.mp h
  have hmark : ∀ cs', cs ≠ '\ufeff' :: cs' := by
    cases ss with
    | nil => simp [← Option.some.inj hcs]
    | cons s ss =>
      obtain ⟨line, lines, hline, -, rfl⟩ := writtenRest_cons hcs
      obtain ⟨c, body, rfl, hc, -⟩ := exists_line (hp s List.mem_cons_self) hline
      intro cs' heq
      obtain rfl : c = '\ufeff' := by simpa using congrArg List.head? heq
      exact absurd hc (by decide)
  unfold statements
  rw [String.toList_ofList]
  split
  · exact absurd rfl (hmark _)
  · exact statementsRest_written hp hcs (Nat.lt_succ_self _)

end TemplateBar.Toml
