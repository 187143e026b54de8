import TemplateBar.Proofs.Icon.WordRun
import TemplateBar.Proofs.Toml.StringForm
import TemplateBar.Toml.Key

/-!
# Written keys and paths are read back

A key is read up to the first character that does not go on with it, and a path up to the first
blank or bracket behind its last key.
-/
namespace TemplateBar.Toml

open StringForm

variable {c : Char} {rest : List Char}

/-- The characters that a written key may begin with. -/
def opensKey (c : Char) : Bool := isBare c || c = '"' || c = '\''

/-- Nothing stands here that a key could go on with. -/
def EndsKey (rest : List Char) : Prop :=
  ∀ c, rest.head? = some c → opensKey c = false

/-- A key is written bare, or in a form of one line that suits it. -/
theorem writtenKey_cases (key : String) :
    (key.toList ≠ [] ∧ (∀ c ∈ key.toList, isBare c = true) ∧ writtenKey key = key.toList) ∨
      ∃ f : StringForm, f.isBlock = false ∧ f.Suits key.toList ∧
        writtenKey key = f.written key.toList := by
  unfold writtenKey
  dsimp only
  split
  · rename_i hbare
    left
    simp only [Bool.and_eq_true, Bool.not_eq_true', List.isEmpty_eq_false_iff, List.all_eq_true]
      at hbare
    exact ⟨hbare.1, hbare.2, rfl⟩
  · right
    split
    · rename_i hliteral
      exact ⟨literal, rfl, Or.inr (Bool.and_eq_true_iff.mp hliteral).2, rfl⟩
    · exact ⟨basic, rfl, Or.inl rfl, rfl⟩

theorem opensKey_quote (f : StringForm) : opensKey f.quote = true := by
  unfold quote
  split <;> decide

theorem exists_writtenKey_eq (key : String) :
    ∃ c text, writtenKey key = c :: text ∧ opensKey c = true := by
  rcases writtenKey_cases key with ⟨hne, hbare, heq⟩ | ⟨f, -, -, heq⟩
  · obtain ⟨c, text, hkey⟩ := List.exists_cons_of_ne_nil hne
    refine ⟨c, text, heq.trans hkey, ?_⟩
    simp [opensKey, hbare c (hkey ▸ List.mem_cons_self)]
  · obtain ⟨text, htext⟩ := f.exists_written_eq key.toList
    exact ⟨f.quote, text, heq.trans htext, opensKey_quote f⟩

theorem not_isSpace_of_opensKey (h : opensKey c = true) : isSpace c = false := by
  have hblank : c ≠ ' ' := ne_of_class h (by decide)
  have htab : c ≠ '\t' := ne_of_class h (by decide)
  simp [isSpace, hblank, htab]

theorem skipSpace_of_not_isSpace (h : isSpace c = false) : skipSpace (c :: rest) = c :: rest := by
  simp [skipSpace, h]

theorem skipSpace_writtenKey (key : String) (rest : List Char) :
    skipSpace (writtenKey key ++ rest) = writtenKey key ++ rest := by
  obtain ⟨c, text, heq, hc⟩ := exists_writtenKey_eq key
  rw [heq]
  exact skipSpace_of_not_isSpace (not_isSpace_of_opensKey hc)

theorem readLineString_of_isBare (h : isBare c = true) : readLineString (c :: rest) = none := by
  have hbasic : c ≠ '"' := ne_of_class h (by decide)
  have hliteral : c ≠ '\'' := ne_of_class h (by decide)
  simp [readLineString, hbasic, hliteral]

theorem readKey_of_readLineString {cs : List Char} {key : String}
    (hs : skipSpace cs = cs) (h : readLineString cs = some (key, rest)) :
    readKey cs = some (key, skipSpace rest) := by
  unfold readKey
  rw [hs]
  simp only [h, Option.some_or]
  rfl

theorem readKey_of_bare {word : List Char} (hne : word ≠ []) (hword : ∀ c ∈ word, isBare c = true)
    (hs : skipSpace (word ++ rest) = word ++ rest) (hr : ∀ c ∈ rest.head?, isBare c = false) :
    readKey (word ++ rest) = some (String.ofList word, skipSpace rest) := by
  have hnone : readLineString (word ++ rest) = none := by
    obtain ⟨c, cs, rfl⟩ := List.exists_cons_of_ne_nil hne
    exact readLineString_of_isBare (hword c List.mem_cons_self)
  unfold readKey
  rw [hs]
  simp only [hnone, Option.none_or, takeWhile_append_of_stop hword hr,
    dropWhile_append_of_stop hword hr]
  cases word with
  | nil => exact absurd rfl hne
  | cons c cs => rfl

theorem readKey_writtenKey (key : String) (hr : EndsKey rest) :
    readKey (writtenKey key ++ rest) = some (key, skipSpace rest) := by
  have hs := skipSpace_writtenKey key rest
  rcases writtenKey_cases key with ⟨hne, hbare, heq⟩ | ⟨f, hf, hsuits, heq⟩
  · have hend : ∀ c ∈ rest.head?, isBare c = false := fun c hc => by
      have hclosed := hr c hc
      simp only [opensKey, Bool.or_eq_false_iff] at hclosed
      exact hclosed.1.1
    rw [heq] at hs ⊢
    rw [readKey_of_bare hne hbare hs hend, String.ofList_toList]
  · have hquote : rest.head? ≠ some f.quote := fun h => by
      have hclosed := hr _ h
      simp [opensKey_quote] at hclosed
    rw [heq] at hs ⊢
    rw [readKey_of_readLineString hs (readLineString_written hf hsuits hquote),
      String.ofList_toList]

/-! ## Paths -/

/-- The keys behind the first one, a point in front of each. -/
def dotted (keys : List String) : List Char := keys.flatMap fun key => '.' :: writtenKey key

theorem intercalate_writtenKey (key : String) (keys : List String) :
    ['.'].intercalate ((key :: keys).map writtenKey) = writtenKey key ++ dotted keys := by
  induction keys generalizing key with
  | nil => simp [dotted, List.intercalate]
  | cons next keys ih =>
    have h := ih next
    simp only [List.map_cons, dotted, List.flatMap_cons] at h ⊢
    rw [List.intercalate_cons_cons, h]
    simp

/-- What may stand behind a path. -/
structure EndsPath (rest : List Char) : Prop where
  key : EndsKey rest
  point : (skipSpace rest).head? ≠ some '.'

theorem endsKey_dotted (h : EndsKey rest) (keys : List String) : EndsKey (dotted keys ++ rest) := by
  cases keys with
  | nil => exact h
  | cons key keys =>
    intro c hc
    cases hc
    decide

theorem pathRest_dotted (h : EndsPath rest) (keys : List String) {fuel : Nat}
    (hf : keys.length ≤ fuel) :
    pathRest fuel (skipSpace (dotted keys ++ rest)) = some (keys, skipSpace rest) := by
  induction keys generalizing fuel with
  | nil =>
    have hpoint := h.point
    simp only [dotted, List.flatMap_nil, List.nil_append]
    unfold pathRest
    split
    · rename_i heq
      simp [heq] at hpoint
    · rfl
  | cons key keys ih =>
    obtain ⟨n, rfl⟩ : ∃ n, fuel = n + 1 := ⟨fuel - 1, by simp at hf; omega⟩
    have hpoint : skipSpace (dotted (key :: keys) ++ rest) =
        '.' :: (writtenKey key ++ (dotted keys ++ rest)) := by
      simp [dotted, skipSpace, isSpace]
    rw [hpoint, pathRest, readKey_writtenKey key (endsKey_dotted h.key keys)]
    have hlater : pathRest n (skipSpace (dotted keys ++ rest)) = some (keys, skipSpace rest) :=
      ih (by simpa using hf)
    simp [hlater]

theorem ofKeys_append (first key : String) (parents : List String) :
    Path.ofKeys first (parents ++ [key]) = ⟨first :: parents, key⟩ := by
  induction parents generalizing first with
  | nil => rfl
  | cons next parents ih => simp [Path.ofKeys, ih]

/-- The first key of a path and the others. -/
theorem exists_keys_eq (p : Path) :
    ∃ first keys, p.keys = first :: keys ∧ keys.length = p.parents.length ∧
      Path.ofKeys first keys = p := by
  obtain ⟨parents, key⟩ := p
  cases parents with
  | nil => exact ⟨key, [], rfl, rfl, rfl⟩
  | cons first parents =>
    exact ⟨first, parents ++ [key], rfl, by simp, ofKeys_append first key parents⟩

theorem exists_path_written_eq (p : Path) :
    ∃ c text, p.written = c :: text ∧ opensKey c = true := by
  obtain ⟨first, keys, heq, -, -⟩ := exists_keys_eq p
  obtain ⟨c, text, hkey, hc⟩ := exists_writtenKey_eq first
  refine ⟨c, text ++ dotted keys, ?_, hc⟩
  rw [Path.written, heq, intercalate_writtenKey, hkey, List.cons_append]

theorem readPath_written {p : Path} (hp : p.parents.length < maxPath) (h : EndsPath rest) :
    readPath (p.written ++ rest) = some (p, skipSpace rest) := by
  obtain ⟨first, keys, heq, hlen, hpath⟩ := exists_keys_eq p
  have hread : readKey (p.written ++ rest) = some (first, skipSpace (dotted keys ++ rest)) := by
    rw [Path.written, heq, intercalate_writtenKey, List.append_assoc]
    exact readKey_writtenKey first (endsKey_dotted h.key keys)
  have hrest : pathRest maxPath (skipSpace (dotted keys ++ rest)) = some (keys, skipSpace rest) :=
    pathRest_dotted h keys (by omega)
  unfold readPath
  simp [hread, hrest, hlen, hp, hpath]

end TemplateBar.Toml
