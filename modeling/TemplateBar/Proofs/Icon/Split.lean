import TemplateBar.Proofs.Icon.Catalog
import TemplateBar.Proofs.Icon.WordRun

/-!
# The tokens of a text

The icon tokens of a text are its word runs that are registered names, each with the size behind it,
and the text tokens are the nonempty stretches in between. The invariant of the search is about the
tokens together with the text in front of each.
-/
namespace TemplateBar

open Text (isWord isAsciiDigit)

/-- A word run that is one of the names, with the size behind it. -/
def IsReference (names : List (List Char)) (text front : List Char) (token : Token) : Prop :=
  ∃ word behind, IsWordRun text front word behind ∧ word ∈ names ∧
    token = .icon (String.ofList word)
      ((digitsBehind behind).map fun digits => String.ofList (digits ++ ['p', 'x']))

namespace Token

def isIcon : Token → Bool
  | text _ => false
  | icon _ _ => true

def placed (front : List Char) : List Token → List (List Char × Token)
  | [] => []
  | t :: ts => (front, t) :: placed (front ++ t.literalChars) ts

theorem placed_append (front : List Char) (ts us : List Token) :
    placed front (ts ++ us) = placed front ts ++ placed (front ++ ts.flatMap literalChars) us := by
  induction ts generalizing front with
  | nil => simp [placed]
  | cons t ts ih => simp [placed, ih]

theorem length_le_of_mem_placed {front : List Char} {ts : List Token} {e : List Char × Token}
    (h : e ∈ placed front ts) : front.length ≤ e.1.length := by
  induction ts generalizing front with
  | nil => simp [placed] at h
  | cons t ts ih =>
    rcases List.mem_cons.mp h with rfl | h
    · exact Nat.le_refl _
    · have := ih h
      simp only [List.length_append] at this
      omega

theorem dropUnits_of_digits {cs : List Char} (h : ∀ c ∈ cs, isAsciiDigit c = true) :
    dropUnits cs = cs := by
  unfold dropUnits
  split
  · rename_i cs'
    have hx := h 'x' List.mem_cons_self
    exact absurd hx (by decide)
  · rfl

theorem literalChars_ofDigits_none (name : List Char) :
    (ofDigits name none).literalChars = name := by
  simp [ofDigits, literalChars]

theorem literalChars_ofDigits_some (name : List Char) {digits : List Char}
    (h : ∀ c ∈ digits, isAsciiDigit c = true) :
    (ofDigits name (some digits)).literalChars = name ++ ':' :: digits := by
  have hd : dropUnits digits.reverse = digits.reverse :=
    dropUnits_of_digits fun c hc => h c (List.mem_reverse.mp hc)
  simp [ofDigits, literalChars, unit, dropUnits, hd]

end Token

theorem digitsBehind_eq_some {behind digits : List Char} :
    digitsBehind behind = some digits ↔
      ∃ rest, behind = ':' :: (digits ++ rest) ∧ digits ≠ [] ∧
        (∀ c ∈ digits, isAsciiDigit c = true) ∧ ∀ c ∈ rest.head?, isWord c = false := by
  constructor
  · intro h
    unfold digitsBehind at h
    split at h
    · rename_i cs
      split at h
      · rename_i hrun
        obtain rfl := Option.some.inj h
        refine ⟨cs.dropWhile isWord, ?_, hrun.1, List.all_eq_true.mp hrun.2, head?_dropWhile⟩
        rw [List.takeWhile_append_dropWhile]
      · simp at h
    · simp at h
  · rintro ⟨rest, rfl, hne, hd, hstop⟩
    have hrun : (digits ++ rest).takeWhile isWord = digits :=
      takeWhile_append_of_stop (fun c hc => isWord_of_isAsciiDigit (hd c hc)) hstop
    rw [IconView.digitsBehind_colon, hrun, if_pos ⟨hne, List.all_eq_true.mpr hd⟩]

theorem Token.length_le_literalChars (word behind : List Char) :
    word.length ≤ (ofDigits word (digitsBehind behind)).literalChars.length := by
  cases hd : digitsBehind behind with
  | none => rw [literalChars_ofDigits_none]
  | some digits =>
    obtain ⟨-, -, -, hdigits, -⟩ := digitsBehind_eq_some.mp hd
    rw [literalChars_ofDigits_some word hdigits, List.length_append]
    omega

namespace IconView

/-- What is found at a place is a word run with the size behind it. -/
theorem reference_eq {word behind : List Char} (hw : ∀ c ∈ word, isWord c = true)
    (hstop : ∀ c ∈ behind.head?, isWord c = false) :
    ∃ rest, reference (word ++ behind) = ⟨word, digitsBehind behind, rest⟩ ∧
      word ++ behind = (Token.ofDigits word (digitsBehind behind)).literalChars ++ rest := by
  unfold reference
  rw [dropWhile_append_of_stop hw hstop, takeWhile_append_of_stop hw hstop]
  cases hd : digitsBehind behind with
  | none => exact ⟨behind, rfl, by rw [Token.literalChars_ofDigits_none]⟩
  | some digits =>
    obtain ⟨rest, rfl, -, hdigits, -⟩ := digitsBehind_eq_some.mp hd
    refine ⟨rest, by simp, ?_⟩
    rw [Token.literalChars_ofDigits_some word hdigits]
    simp

theorem isWordRun_front_iff {prior cs word behind : List Char} :
    IsWordRun (prior ++ cs) prior word behind ↔
      isBoundary prior.getLast? cs.head? = true ∧ word ≠ [] ∧
        word = cs.takeWhile isWord ∧ behind = cs.dropWhile isWord := by
  constructor
  · intro h
    have hcs : word ++ behind = cs := List.append_cancel_left h.parts
    obtain ⟨c, word', hword⟩ := List.exists_cons_of_ne_nil h.nonempty
    have hc : isWord c = true := h.word c (by simp [hword])
    have hprior : prior.getLast?.any isWord = false := by
      cases hl : prior.getLast? with
      | none => rfl
      | some b => exact h.left b hl
    have hhead : cs.head? = some c := by simp [← hcs, hword]
    refine ⟨?_, h.nonempty, ?_, ?_⟩
    · simp [isBoundary, hprior, hhead, hc]
    · rw [← hcs, takeWhile_append_of_stop h.word h.right]
    · rw [← hcs, dropWhile_append_of_stop h.word h.right]
  · rintro ⟨hb, hne, rfl, rfl⟩
    have hword : ∀ c ∈ cs.takeWhile isWord, isWord c = true :=
      fun c hc => List.mem_takeWhile_imp hc
    refine ⟨by rw [List.takeWhile_append_dropWhile], hne, hword, ?_, head?_dropWhile⟩
    cases cs with
    | nil => simp at hne
    | cons c cs =>
      have hc : isWord c = true := by
        cases hc : isWord c with
        | false => simp [hc] at hne
        | true => rfl
      intro b hl
      rw [Option.mem_def.mp hl] at hb
      simpa [isBoundary, hc] using hb

end IconView

theorem getLast?_ne_of_word {xs ys : List Char} (hl : ∀ d ∈ ys.getLast?, isWord d = false)
    (hne : xs ≠ []) (hw : ∀ d ∈ xs, isWord d = true) : xs.getLast? ≠ ys.getLast? := by
  intro he
  have hmem : xs.getLast hne ∈ ys.getLast? := by
    rw [← he, List.getLast?_eq_some_getLast hne]
    rfl
  have hword := hw _ (List.getLast_mem hne)
  rw [hl _ hmem] at hword
  simp at hword

/-- Inside a reference only the digits of the size begin where no word character is in front. -/
theorem digit_of_inside {word behind inner outer : List Char} {c : Char}
    (hw : ∀ d ∈ word, isWord d = true) (hne : inner ≠ [])
    (hl : ∀ d ∈ inner.getLast?, isWord d = false)
    (h : (Token.ofDigits word (digitsBehind behind)).literalChars = inner ++ c :: outer) :
    isAsciiDigit c = true := by
  cases hd : digitsBehind behind with
  | none =>
    rw [hd, Token.literalChars_ofDigits_none] at h
    refine absurd rfl (getLast?_ne_of_word hl hne fun d hmem => hw d ?_)
    rw [h]
    exact List.mem_append_left _ hmem
  | some digits =>
    obtain ⟨rest, -, -, hdigits, -⟩ := digitsBehind_eq_some.mp hd
    rw [hd, Token.literalChars_ofDigits_some word hdigits] at h
    rcases List.append_eq_append_iff.mp h with ⟨mid, rfl, hmid⟩ | ⟨mid, rfl, hmid⟩
    · cases mid with
      | nil =>
        rw [List.append_nil] at hne
        exact absurd (by rw [List.append_nil]) (getLast?_ne_of_word hl hne hw)
      | cons d mid =>
        obtain ⟨rfl, rfl⟩ : ':' = d ∧ digits = mid ++ c :: outer := List.cons.inj hmid
        cases mid with
        | nil => exact hdigits c (by simp)
        | cons d mid =>
          refine absurd ?_ (getLast?_ne_of_word hl (List.cons_ne_nil d mid) fun e he => ?_)
          · simp [List.getLast?_cons]
          · exact isWord_of_isAsciiDigit (hdigits e (List.mem_append_left _ he))
    · exact absurd rfl (getLast?_ne_of_word hl hne fun d hmem => hw d (List.mem_append_left _ hmem))

/-- No reference begins inside another one. -/
theorem IsReference.outside {names : List (List Char)} (hn : ∀ n ∈ names, IsNameLike n)
    {prior word behind rest front : List Char} {token : Token}
    (hw : ∀ d ∈ word, isWord d = true)
    (h : IsReference names
      (prior ++ ((Token.ofDigits word (digitsBehind behind)).literalChars ++ rest)) front token)
    (hlt : prior.length < front.length) :
    (prior ++ (Token.ofDigits word (digitsBehind behind)).literalChars).length ≤ front.length := by
  obtain ⟨word', behind', hrun, hmem, -⟩ := h
  obtain ⟨c, cs, rfl, hc⟩ := (hn word' hmem).head
  obtain ⟨inner, rfl⟩ : prior <+: front :=
    List.prefix_of_prefix_length_le (List.prefix_append _ _) ⟨_, hrun.parts⟩ (Nat.le_of_lt hlt)
  have hinner : inner ≠ [] := by
    rintro rfl
    simp at hlt
  have hparts : inner ++ (c :: cs ++ behind') =
      (Token.ofDigits word (digitsBehind behind)).literalChars ++ rest := by
    have h := hrun.parts
    rw [List.append_assoc] at h
    exact List.append_cancel_left h
  have hleft : ∀ d ∈ inner.getLast?, isWord d = false := by
    intro d hd
    refine hrun.left d ?_
    rw [List.getLast?_append, Option.mem_def.mp hd]
    rfl
  rcases List.append_eq_append_iff.mp hparts with ⟨outer, hlit, hrest⟩ | ⟨outer, rfl, -⟩
  · cases outer with
    | nil => simp [hlit]
    | cons d outer =>
      obtain ⟨rfl, -⟩ : c = d ∧ _ := List.cons.inj hrest
      rw [digit_of_inside hw hinner hleft hlit] at hc
      simp at hc
  · simp

theorem IsReference.not_at_end {names : List (List Char)} {text front : List Char} {token : Token}
    (h : IsReference names text front token) : front.length < text.length := by
  obtain ⟨word, behind, hrun, -, -⟩ := h
  have hpos := List.length_pos_of_ne_nil hrun.nonempty
  rw [← hrun.parts, List.length_append, List.length_append]
  omega

namespace IconView

theorem not_mem_placed_textToken {done front : List Char} {token : Token} (ht : token.isIcon = true)
    (collected : List Char) : (front, token) ∉ Token.placed done (textToken collected) := by
  unfold textToken
  split
  · simp [Token.placed]
  · rintro h
    rcases List.mem_singleton.mp h with ⟨⟩
    simp [Token.isIcon] at ht

theorem flatMap_textToken (collected : List Char) :
    (textToken collected).flatMap Token.literalChars = collected.reverse := by
  unfold textToken
  split
  · rename_i h
    simp [List.isEmpty_iff.mp h]
  · simp [Token.literalChars]

theorem literalChars_textToken {collected : List Char} :
    ∀ t ∈ textToken collected, t.literalChars ≠ [] := by
  unfold textToken
  split
  · simp
  · rename_i h
    simpa [Token.literalChars] using h

theorem tokensFrom_nil (names : List (List Char)) (fuel : Nat) (before : Option Char)
    (collected : List Char) : tokensFrom names fuel before collected [] = textToken collected := by
  cases fuel <;> simp [tokensFrom]

theorem last_eq {word behind rest : List Char} (prior : List Char) (hne : word ≠ []) :
    Found.last ⟨word, digitsBehind behind, rest⟩ =
      (prior ++ (Token.ofDigits word (digitsBehind behind)).literalChars).getLast? := by
  cases hd : digitsBehind behind with
  | none =>
    rw [Token.literalChars_ofDigits_none, List.getLast?_append_of_ne_nil _ hne]
    rfl
  | some digits =>
    obtain ⟨-, -, hdigits, hall, -⟩ := digitsBehind_eq_some.mp hd
    have hcons : word ++ ':' :: digits = (word ++ [':']) ++ digits := by simp
    rw [Token.literalChars_ofDigits_some word hall, hcons, ← List.append_assoc,
      List.getLast?_append_of_ne_nil _ hdigits]
    rfl

end IconView

/-- How the text `done ++ collected.reverse ++ cs` is cut from `cs` on, when `collected` holds the
characters since the last reference, the last one first. -/
inductive Cut (names : List (List Char)) :
    List Char → List Char → List Char → List Token → Prop
  | stop (done collected : List Char) : Cut names done collected [] (IconView.textToken collected)
  | skip {done collected cs : List Char} {c : Char} {tokens : List Token}
      (none_here : ∀ word behind, IsWordRun (done ++ collected.reverse ++ c :: cs)
        (done ++ collected.reverse) word behind → word ∉ names)
      (later : Cut names done (c :: collected) cs tokens) : Cut names done collected (c :: cs) tokens
  | take {done collected word behind rest : List Char} {tokens : List Token}
      (run : IsWordRun (done ++ collected.reverse ++
        ((Token.ofDigits word (digitsBehind behind)).literalChars ++ rest))
        (done ++ collected.reverse) word behind)
      (named : word ∈ names)
      (later : Cut names (done ++ collected.reverse ++
        (Token.ofDigits word (digitsBehind behind)).literalChars) [] rest tokens) :
      Cut names done collected ((Token.ofDigits word (digitsBehind behind)).literalChars ++ rest)
        (IconView.textToken collected ++ Token.ofDigits word (digitsBehind behind) :: tokens)

/-- Where a name is found, the text goes on with its reference, and so there is less left. -/
theorem IconView.reference_of_found {names : List (List Char)} (hn : ∀ n ∈ names, IsNameLike n)
    {prior cs : List Char} (hb : isBoundary prior.getLast? cs.head? = true)
    (hmem : cs.takeWhile isWord ∈ names) :
    ∃ word behind rest, IsWordRun (prior ++ cs) prior word behind ∧ word ∈ names ∧
      reference cs = ⟨word, digitsBehind behind, rest⟩ ∧
      cs = (Token.ofDigits word (digitsBehind behind)).literalChars ++ rest ∧
      rest.length < cs.length := by
  obtain ⟨d, ds, hword, -⟩ := (hn _ hmem).head
  have hne : cs.takeWhile isWord ≠ [] := by simp [hword]
  have hrun := isWordRun_front_iff.mpr ⟨hb, hne, rfl, rfl⟩
  obtain ⟨rest, href, hrest⟩ := reference_eq hrun.word hrun.right
  rw [List.takeWhile_append_dropWhile] at href hrest
  refine ⟨_, _, rest, hrun, hmem, href, hrest, ?_⟩
  have hpos := List.length_pos_of_ne_nil hne
  have hlit := Token.length_le_literalChars (cs.takeWhile isWord) (cs.dropWhile isWord)
  have htotal := congrArg List.length hrest
  rw [List.length_append] at htotal
  omega

theorem cut_tokensFrom {names : List (List Char)} (hn : ∀ n ∈ names, IsNameLike n) (fuel : Nat)
    (done collected cs : List Char) (hf : cs.length ≤ fuel) :
    Cut names done collected cs
      (IconView.tokensFrom names fuel (done ++ collected.reverse).getLast? collected cs) := by
  induction fuel generalizing done collected cs with
  | zero =>
    obtain rfl : cs = [] := List.length_eq_zero_iff.mp (Nat.le_zero.mp hf)
    rw [IconView.tokensFrom_nil]
    exact Cut.stop done collected
  | succ fuel ih =>
    cases cs with
    | nil =>
      rw [IconView.tokensFrom_nil]
      exact Cut.stop done collected
    | cons c cs =>
      have hfound := IconView.foundAt_eq hn (done ++ collected.reverse).getLast? (c :: cs)
      split at hfound
      · rename_i hhere
        obtain ⟨word, behind, rest, hrun, hmem, href, hrest, hlt⟩ :=
          IconView.reference_of_found hn hhere.1 hhere.2
        have hlater := ih (done ++ collected.reverse ++
          (Token.ofDigits word (digitsBehind behind)).literalChars) [] rest (by omega)
        rw [List.reverse_nil, List.append_nil] at hlater
        simp only [IconView.tokensFrom, hfound, href,
          IconView.last_eq (done ++ collected.reverse) hrun.nonempty]
        rw [hrest] at hrun ⊢
        exact Cut.take hrun hmem hlater
      · rename_i hno
        have hlater := ih done (c :: collected) cs (by simpa using hf)
        rw [List.reverse_cons, ← List.append_assoc, List.getLast?_concat] at hlater
        simp only [IconView.tokensFrom, hfound]
        refine Cut.skip (fun word behind hrun hmem => hno ?_) hlater
        obtain ⟨hb, -, rfl, -⟩ := IconView.isWordRun_front_iff.mp hrun
        exact ⟨hb, hmem⟩

namespace Token

theorem isChain_icon_cons {t : Token} {ts : List Token} (ht : t.isIcon = true)
    (h : ts.IsChain fun a b => a.isIcon = true ∨ b.isIcon = true) :
    (t :: ts).IsChain fun a b => a.isIcon = true ∨ b.isIcon = true := by
  cases ts with
  | nil => exact List.IsChain.singleton t
  | cons u ts => exact List.IsChain.cons_cons (Or.inl ht) h

theorem eq_text_of_isIcon {t : Token} (h : t.isIcon = false) : ∃ content, t = text content := by
  cases t with
  | text content => exact ⟨content, rfl⟩
  | icon name size => simp [isIcon] at h

end Token

namespace Cut

variable {names : List (List Char)} {done collected cs : List Char} {tokens : List Token}

/-- The icon tokens from a place on are the references from there on. -/
theorem mem_placed (hn : ∀ n ∈ names, IsNameLike n) (h : Cut names done collected cs tokens)
    {front : List Char} {token : Token} (ht : token.isIcon = true) :
    (front, token) ∈ Token.placed done tokens ↔
      (done ++ collected.reverse).length ≤ front.length ∧
        IsReference names (done ++ collected.reverse ++ cs) front token := by
  induction h with
  | stop done collected =>
    refine iff_of_false (IconView.not_mem_placed_textToken ht collected) ?_
    rintro ⟨hle, h⟩
    exact absurd hle (Nat.not_le_of_lt (by simpa using h.not_at_end))
  | @skip done collected cs c tokens none_here later ih =>
    rw [ih, List.reverse_cons, ← List.append_assoc, List.append_assoc _ [c], List.singleton_append,
      List.length_append, List.length_singleton]
    refine and_congr_left fun h => ⟨fun hle => by omega, fun hle => ?_⟩
    rcases Nat.eq_or_lt_of_le hle with heq | hlt
    · obtain ⟨word, behind, hrun, hmem, -⟩ := h
      obtain rfl := List.append_inj_left hrun.parts heq.symm
      exact absurd hmem (none_here word behind hrun)
    · exact hlt
  | @take done collected word behind rest tokens run named later ih =>
    rw [Token.placed_append, IconView.flatMap_textToken, List.mem_append, Token.placed,
      List.mem_cons, ih, or_iff_right (IconView.not_mem_placed_textToken ht collected),
      List.reverse_nil, List.append_nil]
    constructor
    · rintro (heq | ⟨hle, h⟩)
      · obtain ⟨rfl, rfl⟩ := Prod.mk.inj heq
        exact ⟨Nat.le_refl _, word, behind, run, named, rfl⟩
      · refine ⟨?_, by rwa [← List.append_assoc]⟩
        rw [List.length_append] at hle
        omega
    · rintro ⟨hle, h⟩
      rcases Nat.eq_or_lt_of_le hle with heq | hlt
      · obtain ⟨word', behind', hrun', -, rfl⟩ := h
        obtain rfl := List.append_inj_left hrun'.parts heq.symm
        obtain ⟨rfl, rfl⟩ := hrun'.unique run
        exact Or.inl rfl
      · refine Or.inr ⟨h.outside hn run.word hlt, ?_⟩
        rwa [List.append_assoc]

/-- Nothing of the text is lost. -/
theorem flatMap_literalChars (h : Cut names done collected cs tokens) :
    tokens.flatMap Token.literalChars = collected.reverse ++ cs := by
  induction h with
  | stop done collected => rw [IconView.flatMap_textToken, List.append_nil]
  | skip none_here later ih => simpa using ih
  | take run named later ih =>
    rw [List.flatMap_append, IconView.flatMap_textToken, List.flatMap_cons, ih]
    simp

theorem literalChars_ne_nil (h : Cut names done collected cs tokens) :
    ∀ t ∈ tokens, t.literalChars ≠ [] := by
  induction h with
  | stop done collected => exact IconView.literalChars_textToken
  | skip none_here later ih => exact ih
  | @take done collected word behind rest tokens run named later ih =>
    intro t ht
    rcases List.mem_append.mp ht with ht | ht
    · exact IconView.literalChars_textToken t ht
    · rcases List.mem_cons.mp ht with rfl | ht
      · intro hnil
        have hlen := Token.length_le_literalChars word behind
        rw [hnil] at hlen
        exact run.nonempty (List.length_eq_zero_iff.mp (Nat.le_zero.mp hlen))
      · exact ih t ht

/-- Of two tokens side by side one is an icon. -/
theorem isChain (h : Cut names done collected cs tokens) :
    tokens.IsChain fun a b => a.isIcon = true ∨ b.isIcon = true := by
  induction h with
  | stop done collected =>
    unfold IconView.textToken
    split
    · exact List.IsChain.nil
    · exact List.IsChain.singleton _
  | skip none_here later ih => exact ih
  | @take done collected word behind rest tokens run named later ih =>
    have hicon : (Token.ofDigits word (digitsBehind behind)).isIcon = true := rfl
    have hcons := Token.isChain_icon_cons hicon ih
    unfold IconView.textToken
    split
    · exact hcons
    · exact List.IsChain.cons_cons (Or.inr hicon) hcons

end Cut

/-- The tokens that a text should be cut into: the references, and the stretches between them. -/
structure IsSplit (names : List (List Char)) (text : List Char) (tokens : List Token) : Prop where
  icons : ∀ front token, token.isIcon = true →
    ((front, token) ∈ Token.placed [] tokens ↔ IsReference names text front token)
  whole : tokens.flatMap Token.literalChars = text
  nonempty : ∀ t ∈ tokens, t.literalChars ≠ []
  apart : tokens.IsChain fun a b => a.isIcon = true ∨ b.isIcon = true

theorem Cut.isSplit {names : List (List Char)} (hn : ∀ n ∈ names, IsNameLike n) {text : List Char}
    {tokens : List Token} (h : Cut names [] [] text tokens) : IsSplit names text tokens where
  icons front token ht := by simpa using h.mem_placed hn ht
  whole := h.flatMap_literalChars
  nonempty := h.literalChars_ne_nil
  apart := h.isChain

namespace Token

/-- A stretch of text reaches as far as the next icon. -/
theorem stretch_le {front : List Char} {a b : String} {ts us : List Token}
    (hw : a.toList ++ ts.flatMap literalChars = b.toList ++ us.flatMap literalChars)
    (hc : (text a :: ts).IsChain fun a b => a.isIcon = true ∨ b.isIcon = true)
    (hi : ∀ e ∈ placed front (text a :: ts), e.2.isIcon = true →
      e ∈ placed front (text b :: us)) : b.toList.length ≤ a.toList.length := by
  cases ts with
  | nil =>
    have hlen := congrArg List.length hw
    simp only [List.flatMap_nil, List.append_nil, List.length_append] at hlen
    omega
  | cons t ts =>
    have ht : t.isIcon = true := by
      simpa [isIcon] using (List.isChain_cons_cons.mp hc).1
    have hmem := hi (front ++ a.toList, t) (by simp [placed, literalChars]) ht
    rcases List.mem_cons.mp hmem with heq | hmem
    · have htext := (Prod.mk.inj heq).2
      rw [htext] at ht
      simp [isIcon] at ht
    · have hle := length_le_of_mem_placed hmem
      simp only [List.length_append, literalChars] at hle
      omega

theorem not_mem_placed_behind {front : List Char} {t u : Token} {us : List Token}
    (hu : u.literalChars ≠ []) : (front, t) ∉ placed (front ++ u.literalChars) us := by
  intro hmem
  have hle := length_le_of_mem_placed hmem
  have hpos := List.length_pos_of_ne_nil hu
  simp only [List.length_append] at hle
  omega

theorem eq_of_mem_placed {front : List Char} {t u : Token} {us : List Token}
    (hu : u.literalChars ≠ []) (h : (front, t) ∈ placed front (u :: us)) : t = u := by
  rcases List.mem_cons.mp h with heq | hmem
  · exact (Prod.mk.inj heq).2
  · exact absurd hmem (not_mem_placed_behind hu)

theorem head_eq_of_placed {front : List Char} {t u : Token} {ts us : List Token}
    (hi : ∀ e, e.2.isIcon = true → (e ∈ placed front (t :: ts) ↔ e ∈ placed front (u :: us)))
    (hw : (t :: ts).flatMap literalChars = (u :: us).flatMap literalChars)
    (ht : t.literalChars ≠ []) (hu : u.literalChars ≠ [])
    (htc : (t :: ts).IsChain fun a b => a.isIcon = true ∨ b.isIcon = true)
    (huc : (u :: us).IsChain fun a b => a.isIcon = true ∨ b.isIcon = true) : t = u := by
  cases hti : t.isIcon with
  | true => exact eq_of_mem_placed hu ((hi (front, t) hti).mp List.mem_cons_self)
  | false =>
    cases hui : u.isIcon with
    | true => exact (eq_of_mem_placed ht ((hi (front, u) hui).mpr List.mem_cons_self)).symm
    | false =>
      -- Two stretches at one place end at the same icon.
      obtain ⟨a, rfl⟩ := eq_text_of_isIcon hti
      obtain ⟨b, rfl⟩ := eq_text_of_isIcon hui
      have hle := stretch_le hw htc fun e he hicon => (hi e hicon).mp he
      have hge := stretch_le hw.symm huc fun e he hicon => (hi e hicon).mpr he
      have hchars := List.append_inj_left hw (Nat.le_antisymm hge hle)
      exact congrArg text (String.toList_inj.mp hchars)

/-- The icons and the text determine the tokens. -/
theorem eq_of_placed {front : List Char} {ts us : List Token}
    (hi : ∀ e, e.2.isIcon = true → (e ∈ placed front ts ↔ e ∈ placed front us))
    (hw : ts.flatMap literalChars = us.flatMap literalChars)
    (ht : ∀ t ∈ ts, t.literalChars ≠ []) (hu : ∀ t ∈ us, t.literalChars ≠ [])
    (htc : ts.IsChain fun a b => a.isIcon = true ∨ b.isIcon = true)
    (huc : us.IsChain fun a b => a.isIcon = true ∨ b.isIcon = true) : ts = us := by
  induction ts generalizing front us with
  | nil =>
    cases us with
    | nil => rfl
    | cons u us =>
      have hnil := (List.append_eq_nil_iff.mp hw.symm).1
      exact absurd hnil (hu u List.mem_cons_self)
  | cons t ts ih =>
    cases us with
    | nil =>
      have hnil := (List.append_eq_nil_iff.mp hw).1
      exact absurd hnil (ht t List.mem_cons_self)
    | cons u us =>
      have hne := ht t List.mem_cons_self
      obtain rfl := head_eq_of_placed hi hw hne (hu u List.mem_cons_self) htc huc
      have hi' : ∀ e, e.2.isIcon = true →
          (e ∈ placed (front ++ t.literalChars) ts ↔ e ∈ placed (front ++ t.literalChars) us) := by
        intro e he
        by_cases heq : e = (front, t)
        · subst heq
          exact iff_of_false (not_mem_placed_behind hne) (not_mem_placed_behind hne)
        · simpa [placed, heq] using hi e he
      refine congrArg (t :: ·) (ih hi' ?_ ?_ ?_ ?_ ?_)
      · exact List.append_cancel_left hw
      · exact fun s hs => ht s (List.mem_cons_of_mem _ hs)
      · exact fun s hs => hu s (List.mem_cons_of_mem _ hs)
      · exact htc.of_cons
      · exact huc.of_cons

end Token

theorem IsSplit.unique {names : List (List Char)} {text : List Char} {ts us : List Token}
    (h : IsSplit names text ts) (h' : IsSplit names text us) : ts = us :=
  Token.eq_of_placed (fun e he => (h.icons e.1 e.2 he).trans (h'.icons e.1 e.2 he).symm)
    (h.whole.trans h'.whole.symm) h.nonempty h'.nonempty h.apart h'.apart

theorem IsSplit.congr {names names' : List (List Char)} (hn : ∀ n, n ∈ names ↔ n ∈ names')
    {text : List Char} {tokens : List Token} (h : IsSplit names text tokens) :
    IsSplit names' text tokens where
  icons front token ht := by
    rw [h.icons front token ht]
    simp only [IsReference, hn]
  whole := h.whole
  nonempty := h.nonempty
  apart := h.apart

namespace IconView

theorem mem_searchOrder (v : IconView) (name : List Char) :
    name ∈ v.searchOrder ↔ name ∈ v.names.map String.toList := by
  simp only [searchOrder, List.mem_map, List.mem_mergeSort]

theorem isSplit_tokensFrom {names : List (List Char)} (hn : ∀ n ∈ names, IsNameLike n)
    (text : List Char) : IsSplit names text (tokensFrom names text.length none [] text) :=
  (cut_tokensFrom hn text.length [] [] text (Nat.le_refl _)).isSplit hn

end IconView

/-- The tokens of a text are its references to registered names and the stretches in between, and
nothing else, in whatever order the names are tried. -/
theorem IconCatalog.Reachable.splitText_isSplit {c : IconCatalog} (h : c.Reachable)
    (text : String) :
    (∀ tokens, c.snapshot.1.splitText text = tokens ↔
      IsSplit ((Dict.keys c.glyphs).map String.toList) text.toList tokens) ∧
    ∀ order, (∀ n, n ∈ order ↔ n ∈ c.snapshot.1.searchOrder) →
      IconView.tokensFrom order text.toList.length none [] text.toList =
        c.snapshot.1.splitText text := by
  have hsearch : ∀ n, n ∈ c.snapshot.1.searchOrder ↔
      n ∈ (Dict.keys c.glyphs).map String.toList := by
    intro n
    rw [IconView.mem_searchOrder, IconView.names, h.snapshot_glyphs]
  have hlike : ∀ n ∈ c.snapshot.1.searchOrder, IsNameLike n := by
    intro n hn
    obtain ⟨name, hname, rfl⟩ := List.mem_map.mp ((hsearch n).mp hn)
    exact isNameLike_of_isIconName (h.isIconName name hname)
  have hsplit := IconView.isSplit_tokensFrom hlike text.toList
  refine ⟨fun tokens => ⟨?_, (hsplit.congr hsearch).unique⟩, fun order horder => ?_⟩
  · rintro rfl
    exact hsplit.congr hsearch
  · have hother := IconView.isSplit_tokensFrom
      (fun n hn => hlike n ((horder n).mp hn)) text.toList
    exact (hother.congr horder).unique hsplit

/-- One name is the beginning of the other, and only one of the two sizes is one. -/
theorem splitText_bells : ∃ c : IconCatalog, c.Reachable ∧
    Dict.keys c.glyphs = ["bell", "bell_off"] ∧
    IsSplit ((Dict.keys c.glyphs).map String.toList) "bell_off:16 bell:16px".toList
      [.icon "bell_off" (some "16px"), .text " ", .icon "bell" none, .text ":16px"] := by
  have hbell : IconCatalog.empty.register "bell" "b" = .ok ⟨[("bell", "b")], none⟩ := by decide
  have hboth : IconCatalog.register ⟨[("bell", "b")], none⟩ "bell_off" "o" =
      .ok ⟨[("bell", "b"), ("bell_off", "o")], none⟩ := by decide
  have hreach := (IconCatalog.Reachable.empty.register hbell).register hboth
  obtain ⟨hsplit, horder⟩ := hreach.splitText_isSplit "bell_off:16 bell:16px"
  have hnames : ∀ n, n ∈ ["bell".toList, "bell_off".toList] ↔
      n ∈ (IconView.mk [("bell", "b"), ("bell_off", "o")]).searchOrder :=
    fun n => (IconView.mem_searchOrder ⟨[("bell", "b"), ("bell_off", "o")]⟩ n).symm
  refine ⟨_, hreach, rfl, (hsplit _).mp ?_⟩
  rw [← horder _ hnames]
  decide +kernel

end TemplateBar
