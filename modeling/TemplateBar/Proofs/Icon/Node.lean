import Mathlib.Data.List.Chain
import TemplateBar.Icon.Node
import TemplateBar.Proofs.Icon.Split

/-!
# From a value to nodes and back

The literals of a value's tokens make up its canonical text again. Text and icon tokens take turns,
as an icon ends in a word character and no other one begins behind such. Each token becomes one
node, and an icon always finds the glyph of its name.
-/
namespace TemplateBar

open Text (isWord)
open Template (Value)

theorem Token.last_isWord {word : List Char} (hne : word ≠ [])
    (hw : ∀ c ∈ word, isWord c = true) (prior behind : List Char) :
    ∃ c ∈ (prior ++ (ofDigits word (digitsBehind behind)).literalChars).getLast?,
      isWord c = true := by
  cases hd : digitsBehind behind with
  | none =>
    rw [literalChars_ofDigits_none, List.getLast?_append_of_ne_nil _ hne]
    exact ⟨_, List.getLast?_eq_some_getLast hne, hw _ (List.getLast_mem hne)⟩
  | some digits =>
    obtain ⟨-, -, hdigits, hall, -⟩ := digitsBehind_eq_some.mp hd
    have hcons : word ++ ':' :: digits = (word ++ [':']) ++ digits := by simp
    rw [literalChars_ofDigits_some word hall, hcons, ← List.append_assoc,
      List.getLast?_append_of_ne_nil _ hdigits]
    exact ⟨_, List.getLast?_eq_some_getLast hdigits,
      isWord_of_isAsciiDigit (hall _ (List.getLast_mem hdigits))⟩

theorem Token.toList_join_literal (tokens : List Token) :
    (String.join (tokens.map literal)).toList = tokens.flatMap literalChars := by
  simp [List.flatMap_map, literal]

namespace Cut

variable {names : List (List Char)} {done collected cs : List Char} {tokens : List Token}

/-- Of two tokens side by side exactly one is an icon. The first token is an icon only where no
plain characters and no word character are in front. -/
theorem alternates (h : Cut names done collected cs tokens) :
    tokens.IsChain (fun a b => a.isIcon ≠ b.isIcon) ∧
      ∀ t ∈ tokens.head?, t.isIcon = true →
        collected = [] ∧ ∀ c ∈ done.getLast?, isWord c = false := by
  induction h with
  | stop done collected =>
    unfold IconView.textToken
    split
    · exact ⟨List.IsChain.nil, by simp⟩
    · exact ⟨List.IsChain.singleton _, by simp [Token.isIcon]⟩
  | skip none_here later ih =>
    exact ⟨ih.1, fun t ht hicon => absurd (ih.2 t ht hicon).1 (List.cons_ne_nil _ _)⟩
  | @take done collected word behind rest tokens run named later ih =>
    obtain ⟨c, hc, hword⟩ := Token.last_isWord run.nonempty run.word
      (done ++ collected.reverse) behind
    have hicon : (Token.ofDigits word (digitsBehind behind)).isIcon = true := rfl
    have hcons : (Token.ofDigits word (digitsBehind behind) :: tokens).IsChain
        fun a b => a.isIcon ≠ b.isIcon := by
      refine List.isChain_cons.mpr ⟨fun t ht heq => ?_, ih.1⟩
      have hleft := (ih.2 t ht (heq ▸ hicon)).2 c hc
      rw [hword] at hleft
      simp at hleft
    unfold IconView.textToken
    split
    · rename_i hempty
      obtain rfl : collected = [] := List.isEmpty_iff.mp hempty
      exact ⟨hcons, fun t ht _ => ⟨rfl, by simpa using run.left⟩⟩
    · refine ⟨List.IsChain.cons_cons (by rw [hicon]; simp [Token.isIcon]) hcons, ?_⟩
      simp [Token.isIcon]

/-- An icon token has one of the names. -/
theorem name_mem (h : Cut names done collected cs tokens) {name : String} {size : Option String}
    (ht : Token.icon name size ∈ tokens) : name.toList ∈ names := by
  have hplain : ∀ collected, Token.icon name size ∉ IconView.textToken collected := by
    intro collected
    unfold IconView.textToken
    split <;> simp
  induction h with
  | stop done collected => exact absurd ht (hplain collected)
  | skip none_here later ih => exact ih ht
  | @take done collected word behind rest tokens run named later ih =>
    rcases List.mem_append.mp ht with ht | ht
    · exact absurd ht (hplain collected)
    · rcases List.mem_cons.mp ht with heq | ht
      · obtain ⟨rfl, -⟩ := Token.icon.inj heq
        rwa [String.toList_ofList]
      · exact ih ht

theorem eq_nil_of_nil (h : Cut names done [] [] tokens) : tokens = [] :=
  List.eq_nil_iff_forall_not_mem.mpr fun t ht =>
    h.literalChars_ne_nil t ht (List.flatMap_eq_nil_iff.mp h.flatMap_literalChars t ht)

/-- A name on its own is one icon. -/
theorem eq_icon_of_name {word : List Char} (hword : IsNameLike word) (hname : word ∈ names)
    (h : Cut names [] [] word tokens) : tokens = [.icon (String.ofList word) none] := by
  obtain ⟨d, ds, hcons, -⟩ := hword.head
  have hrun : ∀ text, word = text → IsWordRun text [] word [] := by
    rintro text rfl
    exact ⟨by simp, by simp [hcons], hword.word, by simp, by simp⟩
  generalize htext : word = text at h
  cases h with
  | stop => simp [hcons] at htext
  | skip none_here later => exact absurd hname (none_here word [] (hrun _ htext))
  | @take _ _ word' behind rest tokens run named later =>
    obtain ⟨rfl, rfl⟩ := run.unique (hrun _ htext)
    rw [← htext]
    rw [show digitsBehind [] = none from rfl, Token.literalChars_ofDigits_none] at htext
    obtain rfl : rest = [] := List.self_eq_append_right.mp htext
    rw [later.eq_nil_of_nil]
    rfl

end Cut

/-- What a node shows, without the glyph. -/
def Node.token : Node → Token
  | text content => .text content
  | icon name size _ => .icon name size

namespace IconCatalog.Reachable

variable {c : IconCatalog}

theorem isNameLike (h : c.Reachable) : ∀ n ∈ c.snapshot.1.searchOrder, IsNameLike n := by
  intro n hn
  obtain ⟨name, hname, rfl⟩ := List.mem_map.mp ((IconView.mem_searchOrder _ _).mp hn)
  exact isNameLike_of_isIconName (h.names name hname)

theorem cut_splitText (h : c.Reachable) (text : String) :
    Cut c.snapshot.1.searchOrder [] [] text.toList (c.snapshot.1.splitText text) :=
  cut_tokensFrom h.isNameLike text.toList.length [] [] text.toList (Nat.le_refl _)

/-- A registered name on its own is split into its icon. -/
theorem splitText_name (h : c.Reachable) {name : String}
    (hname : name ∈ c.snapshot.1.names) : c.snapshot.1.splitText name = [.icon name none] := by
  have hlike := isNameLike_of_isIconName (h.names name hname)
  have hsearch : name.toList ∈ c.snapshot.1.searchOrder :=
    (IconView.mem_searchOrder _ _).mpr (List.mem_map_of_mem hname)
  rw [(h.cut_splitText name).eq_icon_of_name hlike hsearch, String.ofList_toList]

theorem glyph?_of_mem (h : c.Reachable) {text name : String} {size : Option String}
    (ht : Token.icon name size ∈ c.snapshot.1.splitText text) :
    ∃ glyph, c.snapshot.1.glyph? name = some glyph := by
  have hsearch := (h.cut_splitText text).name_mem ht
  obtain ⟨n, hn, heq⟩ := List.mem_map.mp ((IconView.mem_searchOrder _ _).mp hsearch)
  obtain rfl := String.toList_inj.mp heq
  exact Option.isSome_iff_exists.mp (Dict.mem_keys_iff.mp hn)

end IconCatalog.Reachable

namespace IconView

variable {F : Type} (v : IconView) (value : Value F)

theorem map_token_nodes : (v.nodes value).map Node.token = v.split value := by
  have htoken : ∀ t : Token, (v.node t).token = t := by
    intro t
    cases t <;> rfl
  simp [nodes, Function.comp_def, htoken]

theorem mem_split_of_mem_nodes {v : IconView} {value : Value F} {name glyph : String}
    {size : Option String} (h : Node.icon name size glyph ∈ v.nodes value) :
    Token.icon name size ∈ v.split value ∧ v.glyphOrName name = glyph := by
  obtain ⟨t, ht, heq⟩ := List.mem_map.mp h
  cases t with
  | text content => simp [node] at heq
  | icon name' size' =>
    obtain ⟨rfl, rfl, rfl⟩ := Node.icon.inj heq
    exact ⟨ht, rfl⟩

end IconView

namespace IconCatalog.Reachable

variable {c : IconCatalog}

theorem nodes_name {F : Type} (h : c.Reachable) {name glyph : String}
    (hglyph : c.snapshot.1.glyph? name = some glyph) :
    c.snapshot.1.nodes (.string name : Value F) = [.icon name none glyph] := by
  have hname : name ∈ c.snapshot.1.names := Dict.mem_keys_iff.mpr (Option.isSome_of_eq_some hglyph)
  have hsplit : c.snapshot.1.split (.string name : Value F) = [.icon name none] :=
    h.splitText_name hname
  rw [IconView.nodes, hsplit, List.map_singleton, IconView.node, IconView.glyphOrName, hglyph]
  rfl

/-- A value's tokens spell its canonical text, no text is empty, and texts and icons take turns. The
nodes are the tokens one by one, each icon with its registered glyph; so there are none exactly if
the text is empty. -/
theorem join_literal_split {F : Type} (h : c.Reachable) (value : Value F) :
    String.join ((c.snapshot.1.split value).map Token.literal) = value.canonical ∧
    (∀ content, Token.text content ∈ c.snapshot.1.split value → content ≠ "") ∧
    (c.snapshot.1.split value).IsChain (fun a b => a.isIcon ≠ b.isIcon) ∧
    (c.snapshot.1.nodes value).map Node.token = c.snapshot.1.split value ∧
    (∀ name size glyph, Node.icon name size glyph ∈ c.snapshot.1.nodes value →
      c.snapshot.1.glyph? name = some glyph) ∧
    (c.snapshot.1.nodes value = [] ↔ value.canonical = "") := by
  have hcut : Cut _ [] [] value.canonical.toList (c.snapshot.1.split value) :=
    h.cut_splitText value.canonical
  have hwhole := hcut.flatMap_literalChars
  refine ⟨?_, ?_, hcut.alternates.1, IconView.map_token_nodes _ _, ?_, ?_⟩
  · rw [← String.toList_inj, Token.toList_join_literal, hwhole]
    rfl
  · rintro content ht rfl
    exact hcut.literalChars_ne_nil _ ht rfl
  · intro name size glyph hnode
    obtain ⟨ht, rfl⟩ := IconView.mem_split_of_mem_nodes hnode
    obtain ⟨glyph, hglyph⟩ := h.glyph?_of_mem ht
    rw [IconView.glyphOrName, hglyph]
    rfl
  · rw [IconView.nodes, List.map_eq_nil_iff, ← String.toList_inj]
    constructor
    · intro hnone
      rw [hnone] at hwhole
      exact hwhole.symm
    · intro hempty
      rw [hempty] at hcut
      exact hcut.eq_nil_of_nil

/-- The digits of a size come back without the unit that the token adds. -/
theorem join_literal_split_bells : ∃ c : IconCatalog, c.Reachable ∧
    c.snapshot.1.split (.string "bell:16,bell" : Value Empty) =
      [.icon "bell" (some "16px"), .text ",", .icon "bell" none] ∧
    c.snapshot.1.nodes (.string "bell:16,bell" : Value Empty) =
      [.icon "bell" (some "16px") "b", .text ",", .icon "bell" none "b"] ∧
    String.join ((c.snapshot.1.split (.string "bell:16,bell" : Value Empty)).map Token.literal) =
      "bell:16,bell" := by
  have hbell : IconCatalog.empty.register "bell" "b" = .ok ⟨[("bell", "b")], none⟩ := by decide
  have hreach := IconCatalog.Reachable.empty.register hbell
  have hsplit : (IconView.mk [("bell", "b")]).split (.string "bell:16,bell" : Value Empty) =
      [.icon "bell" (some "16px"), .text ",", .icon "bell" none] := by
    have horder : (IconView.mk [("bell", "b")]).searchOrder = ["bell".toList] := by
      simp [IconView.searchOrder, IconView.names, Dict.keys]
    rw [IconView.split, IconView.splitText, horder]
    decide +kernel
  refine ⟨_, hreach, hsplit, ?_, (hreach.join_literal_split _).1⟩
  rw [IconView.nodes]
  exact (congrArg (List.map _) hsplit).trans (by decide +kernel)

end IconCatalog.Reachable
end TemplateBar
