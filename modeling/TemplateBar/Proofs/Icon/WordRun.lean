import Mathlib.Data.List.TakeWhile
import TemplateBar.Icon.Token

/-!
# Word runs and what is found at one place

A word run is a stretch of word characters that cannot be made longer. At the beginning of a run the
search for icon references finds the run if it is one of the names, whatever the other names and
their order, and at no other place it finds anything. Behind the run it takes a size exactly when a
colon and a word run of digits follow.
-/
namespace TemplateBar

open Text (isWord isAsciiDigit isAsciiAlpha isAsciiWord)

/-- A maximal run of word characters in a text, with what is in front of it and behind it. -/
structure IsWordRun (text before word behind : List Char) : Prop where
  parts : before ++ (word ++ behind) = text
  nonempty : word ≠ []
  word : ∀ c ∈ word, isWord c = true
  left : ∀ c ∈ before.getLast?, isWord c = false
  right : ∀ c ∈ behind.head?, isWord c = false

/-- The digits of a size behind a word run: after a colon, a word run made of digits. -/
def digitsBehind : List Char → Option (List Char)
  | ':' :: cs =>
    if cs.takeWhile isWord ≠ [] ∧ (cs.takeWhile isWord).all isAsciiDigit then
      some (cs.takeWhile isWord)
    else none
  | _ => none

/-- What icon names have in common, as lists of characters. -/
structure IsNameLike (name : List Char) : Prop where
  word : ∀ c ∈ name, isWord c = true
  head : ∃ c cs, name = c :: cs ∧ isAsciiDigit c = false

theorem isAsciiDigit_of_isAsciiAlpha {c : Char} (h : isAsciiAlpha c = true) :
    isAsciiDigit c = false := by
  have h9 : ('9' : Char).val.toNat = 57 := rfl
  have ha : ('a' : Char).val.toNat = 97 := rfl
  have hA : ('A' : Char).val.toNat = 65 := rfl
  simp only [isAsciiAlpha, isAsciiDigit, Bool.or_eq_true, Bool.and_eq_true, decide_eq_true_eq,
    Bool.and_eq_false_iff, decide_eq_false_iff_not, Char.le_def, UInt32.le_iff_toNat_le] at h ⊢
  omega

theorem isWord_of_isAsciiDigit {c : Char} (h : isAsciiDigit c = true) : isWord c = true :=
  Text.isWord_of_isAsciiWord (by simp [isAsciiWord, h])

theorem isNameLike_of_isIconName {name : String} (h : isIconName name = true) :
    IsNameLike name.toList := by
  unfold isIconName at h
  cases hn : name.toList with
  | nil => simp [hn] at h
  | cons c cs =>
    simp only [hn, Bool.and_eq_true, List.all_eq_true] at h
    refine ⟨?_, c, cs, rfl, isAsciiDigit_of_isAsciiAlpha h.1⟩
    intro d hd
    rcases List.mem_cons.mp hd with rfl | hd
    · exact Text.isWord_of_isAsciiWord (by simp [isAsciiWord, h.1])
    · exact Text.isWord_of_isAsciiWord (h.2 d hd)

section

variable {α : Type} {p : α → Bool}

theorem takeWhile_append_of_stop {xs ys : List α} (hx : ∀ x ∈ xs, p x = true)
    (hy : ∀ y ∈ ys.head?, p y = false) : (xs ++ ys).takeWhile p = xs := by
  rw [List.takeWhile_append_of_pos hx]
  cases ys with
  | nil => simp
  | cons y ys => simp [hy y rfl]

theorem dropWhile_append_of_stop {xs ys : List α} (hx : ∀ x ∈ xs, p x = true)
    (hy : ∀ y ∈ ys.head?, p y = false) : (xs ++ ys).dropWhile p = ys := by
  rw [List.dropWhile_append_of_pos hx]
  cases ys with
  | nil => rfl
  | cons y ys => simp [hy y rfl]

theorem head?_dropWhile {xs : List α} : ∀ y ∈ (xs.dropWhile p).head?, p y = false := by
  intro y hy
  have hn := List.head?_dropWhile_not p xs
  rw [Option.mem_def.mp hy] at hn
  simpa using hn

end

theorem IsWordRun.takeWhile {text before word behind : List Char}
    (h : IsWordRun text before word behind) : (word ++ behind).takeWhile isWord = word :=
  takeWhile_append_of_stop h.word h.right

/-- A run is determined by the place where it begins. -/
theorem IsWordRun.unique {text before word word' behind behind' : List Char}
    (h : IsWordRun text before word behind) (h' : IsWordRun text before word' behind') :
    word = word' ∧ behind = behind' := by
  have he : word ++ behind = word' ++ behind' :=
    List.append_cancel_left (h.parts.trans h'.parts.symm)
  have hw : word = word' := by rw [← h.takeWhile, he, h'.takeWhile]
  subst hw
  exact ⟨rfl, List.append_cancel_left he⟩

namespace IconView

theorem afterName_eq_some {name cs rest : List Char} :
    afterName name cs = some rest ↔ cs = name ++ rest := by
  induction name generalizing cs with
  | nil => simp [afterName, eq_comm]
  | cons n ns ih =>
    cases cs with
    | nil => simp [afterName]
    | cons c cs =>
      by_cases h : n = c
      · subst h; simp [afterName, ih]
      · simp [afterName, h, Ne.symm h]

theorem isBoundary_eq_not {before after : Option Char} (h : ∃ c ∈ before, isWord c = true) :
    isBoundary before after = !after.any isWord := by
  obtain ⟨c, hc, hw⟩ := h
  rw [Option.mem_def.mp hc]
  cases after <;> simp [isBoundary, hw]

/-- A size cannot end inside a run of digits. -/
theorem sizeUpTo_inside {digits : List Char} (hd : ∀ c ∈ digits, isWord c = true)
    (tail : List Char) (count : Nat) (hc : count < digits.length) :
    sizeUpTo (digits ++ tail) count = none := by
  induction count with
  | zero => rfl
  | succ count ih =>
    have hlt : count < digits.length := by omega
    have hlast : ∃ c ∈ ((digits ++ tail).take (count + 1)).getLast?, isWord c = true := by
      refine ⟨digits[count], ?_, hd _ (List.getElem_mem hlt)⟩
      rw [List.take_append_of_le_length (by omega), List.getLast?_take]
      simp [hlt]
    have hnext : ((digits ++ tail).drop (count + 1)).head? = some digits[count + 1] := by
      rw [List.drop_append_of_le_length (by omega), List.head?_append]
      simp [hc]
    have hw : isWord digits[count + 1] = true := hd _ (List.getElem_mem hc)
    simp only [sizeUpTo, isBoundary_eq_not hlast, hnext, Option.any_some, hw, Bool.not_true,
      Bool.false_eq_true, if_false]
    exact ih hlt

theorem digitsBehind_colon (cs : List Char) :
    digitsBehind (':' :: cs) =
      if cs.takeWhile isWord ≠ [] ∧ (cs.takeWhile isWord).all isAsciiDigit then
        some (cs.takeWhile isWord)
      else none := rfl

theorem digitsBehind_of_ne_colon {cs : List Char} (h : ∀ cs', cs ≠ ':' :: cs') :
    digitsBehind cs = none := by
  unfold digitsBehind
  split
  · exact absurd rfl (h _)
  · rfl

theorem sizeAt_of_ne_colon {cs : List Char} (h : ∀ cs', cs ≠ ':' :: cs') : sizeAt cs = none := by
  unfold sizeAt
  split
  · exact absurd rfl (h _)
  · rfl

/-- All digits that follow are taken, and only if the run of word characters ends with them. -/
theorem sizeUpTo_digits (digits tail : List Char) (hd : ∀ c ∈ digits, isAsciiDigit c = true)
    (ht : ∀ c ∈ tail.head?, isAsciiDigit c = false) :
    sizeUpTo (digits ++ tail) digits.length =
      (digitsBehind (':' :: (digits ++ tail))).map fun ds => (ds, (digits ++ tail).drop ds.length) := by
  have hwords : ∀ c ∈ digits, isWord c = true := fun c hc => isWord_of_isAsciiDigit (hd c hc)
  have hrun : (digits ++ tail).takeWhile isWord = digits ++ tail.takeWhile isWord :=
    List.takeWhile_append_of_pos hwords
  rw [digitsBehind_colon, hrun]
  cases digits with
  | nil =>
    cases tail with
    | nil => simp [sizeUpTo]
    | cons c tail =>
      have hc : isAsciiDigit c = false := ht c rfl
      by_cases hw : isWord c = true <;> simp [sizeUpTo, hw, hc]
  | cons d ds =>
    have hlast : ∃ c ∈ (d :: ds).getLast?, isWord c = true := by
      refine ⟨(d :: ds).getLast (by simp), List.getLast?_eq_some_getLast (by simp), ?_⟩
      exact hwords _ (List.getLast_mem _)
    have hstep : sizeUpTo (d :: ds ++ tail) (d :: ds).length =
        if (!tail.head?.any isWord) = true then some (d :: ds, tail) else none := by
      have htake : (d :: ds ++ tail).take (ds.length + 1) = d :: ds := by simp
      have hdrop : (d :: ds ++ tail).drop (ds.length + 1) = tail := by simp
      have hin := sizeUpTo_inside hwords tail ds.length (by simp)
      rw [List.length_cons, sizeUpTo]
      simp only [htake, hdrop, hin, isBoundary_eq_not hlast]
    have hall : (d :: ds).all isAsciiDigit = true := List.all_eq_true.mpr hd
    rw [hstep]
    cases tail with
    | nil => simp [hall]
    | cons c tail =>
      by_cases hw : isWord c = true
      · have hc : isAsciiDigit c = false := ht c rfl
        simp [hw, hc]
      · simp [hw, hall]

theorem sizeAt_eq (cs : List Char) :
    sizeAt cs = (digitsBehind cs).map fun ds => (ds, cs.drop (ds.length + 1)) := by
  by_cases h : ∃ cs', cs = ':' :: cs'
  · obtain ⟨cs, rfl⟩ := h
    have hcs : cs.takeWhile isAsciiDigit ++ cs.dropWhile isAsciiDigit = cs :=
      List.takeWhile_append_dropWhile
    have hs := sizeUpTo_digits (cs.takeWhile isAsciiDigit) (cs.dropWhile isAsciiDigit)
      (fun c hc => List.mem_takeWhile_imp hc) head?_dropWhile
    rw [hcs] at hs
    exact hs
  · have hne : ∀ cs', cs ≠ ':' :: cs' := fun cs' he => h ⟨cs', he⟩
    rw [sizeAt_of_ne_colon hne, digitsBehind_of_ne_colon hne]
    rfl

/-- The reference that begins where a run of word characters begins. -/
def reference (cs : List Char) : Found :=
  match digitsBehind (cs.dropWhile isWord) with
  | some ds => ⟨cs.takeWhile isWord, some ds, (cs.dropWhile isWord).drop (ds.length + 1)⟩
  | none => ⟨cs.takeWhile isWord, none, cs.dropWhile isWord⟩

end IconView

namespace IsNameLike

open IconView

variable {name cs rest : List Char}

theorem last (hn : IsNameLike name) : ∃ c ∈ name.getLast?, isWord c = true := by
  obtain ⟨c, cs, hname, -⟩ := hn.head
  have hne : name ≠ [] := by simp [hname]
  exact ⟨name.getLast hne, List.getLast?_eq_some_getLast hne, hn.word _ (List.getLast_mem hne)⟩

theorem nameAt_of_none (hn : IsNameLike name) (h : afterName name cs = none) :
    nameAt name cs = none := by
  obtain ⟨c, cs', rfl, -⟩ := hn.head
  simp only [nameAt, h]

theorem nameAt_of_size (hn : IsNameLike name) (h : afterName name cs = some rest)
    {digits rest' : List Char} (hsize : sizeAt rest = some (digits, rest')) :
    nameAt name cs = some ⟨name, some digits, rest'⟩ := by
  obtain ⟨c, cs', rfl, -⟩ := hn.head
  simp only [nameAt, h, hsize]

theorem nameAt_of_no_size (hn : IsNameLike name) (h : afterName name cs = some rest)
    (hsize : sizeAt rest = none) :
    nameAt name cs = if rest.head?.any isWord = true then none else some ⟨name, none, rest⟩ := by
  have hb : isBoundary name.getLast? rest.head? = !rest.head?.any isWord :=
    isBoundary_eq_not hn.last
  obtain ⟨c, cs', rfl, -⟩ := hn.head
  simp only [nameAt, h, hsize, hb]
  cases rest.head?.any isWord <;> rfl

/-- A name that is a whole word run is found with the size behind the run. -/
theorem nameAt_of_eq (hn : IsNameLike name) (h : name = cs.takeWhile isWord) :
    nameAt name cs = some (reference cs) := by
  have hafter : afterName name cs = some (cs.dropWhile isWord) := by
    rw [afterName_eq_some, h, List.takeWhile_append_dropWhile]
  have hsize := sizeAt_eq (cs.dropWhile isWord)
  rw [reference, ← h]
  cases hd : digitsBehind (cs.dropWhile isWord) with
  | some ds =>
    rw [hd] at hsize
    exact hn.nameAt_of_size hafter hsize
  | none =>
    rw [hd] at hsize
    have hb : (cs.dropWhile isWord).head?.any isWord = false := by
      cases hh : (cs.dropWhile isWord).head? with
      | none => rfl
      | some c => simpa using head?_dropWhile c hh
    rw [hn.nameAt_of_no_size hafter hsize, hb]
    rfl

theorem nameAt_of_ne (hn : IsNameLike name) (h : name ≠ cs.takeWhile isWord) :
    nameAt name cs = none := by
  cases hafter : afterName name cs with
  | none => exact hn.nameAt_of_none hafter
  | some rest =>
    -- The text goes on with a word character, so neither a size nor a boundary follows.
    have hcs := afterName_eq_some.mp hafter
    have hrest : ∃ c ∈ rest.head?, isWord c = true := by
      by_contra hno
      have hstop : ∀ c ∈ rest.head?, isWord c = false :=
        fun c hc => Bool.eq_false_iff.mpr fun hword => hno ⟨c, hc, hword⟩
      apply h
      rw [hcs]
      exact (takeWhile_append_of_stop hn.word hstop).symm
    obtain ⟨c, hc, hword⟩ := hrest
    have hany : rest.head?.any isWord = true := by rw [Option.mem_def.mp hc]; exact hword
    have hsize : sizeAt rest = none := by
      refine sizeAt_of_ne_colon fun cs' hcolon => ?_
      rw [hcolon] at hc
      cases hc
      rw [Text.isWord_colon] at hword
      simp at hword
    rw [hn.nameAt_of_no_size hafter hsize, if_pos hany]

theorem nameAt_eq (hn : IsNameLike name) (cs : List Char) :
    nameAt name cs = if name = cs.takeWhile isWord then some (reference cs) else none := by
  split
  · rename_i h
    exact hn.nameAt_of_eq h
  · rename_i h
    exact hn.nameAt_of_ne h

end IsNameLike

namespace IconView

/-- Which of the names is found at a place depends neither on the other names nor on their order. -/
theorem foundAt_eq {names : List (List Char)} (hn : ∀ n ∈ names, IsNameLike n)
    (before : Option Char) (cs : List Char) :
    foundAt names before cs =
      if isBoundary before cs.head? = true ∧ cs.takeWhile isWord ∈ names then some (reference cs)
      else none := by
  have hfind : names.findSome? (fun n => nameAt n cs) =
      if cs.takeWhile isWord ∈ names then some (reference cs) else none := by
    induction names with
    | nil => rfl
    | cons n names ih =>
      rw [List.findSome?_cons, (hn n List.mem_cons_self).nameAt_eq]
      rw [ih fun m hm => hn m (List.mem_cons_of_mem _ hm)]
      by_cases h : n = cs.takeWhile isWord
      · simp [h]
      · by_cases hm : cs.takeWhile isWord ∈ names <;> simp [h, hm, Ne.symm h]
  unfold foundAt
  rw [hfind]
  by_cases hb : isBoundary before cs.head? = true <;> simp [hb]

end IconView
end TemplateBar
