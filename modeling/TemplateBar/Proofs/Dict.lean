import Mathlib.Data.List.Induction
import Mathlib.Data.String.Basic
import TemplateBar.Dict

/-!
# Dictionaries as finite maps

A sorted dictionary is determined by what `get?` sees, insertion and overlays keep dictionaries
sorted, and an overlay sees the entries laid over a dictionary first.
-/
namespace TemplateBar.Dict

variable {α : Type}

instance (d : Dict α) : Decidable (Sorted d) :=
  inferInstanceAs (Decidable (d.Pairwise fun a b => a.1 < b.1))

theorem sorted_nil : Sorted ([] : Dict α) := List.Pairwise.nil

theorem get?_append (d d' : Dict α) (key : String) :
    get? (d ++ d') key = (get? d key).or (get? d' key) := by
  induction d with
  | nil => rfl
  | cons e d ih =>
    obtain ⟨k, v⟩ := e
    by_cases hk : k = key
    · simp [get?, hk]
    · simpa [get?, hk] using ih

theorem mem_insert {d : Dict α} {key : String} {value : α} {e : String × α}
    (h : e ∈ insert d key value) : e = (key, value) ∨ e ∈ d := by
  induction d with
  | nil => simpa [insert] using h
  | cons a rest ih =>
    obtain ⟨k, v⟩ := a
    unfold insert at h
    split_ifs at h with hk hlt
    · exact (List.mem_cons.mp h).imp_right (List.mem_cons_of_mem _)
    · exact List.mem_cons.mp h
    · rcases List.mem_cons.mp h with rfl | h
      · exact Or.inr List.mem_cons_self
      · exact (ih h).imp_right (List.mem_cons_of_mem _)

theorem sorted_insert {d : Dict α} (hd : Sorted d) (key : String) (value : α) :
    Sorted (insert d key value) := by
  induction d with
  | nil => simp [insert, Sorted]
  | cons a rest ih =>
    obtain ⟨k, v⟩ := a
    obtain ⟨hhead, hrest⟩ := List.pairwise_cons.mp hd
    unfold insert
    split_ifs with hk hlt
    · subst hk
      exact List.pairwise_cons.mpr ⟨hhead, hrest⟩
    · refine List.pairwise_cons.mpr ⟨?_, hd⟩
      intro e he
      rcases List.mem_cons.mp he with rfl | he
      · exact hlt
      · exact hlt.trans (hhead e he)
    · refine List.pairwise_cons.mpr ⟨?_, ih hrest⟩
      intro e he
      rcases mem_insert he with rfl | he
      · exact lt_of_le_of_ne (not_lt.mp hlt) hk
      · exact hhead e he

theorem sorted_overlay {d : Dict α} (hd : Sorted d) (extra : Dict α) :
    Sorted (overlay d extra) := by
  induction extra generalizing d with
  | nil => exact hd
  | cons e rest ih => exact ih (sorted_insert hd e.1 e.2)

theorem get?_eq_none {d : Dict α} {key : String} (h : ∀ e ∈ d, key < e.1) :
    get? d key = none := by
  induction d with
  | nil => rfl
  | cons e rest ih =>
    have hne : e.1 ≠ key := (h e List.mem_cons_self).ne'
    simp only [get?, if_neg hne]
    exact ih fun e' he => h e' (List.mem_cons_of_mem _ he)

theorem mem_keys_iff {d : Dict α} {key : String} :
    key ∈ keys d ↔ (get? d key).isSome = true := by
  induction d with
  | nil => simp [keys]
  | cons e rest ih =>
    by_cases hk : e.1 = key
    · simp [keys, get?, hk]
    · simpa [keys, get?, hk, Ne.symm hk] using ih

/-- The first key of one dictionary is not before the first key of another that sees as much. -/
private theorem head_le {k : String} {v : α} {rest d : Dict α}
    (hs : Sorted ((k, v) :: rest)) (h : ∀ key, get? ((k, v) :: rest) key = get? d key)
    {l : String} {w : α} {tail : Dict α} (hd : d = (l, w) :: tail) : k ≤ l := by
  by_contra hlt
  have hnone : get? ((k, v) :: rest) l = none := by
    apply get?_eq_none
    intro e he
    rcases List.mem_cons.mp he with rfl | he
    · exact not_le.mp hlt
    · exact (not_le.mp hlt).trans ((List.pairwise_cons.mp hs).1 e he)
  rw [h l, hd] at hnone
  simp [get?] at hnone

/-- Sorted dictionaries that see the same are the same. -/
theorem ext {a b : Dict α} (ha : Sorted a) (hb : Sorted b)
    (h : ∀ key, get? a key = get? b key) : a = b := by
  induction a generalizing b with
  | nil =>
    cases b with
    | nil => rfl
    | cons e rest =>
      have he := h e.1
      simp [get?] at he
  | cons e rest ih =>
    cases b with
    | nil =>
      have he := h e.1
      simp [get?] at he
    | cons e' rest' =>
      obtain ⟨k, v⟩ := e
      obtain ⟨l, w⟩ := e'
      obtain rfl : k = l := le_antisymm (head_le ha h rfl) (head_le hb (fun key => (h key).symm) rfl)
      obtain ⟨hk, hrest⟩ := List.pairwise_cons.mp ha
      obtain ⟨hl, hrest'⟩ := List.pairwise_cons.mp hb
      have hv := h k
      simp only [get?, if_true, Option.some.injEq] at hv
      subst hv
      congr 1
      apply ih hrest hrest'
      intro key
      by_cases hkey : k = key
      · subst hkey
        rw [get?_eq_none hk, get?_eq_none hl]
      · simpa [get?, hkey] using h key

theorem get?_overlay (d extra : Dict α) (key : String) :
    get? (overlay d extra) key = (get? (ofList extra) key).or (get? d key) := by
  induction extra using List.reverseRecOn with
  | nil => rfl
  | append_singleton extra e ih =>
    have ho : ∀ d : Dict α, overlay d (extra ++ [e]) = insert (overlay d extra) e.1 e.2 := by
      intro d
      simp [overlay, List.foldl_append]
    have hl : ofList (extra ++ [e]) = insert (ofList extra) e.1 e.2 := ho []
    rw [ho, hl, get?_insert, get?_insert]
    split_ifs
    · rfl
    · exact ih

/-! ## Entries inserted one after the other -/

theorem insert_insert (d : Dict α) (key : String) (value value' : α) :
    insert (insert d key value) key value' = insert d key value' := by
  induction d with
  | nil => simp [insert]
  | cons e rest ih =>
    obtain ⟨k, v⟩ := e
    by_cases hk : k = key
    · simp [insert, hk]
    · by_cases hlt : key < k
      · simp [insert, hk, hlt]
      · simp [insert, hk, hlt, ih]

theorem ofList_append_singleton (entries : List (String × α)) (e : String × α) :
    ofList (entries ++ [e]) = insert (ofList entries) e.1 e.2 := by
  simp [ofList]

theorem insert_of_lt {d : Dict α} {key : String} {value : α} (h : ∀ e ∈ d, e.1 < key) :
    insert d key value = d ++ [(key, value)] := by
  induction d with
  | nil => rfl
  | cons e rest ih =>
    have hlt : e.1 < key := h e List.mem_cons_self
    simp [insert, hlt.ne, hlt.not_gt, ih fun e he => h e (List.mem_cons_of_mem _ he)]

/-- Entries in the order of their keys are left as they are. -/
theorem ofList_of_sorted {d : Dict α} (h : Sorted d) : ofList d = d := by
  induction d using List.reverseRecOn with
  | nil => rfl
  | append_singleton d e ih =>
    obtain ⟨hd, -, hlast⟩ := List.pairwise_append.mp h
    rw [ofList_append_singleton, ih hd]
    exact insert_of_lt fun a ha => hlast a ha e List.mem_cons_self

/-- Of entries whose keys differ, each is seen. -/
theorem get?_ofList {entries : List (String × α)} (h : (entries.map (·.1)).Nodup) (key : String) :
    get? (ofList entries) key = get? entries key := by
  induction entries using List.reverseRecOn with
  | nil => rfl
  | append_singleton entries e ih =>
    rw [List.map_append, List.nodup_append] at h
    obtain ⟨hentries, -, hlast⟩ := h
    rw [ofList_append_singleton, get?_insert, get?_append, ih hentries]
    by_cases hk : e.1 = key
    · have hnone : get? entries key = none := by
        rw [← Option.not_isSome_iff_eq_none, ← mem_keys_iff]
        exact fun hmem => hlast key hmem e.1 (by simp) hk.symm
      simp [get?, hk, hnone]
    · simp [get?, hk]

theorem nodup_of_sorted {d : Dict α} (h : Sorted d) : (d.map (·.1)).Nodup :=
  List.pairwise_map.mpr (h.imp fun hlt => hlt.ne)

theorem sorted_mapValues {β : Type} {d : Dict α} (h : Sorted d) (f : α → β) :
    Sorted (mapValues f d) :=
  List.pairwise_map.mpr h

end TemplateBar.Dict
