import TemplateBar.Proofs.Dict
import TemplateBar.Toml.Document

/-!
# Tables that statements make

`Reaches` says where entries go: a place in a document is reached if whatever is done there is done
to the table at that place, and the rest of the document is put around the result. A header moves to
another place, and the entries behind it make up the table there.
-/
namespace TemplateBar.Toml

open Fields (descend)

variable {place : List String} {put : Fields → Fields} {inner fields : Fields} {key : String}

namespace Fields

theorem descend_append (b : Bool) (act : Origin → Fields → Option Fields) (front back : List String)
    (origin : Origin) (fields : Fields) :
    descend b act (front ++ back) origin fields =
      descend b (descend b act back) front origin fields := by
  induction front generalizing origin fields with
  | nil => rfl
  | cons key front ih =>
    simp only [List.cons_append, descend, ih]

end Fields

/-- What is done at the place is done to the table that `put` builds the document around. -/
def Reaches (place : List String) (put : Fields → Fields) : Prop :=
  ∀ act inner, descend false act place .header (put inner) = (act .header inner).map put

theorem reaches_nil : Reaches [] id := by
  intro act inner
  simp [descend]

theorem Reaches.table (h : Reaches place put) (fields : Fields) (key : String) :
    Reaches (place ++ [key]) fun inner => put (Dict.insert fields key (.table .header inner)) := by
  intro act inner
  rw [Fields.descend_append, h]
  cases hact : act .header inner <;>
    simp [descend, hact, Dict.insert_insert]

theorem Reaches.tables (h : Reaches place put) (fields : Fields) (key : String)
    (earlier : List Fields) :
    Reaches (place ++ [key]) fun inner => put (Dict.insert fields key (.tables earlier inner)) := by
  intro act inner
  rw [Fields.descend_append, h]
  cases hact : act .header inner <;>
    simp [descend, hact, Dict.insert_insert]

/-! ## Entries -/

/-- An entry under one key. -/
def Statement.ofField (e : String × Json) : Statement := .entry ⟨[], e.1⟩ e.2

theorem add_entry (h : Reaches place put) (e : String × Json) (hk : Dict.get? inner e.1 = none) :
    Draft.add ⟨put inner, place⟩ (.ofField e) =
      some ⟨put (Dict.insert inner e.1 (.value e.2)), place⟩ := by
  have hentry : Fields.addEntry ⟨[], e.1⟩ e.2 .header inner =
      some (Dict.insert inner e.1 (.value e.2)) := by
    simp [Fields.addEntry, descend, Dict.contains, hk]
  rw [Statement.ofField, Draft.add, h, hentry]
  rfl

/-- The table of entries with keys that differ. -/
def valueFields (es : List (String × Json)) : Fields :=
  Dict.ofList (es.map fun e => (e.1, .value e.2))

theorem valueFields_append_singleton (es : List (String × Json)) (e : String × Json) :
    valueFields (es ++ [e]) = Dict.insert (valueFields es) e.1 (.value e.2) := by
  rw [valueFields, List.map_append, List.map_singleton, Dict.ofList_append_singleton]
  rfl

theorem get?_valueFields {es : List (String × Json)} (hes : (es.map (·.1)).Nodup) (key : String) :
    Dict.get? (valueFields es) key = (Dict.get? es key).map .value := by
  rw [valueFields, Dict.get?_ofList (by rw [List.map_map]; exact hes)]
  exact Dict.get?_mapValues Node.value es key

theorem add_entries (h : Reaches place put) {es : List (String × Json)}
    (hes : (es.map (·.1)).Nodup) :
    (es.map Statement.ofField).foldlM Draft.add ⟨put [], place⟩ =
      some ⟨put (valueFields es), place⟩ := by
  induction es using List.reverseRecOn with
  | nil => rfl
  | append_singleton es e ih =>
    rw [List.map_append, List.nodup_append] at hes
    obtain ⟨hfront, -, hlast⟩ := hes
    have hnew : Dict.get? (valueFields es) e.1 = none := by
      rw [get?_valueFields hfront, Option.map_eq_none_iff, ← Option.not_isSome_iff_eq_none,
        ← Dict.mem_keys_iff]
      exact fun hmem => hlast e.1 hmem e.1 (by simp) rfl
    rw [List.map_append, List.foldlM_append, ih hfront, valueFields_append_singleton]
    simp [add_entry h e hnew]

/-- A header with its entries. -/
theorem add_section (h : Reaches place put) (hk : Dict.get? inner key = none) (start : List String)
    {es : List (String × Json)} (hes : (es.map (·.1)).Nodup) :
    (Statement.table ⟨place, key⟩ :: es.map .ofField).foldlM Draft.add ⟨put inner, start⟩ =
      some ⟨put (Dict.insert inner key (.table .header (valueFields es))), place ++ [key]⟩ := by
  have hheader : Draft.add ⟨put inner, start⟩ (.table ⟨place, key⟩) =
      some ⟨put (Dict.insert inner key (.table .header [])), place ++ [key]⟩ := by
    have hadd : Fields.addTable ⟨place, key⟩ (put inner) =
        some (put (Dict.insert inner key (.table .header []))) := (h _ inner).trans (by simp [hk])
    simp [Draft.add, hadd, Path.keys]
  rw [List.foldlM_cons, hheader]
  exact add_entries (h.table inner key) hes

/-! ## Lists of tables -/

/-- The document with a list of tables under a key, if there are any. -/
def withTables (fields : Fields) (key : String) (tables : List Fields) : Fields :=
  match tables.getLast? with
  | none => fields
  | some last => Dict.insert fields key (.tables tables.dropLast last)

theorem withTables_append_singleton (tables : List Fields) (last : Fields) :
    withTables fields key (tables ++ [last]) = Dict.insert fields key (.tables tables last) := by
  simp [withTables]

theorem reaches_withTables (fields : Fields) (key : String) (tables : List Fields) :
    Reaches [key] fun inner => withTables fields key (tables ++ [inner]) := by
  simp only [withTables_append_singleton]
  exact reaches_nil.tables fields key tables

theorem add_listItem (hk : Dict.get? fields key = none) (tables : List Fields)
    (start : List String) :
    Draft.add ⟨withTables fields key tables, start⟩ (.listItem ⟨[], key⟩) =
      some ⟨withTables fields key (tables ++ [[]]), [key]⟩ := by
  rw [withTables_append_singleton]
  cases tables using List.reverseRecOn with
  | nil => simp [withTables, Draft.add, Fields.addToList, descend, hk, Path.keys]
  | append_singleton tables last =>
    rw [withTables_append_singleton]
    simp [Draft.add, Fields.addToList, descend, Path.keys, Dict.insert_insert]

/-! ## Documents -/

theorem get?_fieldsToJson (fields : Fields) (key : String) :
    Dict.get? (Node.fieldsToJson fields) key = (Dict.get? fields key).map Node.toJson := by
  induction fields with
  | nil => rfl
  | cons e fields ih =>
    obtain ⟨k, node⟩ := e
    by_cases hk : k = key
    · simp [Node.fieldsToJson, Dict.get?, hk]
    · simpa [Node.fieldsToJson, Dict.get?, hk] using ih

theorem tablesToJson_eq (tables : List Fields) :
    Node.tablesToJson tables = tables.map Fields.toJson := by
  induction tables with
  | nil => rfl
  | cons fields tables ih => simp [Node.tablesToJson, ih, Fields.toJson]

theorem toJson_tables (earlier : List Fields) (last : Fields) :
    (Node.tables earlier last).toJson = .array ((earlier ++ [last]).map Fields.toJson) := by
  simp [Node.toJson, tablesToJson_eq, Fields.toJson]

end TemplateBar.Toml
