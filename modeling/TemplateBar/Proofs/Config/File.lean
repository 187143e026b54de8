import TemplateBar.Config.File
import TemplateBar.Proofs.Toml.Document
import TemplateBar.Proofs.Toml.Table

/-!
# A configuration is read back from its file

The statements of a configuration make up the document whose record it is, whatever parts it has:
so each configuration whose budgets can be written is read back from what it is saved as, if it is
valid, and is rejected for the reason that it is not.
-/
namespace TemplateBar

open Toml (Statement Fields Reaches reaches_nil withTables valueFields)

theorem ModuleKind.ofName?_name (k : ModuleKind) : ofName? k.name = some k := by
  cases k <;> decide

theorem Json.mapM_string (d : Dict String) :
    (Dict.mapValues Json.string d).mapM (fun e => e.2.string?.map fun s => (e.1, s)) = some d := by
  induction d with
  | nil => rfl
  | cons e d ih =>
    rw [Dict.mapValues] at ih ⊢
    rw [List.map_cons, List.mapM_cons, ih]
    rfl

theorem Json.stringDict?_texts {d : Dict String} (h : Dict.Sorted d) :
    Json.stringDict? (.object (Dict.mapValues .string d)) = some d := by
  simp [Json.stringDict?, Json.mapM_string, Dict.ofList_of_sorted h]

namespace BarConfig

variable {c : BarConfig} {m : ModuleDefinition}

/-! ## The tables of a configuration -/

def moduleEntries (m : ModuleDefinition) : List (String × Json) :=
  [("id", .string m.id), ("kind", .string m.kind.name), ("template", .string m.template)] ++
    ModuleDefinition.optionalField "tooltip" m.tooltip ++
    ModuleDefinition.optionalField "on_click" m.onClick

def moduleFields (m : ModuleDefinition) : Fields :=
  Dict.insert (valueFields (moduleEntries m)) "style"
    (.table .header (valueFields (Dict.mapValues .string m.style)))

/-- What stands in front of all tables. -/
def startFields (c : BarConfig) : Fields :=
  if c.modules = [] then [("modules", .value (.array []))] else []

def withTable (fields : Fields) (key : String) (entries : List (String × Json)) : Fields :=
  Dict.insert fields key (.table .header (valueFields entries))

def evaluatorEntries (c : BarConfig) : List (String × Json) :=
  [("max_steps", .int c.limits.maxSteps), ("max_depth", .int c.limits.maxDepth)]

/-- The tables in front of the modules. -/
def frontFields (c : BarConfig) : Fields :=
  let general := withTable (startFields c) "general" [("log_level", .string c.logLevel)]
  let evaluator := withTable general "evaluator" (evaluatorEntries c)
  let icons := withTable evaluator "icons" (Dict.mapValues .string c.icons)
  withTable icons "translations" (Dict.mapValues .string c.translations)

def documentFields (c : BarConfig) : Fields :=
  withTables (frontFields c) "modules" (c.modules.map moduleFields)

theorem textEntries_eq (d : Dict String) :
    textEntries d = (Dict.mapValues Json.string d).map .ofField := by
  simp [textEntries, Dict.mapValues, entry, Statement.ofField]

theorem moduleStatements_eq (m : ModuleDefinition) :
    moduleStatements m = .listItem ⟨[], "modules"⟩ :: (moduleEntries m).map .ofField ++
      .table ⟨["modules"], "style"⟩ :: (Dict.mapValues Json.string m.style).map .ofField := by
  obtain ⟨id, kind, template, tooltip, onClick, style⟩ := m
  cases tooltip <;> cases onClick <;> simp [moduleStatements, moduleEntries, optionalEntry, entry,
    ModuleDefinition.optionalField, Statement.ofField, textEntries_eq]

/-- Every text table is in the order of its keys. -/
structure Ordered (c : BarConfig) : Prop where
  icons : Dict.Sorted c.icons
  translations : Dict.Sorted c.translations
  style : ∀ m ∈ c.modules, Dict.Sorted m.style

theorem nodup_moduleEntries (m : ModuleDefinition) : ((moduleEntries m).map (·.1)).Nodup := by
  obtain ⟨id, kind, template, tooltip, onClick, style⟩ := m
  cases tooltip <;> cases onClick <;> simp [moduleEntries, ModuleDefinition.optionalField]

theorem nodup_mapValues {d : Dict String} (h : Dict.Sorted d) :
    ((Dict.mapValues Json.string d).map (·.1)).Nodup :=
  Dict.nodup_of_sorted (Dict.sorted_mapValues h Json.string)

theorem get?_style (m : ModuleDefinition) :
    Dict.get? (valueFields (moduleEntries m)) "style" = none := by
  rw [Toml.get?_valueFields (nodup_moduleEntries m)]
  obtain ⟨id, kind, template, tooltip, onClick, style⟩ := m
  cases tooltip <;> cases onClick <;>
    simp [moduleEntries, ModuleDefinition.optionalField, Dict.get?]

/-- The statements of a module add its table to the list. -/
theorem add_module {fields : Fields} (hk : Dict.get? fields "modules" = none)
    (hm : Dict.Sorted m.style) (tables : List Fields) (start : List String) :
    (moduleStatements m).foldlM Toml.Draft.add ⟨withTables fields "modules" tables, start⟩ =
      some ⟨withTables fields "modules" (tables ++ [moduleFields m]), ["modules", "style"]⟩ := by
  have hplace := Toml.reaches_withTables fields "modules" tables
  have hentries := Toml.add_entries hplace (nodup_moduleEntries m)
  have hstyle := Toml.add_section hplace (get?_style m) ["modules"] (nodup_mapValues hm)
  rw [moduleStatements_eq, List.foldlM_append, List.foldlM_cons, Toml.add_listItem hk]
  simp only [Option.bind_eq_bind, Option.bind_some, hentries]
  exact hstyle

theorem add_modules {fields : Fields} (hk : Dict.get? fields "modules" = none)
    {ms : List ModuleDefinition} (hms : ∀ m ∈ ms, Dict.Sorted m.style) (tables : List Fields)
    (start : List String) :
    ((ms.flatMap moduleStatements).foldlM Toml.Draft.add
        ⟨withTables fields "modules" tables, start⟩).map (·.fields) =
      some (withTables fields "modules" (tables ++ ms.map moduleFields)) := by
  induction ms generalizing tables start with
  | nil => simp
  | cons m ms ih =>
    rw [List.flatMap_cons, List.foldlM_append, add_module hk (hms m List.mem_cons_self)]
    simp only [Option.bind_eq_bind, Option.bind_some]
    rw [ih fun m hm => hms m (List.mem_cons_of_mem _ hm)]
    simp

theorem get?_withTable (fields : Fields) (key : String) (entries : List (String × Json))
    (other : String) :
    Dict.get? (withTable fields key entries) other =
      if key = other then some (.table .header (valueFields entries)) else Dict.get? fields other :=
  Dict.get?_insert ..

theorem get?_startFields {key : String} (h : key ≠ "modules" ∨ c.modules ≠ []) :
    Dict.get? (startFields c) key = none := by
  unfold startFields
  split
  · have hkey : "modules" ≠ key := fun heq => h.elim (· heq.symm) (absurd ‹_›)
    simp [Dict.get?, hkey]
  · rfl

theorem get?_frontFields (h : c.modules ≠ []) : Dict.get? (frontFields c) "modules" = none := by
  simp [frontFields, get?_withTable, get?_startFields, h]

theorem add_table {fields : Fields} {key : String} (hk : Dict.get? fields key = none)
    (start : List String) {es : List (String × Json)} (hes : (es.map (·.1)).Nodup) :
    (Statement.table ⟨[], key⟩ :: es.map .ofField).foldlM Toml.Draft.add ⟨fields, start⟩ =
      some ⟨withTable fields key es, [key]⟩ :=
  Toml.add_section reaches_nil hk start hes

theorem add_start (c : BarConfig) :
    (if c.modules = [] then [entry "modules" (.array [])] else []).foldlM Toml.Draft.add ⟨[], []⟩ =
      some ⟨startFields c, []⟩ := by
  unfold startFields
  split
  · have hadd : Toml.Draft.add ⟨[], []⟩ (entry "modules" (.array [])) =
        some ⟨[("modules", .value (.array []))], []⟩ :=
      Toml.add_entry reaches_nil ("modules", .array []) rfl
    rw [List.foldlM_cons, hadd]
    rfl
  · rfl

theorem statements_eq (c : BarConfig) :
    c.statements = (if c.modules = [] then [entry "modules" (.array [])] else []) ++
      ((.table ⟨[], "general"⟩ :: [("log_level", Json.string c.logLevel)].map .ofField) ++
      ((.table ⟨[], "evaluator"⟩ :: (evaluatorEntries c).map .ofField) ++
      ((.table ⟨[], "icons"⟩ :: (Dict.mapValues Json.string c.icons).map .ofField) ++
      ((.table ⟨[], "translations"⟩ :: (Dict.mapValues Json.string c.translations).map .ofField) ++
        c.modules.flatMap moduleStatements)))) := by
  simp [statements, textEntries_eq, evaluatorEntries, entry, Statement.ofField]

/-- The statements of a configuration make up its document. -/
theorem ofStatements?_statements (h : c.Ordered) :
    Fields.ofStatements? c.statements = some (documentFields c) := by
  rw [Fields.ofStatements?, statements_eq, List.foldlM_append, add_start]
  simp only [Option.bind_eq_bind, Option.bind_some, List.foldlM_append]
  rw [add_table (get?_startFields (by simp)) _ (by simp)]
  simp only [Option.bind_some]
  rw [add_table (by simp [get?_withTable, get?_startFields]) _ (by simp [evaluatorEntries])]
  simp only [Option.bind_some]
  rw [add_table (by simp [get?_withTable, get?_startFields]) _ (nodup_mapValues h.icons)]
  simp only [Option.bind_some]
  rw [add_table (by simp [get?_withTable, get?_startFields]) _ (nodup_mapValues h.translations)]
  simp only [Option.bind_some]
  by_cases hc : c.modules = []
  · rw [documentFields, hc]
    rfl
  · exact add_modules (get?_frontFields hc) h.style [] ["translations"]

/-! ## Reading the document -/

theorem fieldsToJson_valueFields {es : List (String × Json)} (h : Dict.Sorted es) :
    Toml.Node.fieldsToJson (valueFields es) = es := by
  have hsorted : valueFields es = Dict.mapValues .value es :=
    Dict.ofList_of_sorted (Dict.sorted_mapValues h Toml.Node.value)
  rw [hsorted, Dict.mapValues]
  clear h hsorted
  induction es with
  | nil => rfl
  | cons e es ih => rw [List.map_cons, Toml.Node.fieldsToJson, ih, Toml.Node.toJson]

theorem stringDict?_table {d : Dict String} (h : Dict.Sorted d) :
    Json.stringDict? (Toml.Node.table .header (valueFields (Dict.mapValues .string d))).toJson =
      some d := by
  rw [Toml.Node.toJson, fieldsToJson_valueFields (Dict.sorted_mapValues h _)]
  exact Json.stringDict?_texts h

theorem get?_fieldsToJson_valueFields {es : List (String × Json)} (hes : (es.map (·.1)).Nodup)
    (key : String) :
    Dict.get? (Toml.Node.fieldsToJson (valueFields es)) key = Dict.get? es key := by
  rw [Toml.get?_fieldsToJson, Toml.get?_valueFields hes]
  cases Dict.get? es key <;> simp [Toml.Node.toJson]

theorem get?_moduleFields (m : ModuleDefinition) (key : String) :
    Dict.get? (Toml.Node.fieldsToJson (moduleFields m)) key =
      if key = "style" then
        some (Toml.Node.table .header (valueFields (Dict.mapValues .string m.style))).toJson
      else Dict.get? (moduleEntries m) key := by
  rw [Toml.get?_fieldsToJson, moduleFields, Dict.get?_insert]
  by_cases hk : key = "style"
  · simp [hk]
  · rw [if_neg hk, if_neg (Ne.symm hk), ← Toml.get?_fieldsToJson,
      get?_fieldsToJson_valueFields (nodup_moduleEntries m)]

theorem ofJson?_moduleFields (h : Dict.Sorted m.style) :
    ModuleDefinition.ofJson? fileDialect (moduleFields m).toJson = some m := by
  have hfields : (moduleFields m).toJson.fields? fileDialect ModuleDefinition.fieldNames =
      some [some (.string m.id), some (.string m.kind.name), some (.string m.template),
        m.tooltip.map .string, m.onClick.map .string,
        some (Toml.Node.table .header (valueFields (Dict.mapValues .string m.style))).toJson] := by
    obtain ⟨id, kind, template, tooltip, onClick, style⟩ := m
    cases tooltip <;> cases onClick <;>
      simp [Fields.toJson, Json.fields?, ModuleDefinition.fieldNames, get?_moduleFields,
        moduleEntries, ModuleDefinition.optionalField, Dict.get?]
  have hstyle := stringDict?_table h
  have htooltip : Json.optionalString? (m.tooltip.map .string) = some m.tooltip := by
    cases m.tooltip <;> rfl
  have honClick : Json.optionalString? (m.onClick.map .string) = some m.onClick := by
    cases m.onClick <;> rfl
  simp [ModuleDefinition.ofJson?, hfields, Json.string?, Json.fieldOr, Json.choice?,
    ModuleKind.ofName?_name, htooltip, honClick, hstyle]

theorem mapM_ofJson?_moduleFields {ms : List ModuleDefinition}
    (h : ∀ m ∈ ms, Dict.Sorted m.style) :
    ((ms.map moduleFields).map Fields.toJson).mapM (ModuleDefinition.ofJson? fileDialect) =
      some ms := by
  induction ms with
  | nil => rfl
  | cons m ms ih =>
    rw [List.map_cons, List.map_cons, List.mapM_cons, ofJson?_moduleFields (h m List.mem_cons_self),
      ih fun m hm => h m (List.mem_cons_of_mem _ hm)]
    rfl

/-- The value of a table in front of the modules. -/
def tableJson (entries : List (String × Json)) : Json :=
  (Toml.Node.table .header (valueFields entries)).toJson

theorem get?_documentFields (c : BarConfig) {key : String} (h : key ≠ "modules") :
    Dict.get? (Toml.Node.fieldsToJson (documentFields c)) key =
      (Dict.get? (frontFields c) key).map Toml.Node.toJson := by
  rw [Toml.get?_fieldsToJson, documentFields, withTables]
  split
  · rfl
  · rw [Dict.get?_insert, if_neg h.symm]

theorem get?_modules (c : BarConfig) :
    Dict.get? (Toml.Node.fieldsToJson (documentFields c)) "modules" =
      some (.array ((c.modules.map moduleFields).map Fields.toJson)) := by
  rw [Toml.get?_fieldsToJson, documentFields]
  rcases List.eq_nil_or_concat c.modules with hc | ⟨ms, m, hc⟩
  · have hstart : Dict.get? (frontFields c) "modules" = some (.value (.array [])) := by
      simp [frontFields, get?_withTable, startFields, hc, Dict.get?]
    simp [hc, withTables, hstart, Toml.Node.toJson]
  · rw [hc, List.concat_eq_append, List.map_append, List.map_singleton,
      Toml.withTables_append_singleton, Dict.get?_insert_self, Option.map_some, Toml.toJson_tables]

theorem logLevelOfJson?_tableJson (level : String) :
    logLevelOfJson? fileDialect (tableJson [("log_level", .string level)]) = some level := by
  simp [logLevelOfJson?, tableJson, Toml.Node.toJson, Json.fields?, get?_fieldsToJson_valueFields,
    Dict.get?, Json.fieldOr, Json.string?]

theorem limitsOfJson?_tableJson (c : BarConfig) :
    limitsOfJson? fileDialect (tableJson (evaluatorEntries c)) = some c.limits := by
  simp [limitsOfJson?, tableJson, evaluatorEntries, Toml.Node.toJson, Json.fields?,
    get?_fieldsToJson_valueFields, Dict.get?, Json.fieldOr, Json.nat?]

theorem ofJson?_documentFields (h : c.Ordered) :
    ofJson? fileDialect (documentFields c).toJson = some c := by
  have hfields : (documentFields c).toJson.fields? fileDialect fieldNames =
      some [some (tableJson [("log_level", .string c.logLevel)]),
        some (tableJson (evaluatorEntries c)),
        some (tableJson (Dict.mapValues .string c.icons)),
        some (tableJson (Dict.mapValues .string c.translations)),
        some (.array ((c.modules.map moduleFields).map Fields.toJson))] := by
    simp [Fields.toJson, Json.fields?, fieldNames, get?_documentFields, get?_modules, frontFields,
      get?_withTable, tableJson]
  have hicons : Json.stringDict? (tableJson (Dict.mapValues .string c.icons)) = some c.icons :=
    stringDict?_table h.icons
  have htranslations : Json.stringDict? (tableJson (Dict.mapValues .string c.translations)) =
      some c.translations := stringDict?_table h.translations
  rw [ofJson?, hfields]
  simp only [Json.fieldOr, logLevelOfJson?_tableJson, limitsOfJson?_tableJson, hicons,
    htranslations, modulesOfJson?, mapM_ofJson?_moduleFields h.style]
  rfl

/-! ## Whole files -/

/-- The values that stand in a configuration. -/
def IsContent (c : BarConfig) (e : String × Json) : Prop :=
  (∃ text, e.2 = .string text) ∨ e.2 = .array [] ∨ e ∈ evaluatorEntries c

theorem isContent_mapValues {d : Dict String} {e : String × Json}
    (he : e ∈ Dict.mapValues Json.string d) : IsContent c e := by
  obtain ⟨a, -, rfl⟩ := List.mem_map.mp he
  exact Or.inl ⟨_, rfl⟩

theorem isContent_moduleEntries {e : String × Json} (he : e ∈ moduleEntries m) :
    IsContent c e := by
  obtain ⟨id, kind, template, tooltip, onClick, style⟩ := m
  refine Or.inl ?_
  cases tooltip <;> cases onClick <;>
    simp [moduleEntries, ModuleDefinition.optionalField] at he <;> grind

theorem statement_cases {s : Statement} (hs : s ∈ c.statements) :
    (s.isHeader = true ∧ s.path.parents.length ≤ 1) ∨ ∃ e, s = .ofField e ∧ IsContent c e := by
  have hfields {es : List (String × Json)} (hes : ∀ e ∈ es, IsContent c e)
      (hs : s ∈ es.map .ofField) : ∃ e, s = .ofField e ∧ IsContent c e := by
    obtain ⟨e, he, rfl⟩ := List.mem_map.mp hs
    exact ⟨e, rfl, hes e he⟩
  have hsection {path : Toml.Path} {es : List (String × Json)} (hp : path.parents.length ≤ 1)
      (hes : ∀ e ∈ es, IsContent c e) (hs : s ∈ Statement.table path :: es.map .ofField) :
      (s.isHeader = true ∧ s.path.parents.length ≤ 1) ∨ ∃ e, s = .ofField e ∧ IsContent c e := by
    rcases List.mem_cons.mp hs with rfl | hs
    · exact Or.inl ⟨rfl, hp⟩
    · exact Or.inr (hfields hes hs)
  rw [statements_eq] at hs
  simp only [List.mem_append] at hs
  rcases hs with hs | hs | hs | hs | hs | hs
  · split at hs
    · exact Or.inr ⟨("modules", .array []), List.mem_singleton.mp hs, Or.inr (Or.inl rfl)⟩
    · simp at hs
  · exact hsection (by decide) (by simp [IsContent]) hs
  · exact hsection (by decide) (fun e he => Or.inr (Or.inr he)) hs
  · exact hsection (by decide) (fun e => isContent_mapValues) hs
  · exact hsection (by decide) (fun e => isContent_mapValues) hs
  · obtain ⟨m, -, hs⟩ := List.mem_flatMap.mp hs
    rw [moduleStatements_eq, List.mem_append, List.mem_cons] at hs
    rcases hs with (rfl | hs) | hs
    · exact Or.inl ⟨rfl, Nat.zero_le 1⟩
    · exact Or.inr (hfields (fun e => isContent_moduleEntries) hs)
    · exact hsection (by decide) (fun e => isContent_mapValues) hs

theorem isShort_of_mem {s : Statement} (hs : s ∈ c.statements) : s.IsShort := by
  rcases statement_cases hs with ⟨-, hp⟩ | ⟨e, rfl, -⟩
  · exact Nat.lt_of_le_of_lt hp (by decide)
  · exact Nat.zero_lt_succ _

/-- Both budgets are whole numbers that a document can hold. -/
theorem toText_eq_ok_iff (c : BarConfig) :
    (∃ text, c.toText = .ok text) ↔
      c.limits.maxSteps ≤ 2 ^ 63 - 1 ∧ c.limits.maxDepth ≤ 2 ^ 63 - 1 := by
  have hfits (n : Nat) : Toml.fitsWord n = true ↔ n ≤ 2 ^ 63 - 1 := by
    simp only [Toml.fitsWord, Bool.and_eq_true, decide_eq_true_eq]
    omega
  have hsaved : (∃ text, c.toText = .ok text) ↔ ∀ s ∈ c.statements, s.written.isSome = true := by
    rw [← Toml.isSome_written_iff]
    unfold toText
    split <;> simp_all
  have hvalue (n : Nat) (key : String) :
      (Statement.ofField (key, .int n)).written.isSome = true ↔ Toml.fitsWord n = true := by
    simp [Statement.ofField, Statement.written, Toml.writtenValue]
  rw [hsaved, ← hfits, ← hfits]
  constructor
  · intro h
    have hmem : ∀ e ∈ evaluatorEntries c, Statement.ofField e ∈ c.statements := fun e he => by
      rw [statements_eq]
      simp only [List.mem_append, List.mem_cons, List.mem_map]
      exact Or.inr (Or.inr (Or.inl (Or.inr ⟨e, he, rfl⟩)))
    exact ⟨(hvalue _ _).mp (h _ (hmem ("max_steps", _) (by simp [evaluatorEntries]))),
      (hvalue _ _).mp (h _ (hmem ("max_depth", _) (by simp [evaluatorEntries])))⟩
  · rintro ⟨hsteps, hdepth⟩ s hs
    rcases statement_cases hs with ⟨hheader, -⟩ | ⟨⟨key, j⟩, rfl, ⟨text, rfl⟩ | rfl | he⟩
    · cases s with
      | entry => simp [Statement.isHeader] at hheader
      | table | listItem => rfl
    · rfl
    · rfl
    · simp only [evaluatorEntries, List.mem_cons, List.not_mem_nil, or_false] at he
      rcases he with he | he <;> cases he
      · exact (hvalue _ _).mpr hsteps
      · exact (hvalue _ _).mpr hdepth

theorem ofText_toText (h : c.Ordered) {text : String} (saved : c.toText = .ok text) :
    ofText text = c.validate.map fun _ => c := by
  have hwritten : Toml.written c.statements = some text := by
    unfold toText at saved
    split at saved
    · rename_i heq
      rw [heq]
      exact congrArg some (Except.ok.inj saved)
    · simp at saved
  have hread : Toml.read text = some (documentFields c).toJson := by
    simp [Toml.read, Toml.statements_written (fun _ => isShort_of_mem) hwritten,
      ofStatements?_statements h]
  unfold ofText
  rw [hread, Option.bind_some, ofJson?_documentFields h]
  dsimp only
  cases c.validate <;> rfl

theorem load_toUTF8 (text : String) : load (some text.toUTF8) = ofText text := by
  have hbytes : String.fromUTF8? text.toUTF8 = some text := dif_pos text.isValidUTF8
  simp only [load, hbytes]

/-- A valid configuration whose budgets can be written is saved, and what is loaded is that
configuration; an invalid one that was saved is rejected for the same reason. -/
theorem load_toText (c : BarConfig) (ordered : c.Ordered) :
    (c.validate = .ok () → c.limits.maxSteps ≤ 2 ^ 63 - 1 → c.limits.maxDepth ≤ 2 ^ 63 - 1 →
      ∃ text, c.toText = .ok text ∧ load (some text.toUTF8) = .ok c) ∧
    ∀ text, c.toText = .ok text → ∀ e, c.validate = .error e →
      load (some text.toUTF8) = .error e := by
  have hload {text : String} (saved : c.toText = .ok text) :
      load (some text.toUTF8) = c.validate.map fun _ => c := by
    rw [load_toUTF8, ofText_toText ordered saved]
  constructor
  · intro valid hsteps hdepth
    obtain ⟨text, saved⟩ := (toText_eq_ok_iff c).mpr ⟨hsteps, hdepth⟩
    refine ⟨text, saved, ?_⟩
    rw [hload saved, valid]
    rfl
  · intro text saved e invalid
    rw [hload saved, invalid]
    rfl

/-- A style with an empty key and one of two lines, an empty tooltip and the greatest budget; with a
blank id the module is rejected. -/
theorem load_toText_odd :
    let named (id : String) : BarConfig :=
      { default with
        limits := ⟨2 ^ 63 - 1, 1⟩
        icons := [("'''", "\"\"\""), ("é", "\u0000")]
        modules := [{ id := id, kind := .settings, template := "", tooltip := some ""
                      style := [("", "'"), ("a\nb", "\t")] }] }
    (named "x").Ordered ∧ (named " ").Ordered ∧
      (∃ text, (named "x").toText = .ok text ∧ load (some text.toUTF8) = .ok (named "x")) ∧
      ∃ text, (named " ").toText = .ok text ∧
        load (some text.toUTF8) = .error (.config .emptyModuleId) := by
  intro named
  have icons : Dict.Sorted [("'''", "\"\"\""), ("é", "\u0000")] := by decide
  have style : Dict.Sorted [("", "'"), ("a\nb", "\t")] := by decide
  have ordered (id : String) : (named id).Ordered :=
    ⟨icons, Dict.sorted_nil, List.forall_mem_singleton.mpr style⟩
  obtain ⟨text, saved⟩ := (toText_eq_ok_iff (named " ")).mpr ⟨by decide, by decide⟩
  exact ⟨ordered _, ordered _,
    (load_toText (named "x") (ordered _)).1 rfl (by decide) (by decide),
    text, saved, (load_toText (named " ") (ordered _)).2 text saved _ rfl⟩

end BarConfig
end TemplateBar
