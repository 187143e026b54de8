import TemplateBar.Proofs.Decimal.Whole
import TemplateBar.Template.Value

/-!
# Values and their documents

A value survives being written as a document and read back exactly if no number in it is infinite
or no number at all, and no function and no effect stands in it. A document in which all arguments
of effects were written, those within arguments too, is written the same way when it is read and
written again.
-/
namespace TemplateBar.Template

variable {F : Type}

namespace Value

/-- `w.Part v`: the value `w` is `v` itself or stands in it, at any depth. -/
inductive Part : Value F → Value F → Prop
  | self (v : Value F) : Part v v
  | item {w v : Value F} {items : List (Value F)} (h : v ∈ items) (p : Part w v) :
    Part w (.array items)
  | field {w : Value F} {e : String × Value F} {fields : List (String × Value F)}
    (h : e ∈ fields) (p : Part w e.2) : Part w (.object fields)

/-- What no document can hold. -/
def Lossy : Value F → Prop
  | number x => x.isFinite = false
  | function _ => True
  | effect _ _ => True
  | _ => False

section Part

variable {Q : Value F → Prop}

theorem forall_part_array {items : List (Value F)} :
    (∀ w, Part w (.array items) → Q w) ↔ Q (.array items) ∧ ∀ v ∈ items, ∀ w, Part w v → Q w := by
  constructor
  · intro h
    exact ⟨h _ (.self _), fun v hv w p => h w (.item hv p)⟩
  · rintro ⟨self, inner⟩ w (_ | ⟨hv, p⟩)
    · exact self
    · exact inner _ hv w p

theorem forall_part_object {fields : List (String × Value F)} :
    (∀ w, Part w (.object fields) → Q w) ↔
      Q (.object fields) ∧ ∀ e ∈ fields, ∀ w, Part w e.2 → Q w := by
  constructor
  · intro h
    exact ⟨h _ (.self _), fun e he w p => h w (.field he p)⟩
  · rintro ⟨self, inner⟩ w (_ | _ | ⟨he, p⟩)
    · exact self
    · exact inner _ he w p

/-- A value that is no list and no object has no other part. -/
theorem forall_part_leaf {v : Value F} (list : ∀ items, v ≠ .array items)
    (fields : ∀ fields, v ≠ .object fields) : (∀ w, Part w v → Q w) ↔ Q v := by
  constructor
  · intro h
    exact h v (.self v)
  · intro h w p
    cases p with
    | self => exact h
    | item => exact absurd rfl (list _)
    | field => exact absurd rfl (fields _)

end Part

/-! ## Numbers -/

section Number

variable {x : Float}

theorem numberJson_of_not_isFinite (h : x.isFinite = false) : numberJson x = .null := by
  simp [numberJson, wholeNumber?, h]

/-- A finite number is written as a whole number that it is, or as itself. -/
theorem numberJson_of_isFinite (h : x.isFinite = true) :
    (∃ i, wholeNumber? x = some i ∧ i.natAbs < 2 ^ 53 ∧ numberJson x = .int i) ∨
      numberJson x = .float x := by
  cases whole : wholeNumber? x with
  | none => exact .inr (by simp [numberJson, whole, h])
  | some i =>
    by_cases small : i.natAbs ≤ maxSafeInteger
    · refine .inl ⟨i, rfl, Nat.lt_succ_of_le small, ?_⟩
      simp [numberJson, whole, small]
    · exact .inr (by simp [numberJson, whole, small])

theorem same_number_iff [DecidableEq F] :
    (ofJson (numberJson x) : Value F).same (.number x) = true ↔ x.isFinite = true := by
  cases finite : x.isFinite with
  | false => simp [numberJson_of_not_isFinite finite, ofJson, same]
  | true =>
    rcases numberJson_of_isFinite finite with ⟨i, whole, small, written⟩ | written
    · simp [written, ofJson, same, ofInt_beq whole small]
    · simp [written, ofJson, same, beq_self_of_isFinite finite]

theorem toJson_ofJson_numberJson : (ofJson (numberJson x) : Value F).toJson = numberJson x := by
  cases finite : x.isFinite with
  | false => simp [numberJson_of_not_isFinite finite, ofJson, toJson]
  | true =>
    rcases numberJson_of_isFinite finite with ⟨i, whole, small, written⟩ | written
    · have kept : i.natAbs ≤ maxSafeInteger := Nat.le_of_lt_succ small
      rw [written]
      simp [ofJson, toJson, numberJson, wholeNumber?_ofInt whole small, kept]
    · rw [written, ofJson, toJson, written]

theorem numberJson_same_self : (numberJson x).same (numberJson x) = true := by
  cases finite : x.isFinite with
  | false => simp [numberJson_of_not_isFinite finite, Json.same]
  | true =>
    rcases numberJson_of_isFinite finite with ⟨i, -, -, written⟩ | written
    · simp [written, Json.same]
    · simp [written, Json.same, beq_self_of_isFinite finite]

end Number

/-! ## Reading back what was written -/

mutual

/-- Reading a value's document gives the value exactly if nothing in the value is lossy. -/
theorem same_ofJson_toJson_iff [DecidableEq F] : ∀ v : Value F,
    (ofJson v.toJson).same v = true ↔ ∀ w, Part w v → ¬ w.Lossy
  | .null => by simp [forall_part_leaf, toJson, ofJson, same, Lossy]
  | .bool b => by simp [forall_part_leaf, toJson, ofJson, same, Lossy]
  | .number x => by simp [forall_part_leaf, toJson, same_number_iff, Lossy]
  | .string s => by simp [forall_part_leaf, toJson, ofJson, same, Lossy]
  | .array items => by
    rw [forall_part_array, ← sameItems_ofItems_iff items]
    simp [toJson, ofJson, same, Lossy]
  | .object fields => by
    rw [forall_part_object, ← sameFields_ofFields_iff fields]
    simp [toJson, ofJson, same, Lossy]
  | .function f => by simp [forall_part_leaf, toJson, ofJson, same, Lossy]
  | .effect command args => by simp [forall_part_leaf, toJson, ofJson, same, Lossy]

theorem sameItems_ofItems_iff [DecidableEq F] : ∀ items : List (Value F),
    sameItems (ofItems (itemsJson items)) items = true ↔ ∀ v ∈ items, ∀ w, Part w v → ¬ w.Lossy
  | [] => by simp [itemsJson, ofItems, sameItems]
  | v :: rest => by
    simp [itemsJson, ofItems, sameItems, same_ofJson_toJson_iff v, sameItems_ofItems_iff rest]

theorem sameFields_ofFields_iff [DecidableEq F] : ∀ fields : List (String × Value F),
    sameFields (ofFields (fieldsJson fields)) fields = true ↔
      ∀ e ∈ fields, ∀ w, Part w e.2 → ¬ w.Lossy
  | [] => by simp [fieldsJson, ofFields, sameFields]
  | (k, v) :: rest => by
    simp [fieldsJson, ofFields, sameFields, same_ofJson_toJson_iff v, sameFields_ofFields_iff rest]

end

/-! ## Writing again what was read -/

/-- The arguments of every effect in the value have a property. -/
def EffectArgs (Q : Json → Prop) (v : Value F) : Prop :=
  ∀ w, Part w v → ∀ command args, w = .effect command args → Q args

section EffectArgs

variable {Q : Json → Prop}

theorem effectArgs_array {items : List (Value F)} :
    EffectArgs Q (.array items) ↔ ∀ v ∈ items, v.EffectArgs Q := by
  rw [EffectArgs, forall_part_array]
  simp [EffectArgs]

theorem effectArgs_object {fields : List (String × Value F)} :
    EffectArgs Q (.object fields) ↔ ∀ e ∈ fields, e.2.EffectArgs Q := by
  rw [EffectArgs, forall_part_object]
  simp [EffectArgs]

theorem effectArgs_effect {command : String} {args : Json} :
    EffectArgs Q (.effect command args : Value F) ↔ Q args := by
  simp [EffectArgs, forall_part_leaf]

theorem effectArgs_number (x : Float) : EffectArgs Q (.number x : Value F) := by
  simp [EffectArgs, forall_part_leaf]

end EffectArgs

mutual

/-- Writing what was read from a value's document gives the document, as far as that holds of the
arguments of the effects in the value. -/
theorem toJson_ofJson_toJson_iff : ∀ v : Value F,
    (ofJson v.toJson : Value F).toJson = v.toJson ↔
      v.EffectArgs fun args => (ofJson args : Value F).toJson = args
  | .null => by simp [EffectArgs, forall_part_leaf, toJson, ofJson]
  | .bool b => by simp [EffectArgs, forall_part_leaf, toJson, ofJson]
  | .number x => by simp [effectArgs_number, toJson, toJson_ofJson_numberJson]
  | .string s => by simp [EffectArgs, forall_part_leaf, toJson, ofJson]
  | .array items => by
    rw [effectArgs_array]
    simpa [toJson, ofJson] using itemsJson_ofItems_iff items
  | .object fields => by
    rw [effectArgs_object]
    simpa [toJson, ofJson] using fieldsJson_ofFields_iff fields
  | .function f => by simp [EffectArgs, forall_part_leaf, toJson, ofJson]
  | .effect command args => by
    simp [effectArgs_effect, toJson, ofJson, ofFields, fieldsJson]

theorem itemsJson_ofItems_iff : ∀ items : List (Value F),
    itemsJson (ofItems (itemsJson items) : List (Value F)) = itemsJson items ↔
      ∀ v ∈ items, v.EffectArgs fun args => (ofJson args : Value F).toJson = args
  | [] => by simp [itemsJson, ofItems]
  | v :: rest => by
    simp [itemsJson, ofItems, toJson_ofJson_toJson_iff v, itemsJson_ofItems_iff rest]

theorem fieldsJson_ofFields_iff : ∀ fields : List (String × Value F),
    fieldsJson (ofFields (fieldsJson fields) : List (String × Value F)) = fieldsJson fields ↔
      ∀ e ∈ fields, e.2.EffectArgs fun args => (ofJson args : Value F).toJson = args
  | [] => by simp [fieldsJson, ofFields]
  | (k, v) :: rest => by
    simp [fieldsJson, ofFields, toJson_ofJson_toJson_iff v, fieldsJson_ofFields_iff rest]

end

mutual

theorem toJson_same_self : ∀ v : Value F, (v.EffectArgs fun args => args.same args = true) →
    v.toJson.same v.toJson = true
  | .null, _ => by simp [toJson, Json.same]
  | .bool b, _ => by simp [toJson, Json.same]
  | .number x, _ => numberJson_same_self
  | .string s, _ => by simp [toJson, Json.same]
  | .array items, h => by
    rw [effectArgs_array] at h
    simpa [toJson, Json.same] using itemsJson_same_self items h
  | .object fields, h => by
    rw [effectArgs_object] at h
    simpa [toJson, Json.same] using fieldsJson_same_self fields h
  | .function f, _ => by simp [toJson, Json.same]
  | .effect command args, h => by
    simp [toJson, Json.same, Json.sameFields, effectArgs_effect.mp h]

theorem itemsJson_same_self : ∀ items : List (Value F),
    (∀ v ∈ items, v.EffectArgs fun args => args.same args = true) →
      Json.sameItems (itemsJson items) (itemsJson items) = true
  | [], _ => by simp [itemsJson, Json.sameItems]
  | v :: rest, h => by
    simp [itemsJson, Json.sameItems, toJson_same_self v (h v (by simp)),
      itemsJson_same_self rest fun w hw => h w (by simp [hw])]

theorem fieldsJson_same_self : ∀ fields : List (String × Value F),
    (∀ e ∈ fields, e.2.EffectArgs fun args => args.same args = true) →
      Json.sameFields (fieldsJson fields) (fieldsJson fields) = true
  | [], _ => by simp [fieldsJson, Json.sameFields]
  | (k, v) :: rest, h => by
    simp [fieldsJson, Json.sameFields, toJson_same_self v (h (k, v) (by simp)),
      fieldsJson_same_self rest fun e he => h e (by simp [he])]

end

end Value

/-! ## Documents that were written -/

open Value

/-- Documents that were written all the way down: of values in which the arguments of every effect
are such documents themselves. That they are the documents of some values is less: one of these may
be an effect with any arguments at all. -/
inductive Written (F : Type) : Json → Prop
  | of (v : Value F)
    (h : ∀ w, Part w v → ∀ command args, w = .effect command args → Written F args) :
    Written F v.toJson

theorem Written.toJson_ofJson {j : Json} (h : Written F j) : (ofJson j : Value F).toJson = j := by
  induction h with
  | of v _ ih => exact (toJson_ofJson_toJson_iff v).mpr ih

theorem Written.same_self {j : Json} (h : Written F j) : j.same j = true := by
  induction h with
  | of v _ ih => exact toJson_same_self v ih

/-- What documents keep of values. Written and read back, a value is equal to what it was exactly if
no number that is not finite, no function and no effect is part of it. Written a second time, it
gives the same document exactly if so does the reading of every effect's arguments, as it does when
these were written themselves. -/
theorem round_trip [DecidableEq F] (v : Value F) :
    ((ofJson v.toJson).same v = true ↔ ∀ w, Part w v → ¬ w.Lossy) ∧
      ((ofJson v.toJson : Value F).toJson = v.toJson ↔
        v.EffectArgs fun args => (ofJson args : Value F).toJson = args) ∧
      (v.EffectArgs (Written F) → (ofJson v.toJson : Value F).toJson = v.toJson ∧
        ((ofJson v.toJson : Value F).toJson == v.toJson) = true) := by
  refine ⟨same_ofJson_toJson_iff v, toJson_ofJson_toJson_iff v, fun written => ?_⟩
  have document : Written F v.toJson := .of v written
  have again := document.toJson_ofJson
  refine ⟨again, ?_⟩
  rw [again]
  exact document.same_self

/-- An effect whose arguments hold another effect comes back as an object, and is written the same
way. -/
theorem round_trip_nested_effect :
    let inner : Value Empty := .effect "ping" (toJson (.number 2 : Value Empty))
    let v : Value Empty := .array [.number 1.5, .effect "launch" inner.toJson]
    (ofJson v.toJson).same v = false ∧ (ofJson v.toJson : Value Empty).toJson = v.toJson := by
  intro inner v
  have ping : inner.EffectArgs (Written Empty) :=
    effectArgs_effect.mpr (.of _ (effectArgs_number 2))
  have launch : v.EffectArgs (Written Empty) := by
    rw [effectArgs_array]
    intro u hu
    simp only [List.mem_cons, List.not_mem_nil, or_false] at hu
    rcases hu with rfl | rfl
    · exact effectArgs_number 1.5
    · exact effectArgs_effect.mpr (.of inner ping)
  obtain ⟨same, -, fixed⟩ := round_trip v
  refine ⟨Bool.eq_false_iff.mpr fun h => ?_, (fixed launch).1⟩
  exact same.mp h _ (.item (.tail _ (.head _)) (.self _)) trivial

/-- The arguments of the outer effect were written, those of the inner one were not: within the
outer ones `1.0` is read as a number and written again as the whole number that it is. -/
theorem written_arguments_change :
    let inner : Value Empty := .effect "b" (.float 1.0)
    let v : Value Empty := .effect "a" inner.toJson
    (v.EffectArgs fun args => ∃ w : Value Empty, args = w.toJson) ∧
      (ofJson v.toJson : Value Empty).toJson ≠ v.toJson ∧
      ((ofJson v.toJson : Value Empty).toJson == v.toJson) = false := by
  intro inner v
  have whole : numberJson 1.0 = .int 1 := rfl
  have again : (ofJson v.toJson : Value Empty).toJson =
      .object [("args", .object [("args", .int 1), ("invoke", .string "b")]),
        ("invoke", .string "a")] := by
    simp [v, inner, toJson, ofJson, ofFields, fieldsJson, whole]
  refine ⟨effectArgs_effect.mpr ⟨inner, rfl⟩, fun kept => ?_, ?_⟩
  · rw [again] at kept
    simp [v, inner, toJson] at kept
  · rw [again]
    rfl

end TemplateBar.Template
