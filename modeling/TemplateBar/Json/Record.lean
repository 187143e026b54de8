import TemplateBar.Json.Basic

/-!
# Records in documents

A record stands in a document as an object, whose unknown fields are left out of account, or as an
array of its fields in order. The two document formats differ in small ways, which a `Dialect`
settles.
-/
namespace TemplateBar.Json

structure Dialect where
  /-- Items of an array beyond the last field are left out of account. -/
  surplusItems : Bool
  /-- What may stand beside the name of a choice without content. -/
  isNoContent : Json → Bool

/-- Arrays are no longer than the record, and a choice without content has nothing beside it. -/
def Dialect.json : Dialect where
  surplusItems := false
  isNoContent
    | null => true
    | _ => false

/-- A record's fields in order, each under the first or any other of its names. A field given
under two names makes the record invalid. -/
def fields? (d : Dialect) (names : List (List String)) : Json → Option (List (Option Json))
  | object fs =>
    names.mapM fun alternatives =>
      match alternatives.filterMap (Dict.get? fs) with
      | [] => some none
      | [v] => some (some v)
      | _ => none
  | array items =>
    if items.length ≤ names.length || d.surplusItems then
      some ((List.range names.length).map fun i => items[i]?)
    else none
  | _ => none

def string? : Json → Option String
  | string s => some s
  | _ => none

/-- A text, or nothing. -/
def optionalString? : Option Json → Option (Option String)
  | none => some none
  | some null => some none
  | some (string s) => some (some s)
  | some _ => none

/-- A whole number that is not negative. -/
def nat? : Json → Option Nat
  | int i => if 0 ≤ i then some i.toNat else none
  | _ => none

/-- An object whose values are all texts. -/
def stringDict? : Json → Option (Dict String)
  | object fs => do
    let entries ← fs.mapM fun e => e.2.string?.map fun s => (e.1, s)
    return Dict.ofList entries
  | _ => none

/-- The name of a choice without content: a text, or an object with that one field. -/
def choice? (d : Dialect) : Json → Option String
  | string s => some s
  | object [(name, content)] => if d.isNoContent content then some name else none
  | _ => none

/-- The value of a field that may be missing. -/
def fieldOr {α : Type} (read : Json → Option α) (default : α) : Option Json → Option α
  | none => some default
  | some j => read j

end TemplateBar.Json
