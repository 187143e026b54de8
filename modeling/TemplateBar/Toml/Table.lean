import TemplateBar.Dict
import TemplateBar.Json.Basic
import TemplateBar.Toml.Key

/-!
# Tables under construction

A table knows how it came about, because that settles what may still be added to it: a table with
a header is complete where its entries end, one that only lies on the way to another header may
still get a header of its own, and one that dotted keys made may get more dotted keys.
-/
namespace TemplateBar.Toml

inductive Origin where
  | header | implied | dotted
  deriving DecidableEq, Repr

inductive Node where
  | value (j : Json)
  | table (origin : Origin) (fields : List (String × Node))
  /-- A non-empty list of tables; headers reach the last one. -/
  | tables (earlier : List (List (String × Node))) (last : List (String × Node))
  deriving Inhabited

namespace Node

mutual

def toJson : Node → Json
  | value j => j
  | table _ fields => .object (fieldsToJson fields)
  | tables earlier last => .array (tablesToJson earlier ++ [.object (fieldsToJson last)])

def fieldsToJson : List (String × Node) → List (String × Json)
  | [] => []
  | (key, node) :: fields => (key, node.toJson) :: fieldsToJson fields

def tablesToJson : List (List (String × Node)) → List Json
  | [] => []
  | fields :: rest => .object (fieldsToJson fields) :: tablesToJson rest

end

end Node

abbrev Fields := Dict Node

namespace Fields

/-- The fields after `act` changes the table at the end of a path, which is made where it is
missing. A dotted path passes through no table that has a header. -/
def descend (dotted : Bool) (act : Origin → Fields → Option Fields) :
    List String → Origin → Fields → Option Fields
  | [], origin, fields => act origin fields
  | key :: path, _, fields =>
    match Dict.get? fields key with
    | none => do
      let origin := if dotted then .dotted else .implied
      let inner ← descend dotted act path origin []
      return Dict.insert fields key (.table origin inner)
    | some (.value _) => none
    | some (.table origin inner) =>
      if dotted ∧ origin = .header then none
      else do
        let inner ← descend dotted act path origin inner
        return Dict.insert fields key (.table origin inner)
    | some (.tables earlier last) => do
      let last ← descend dotted act path .header last
      return Dict.insert fields key (.tables earlier last)

/-- A value under a new key. Dotted keys add to tables that dotted keys made. -/
def addEntry (path : Path) (j : Json) : Origin → Fields → Option Fields :=
  descend true
    (fun origin fields =>
      if path.parents ≠ [] ∧ origin ≠ .dotted then none
      else if Dict.contains fields path.key then none
      else some (Dict.insert fields path.key (.value j)))
    path.parents

/-- A table under a header: a new one, or one that earlier headers implied. -/
def addTable (path : Path) : Fields → Option Fields :=
  descend false
    (fun _ fields =>
      match Dict.get? fields path.key with
      | none => some (Dict.insert fields path.key (.table .header []))
      | some (.table .implied inner) =>
        some (Dict.insert fields path.key (.table .header inner))
      | some _ => none)
    path.parents .header

/-- One more table in the list under a header. -/
def addToList (path : Path) : Fields → Option Fields :=
  descend false
    (fun _ fields =>
      match Dict.get? fields path.key with
      | none => some (Dict.insert fields path.key (.tables [] []))
      | some (.tables earlier last) =>
        some (Dict.insert fields path.key (.tables (earlier ++ [last]) []))
      | some _ => none)
    path.parents .header

/-- The table of entries written in a row. -/
def ofEntries? (entries : List (Path × Json)) : Option Fields :=
  entries.foldlM (fun fields e => addEntry e.1 e.2 .header fields) []

def toJson (fields : Fields) : Json := .object (Node.fieldsToJson fields)

end Fields
end TemplateBar.Toml
