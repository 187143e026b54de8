import TemplateBar.Dict

/-!
# JSON documents

Numbers are whole numbers of at most 64 bits or doubles, and the two kinds are told apart. Object
fields stand in the order in which they are written.
-/
namespace TemplateBar

inductive Json where
  | null
  | bool (b : Bool)
  | int (i : Int)
  | float (x : Float)
  | string (s : String)
  | array (items : List Json)
  | object (fields : List (String × Json))
  deriving Inhabited, Repr

namespace Json

mutual

/-- Equality in which doubles are compared as numbers. -/
def same : Json → Json → Bool
  | null, null => true
  | bool a, bool b => a == b
  | int a, int b => a == b
  | float a, float b => a == b
  | string a, string b => a == b
  | array a, array b => sameItems a b
  | object a, object b => sameFields a b
  | _, _ => false

def sameItems : List Json → List Json → Bool
  | [], [] => true
  | a :: as, b :: bs => same a b && sameItems as bs
  | _, _ => false

def sameFields : List (String × Json) → List (String × Json) → Bool
  | [], [] => true
  | (k, a) :: as, (l, b) :: bs => k == l && same a b && sameFields as bs
  | _, _ => false

end

instance : BEq Json := ⟨same⟩

/-- The value of an object's field. -/
def field? : Json → String → Option Json
  | object fields, key => Dict.get? fields key
  | _, _ => none

/-- A value, or nothing in its place. -/
def ofOption {α : Type} (write : α → Json) : Option α → Json
  | some a => write a
  | none => null

/-- A document whose object has its fields in key order. -/
def ofDict (d : Dict Json) : Json := object d

/-- Whole numbers that a document can hold. -/
def fitsWord (i : Int) : Bool := -0x8000000000000000 ≤ i && i < 0x10000000000000000

/-- A number read as a double. -/
def toFloat? : Json → Option Float
  | int i => some (Float.ofInt i)
  | float x => some x
  | _ => none

end Json
end TemplateBar
