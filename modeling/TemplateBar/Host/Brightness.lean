import TemplateBar.Json.Record

/-!
# Brightness

The brightness of the main monitor as the host reports it.
-/
namespace TemplateBar

structure Brightness where
  min : Float
  max : Float
  current : Float
  deriving DecidableEq, Repr

namespace Brightness

def none : Brightness := ⟨0, 0, 0⟩

/-- There is a range to move in. -/
def isAdjustable (b : Brightness) : Bool := 0 < b.max

/-- The greater of two numbers; one that is no number gives way to the other. -/
def greater (a b : Float) : Float := if a < b then b else if a.isNaN then b else a

def lesser (a b : Float) : Float := if b < a then b else if a.isNaN then b else a

/-- Move the current value, kept within the range. -/
def setCurrent (b : Brightness) (value : Float) : Brightness :=
  { b with current := lesser (greater value b.min) b.max }

/-- Doubles in documents: what is not finite is nothing. -/
def floatJson (x : Float) : Json := if x.isFinite then .float x else .null

def toJson (b : Brightness) : Json :=
  .object [("current", floatJson b.current), ("max", floatJson b.max), ("min", floatJson b.min)]

/-- A brightness from a document with all three numbers. -/
def ofJson? (j : Json) : Option Brightness :=
  match j.fields? .json [["min"], ["max"], ["current"]] with
  | some [some min, some max, some current] => do
    return ⟨← min.toFloat?, ← max.toFloat?, ← current.toFloat?⟩
  | _ => Option.none

end Brightness
end TemplateBar
