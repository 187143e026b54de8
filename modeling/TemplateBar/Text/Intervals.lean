/-!
# Sets of code points

A set of code points is given by the increasing list of the code points at which membership
changes, starting outside the set.
-/
namespace TemplateBar.Text

/-- How many of the increasing bounds at places `lo` to `hi` are at most `n`, counted by halving;
`fuel` bounds the number of halvings. -/
def countUpTo (bounds : Array Nat) (n : Nat) : Nat → Nat → Nat → Nat
  | 0, lo, _ => lo
  | fuel + 1, lo, hi =>
    if lo < hi then
      let mid := (lo + hi) / 2
      if bounds.getD mid 0 ≤ n then countUpTo bounds n fuel (mid + 1) hi
      else countUpTo bounds n fuel lo mid
    else lo

/-- A code point is in the set when an odd number of changes lie at or below it. -/
def inSet (bounds : Array Nat) (n : Nat) : Bool :=
  countUpTo bounds n 16 0 bounds.size % 2 == 1

end TemplateBar.Text
