/-!
# Dictionaries with sorted keys

A dictionary is the list of its entries in increasing order of their keys. `insert` keeps the
order and replaces the value of a key that is already present; `get?` sees exactly the last value
inserted under a key.
-/
namespace TemplateBar

/-- Entries in increasing key order, one per key. -/
abbrev Dict (α : Type) := List (String × α)

namespace Dict

variable {α β : Type}

def get? : Dict α → String → Option α
  | [], _ => none
  | (k, v) :: rest, key => if k = key then some v else get? rest key

def insert : Dict α → String → α → Dict α
  | [], key, value => [(key, value)]
  | (k, v) :: rest, key, value =>
    if k = key then (key, value) :: rest
    else if key < k then (key, value) :: (k, v) :: rest
    else (k, v) :: insert rest key value

/-- Entries inserted from left to right, so that the last one under a key wins. -/
def ofList (entries : List (String × α)) : Dict α :=
  entries.foldl (fun d e => insert d e.1 e.2) []

/-- The entries of `extra` laid over those of `d`. -/
def overlay (d extra : Dict α) : Dict α :=
  extra.foldl (fun d e => insert d e.1 e.2) d

def contains (d : Dict α) (key : String) : Bool := (get? d key).isSome

def keys (d : Dict α) : List String := d.map (·.1)

def mapValues (f : α → β) (d : Dict α) : Dict β := d.map fun e => (e.1, f e.2)

/-- Keys in strictly increasing order. -/
def Sorted (d : Dict α) : Prop := d.Pairwise fun a b => a.1 < b.1

@[simp] theorem get?_nil (key : String) : get? ([] : Dict α) key = none := rfl

theorem get?_insert (d : Dict α) (key : String) (value : α) (other : String) :
    get? (insert d key value) other = if key = other then some value else get? d other := by
  induction d with
  | nil => rfl
  | cons e rest ih =>
    obtain ⟨k, v⟩ := e
    by_cases hk : k = key
    · subst hk; by_cases ho : k = other <;> simp [insert, get?, ho]
    · by_cases hlt : key < k
      · simp [insert, get?, hk, hlt]
      · by_cases ho : k = other
        · subst ho; simp [insert, get?, hk, hlt, Ne.symm hk]
        · simp [insert, get?, hk, hlt, ho, ih]

@[simp] theorem get?_insert_self (d : Dict α) (key : String) (value : α) :
    get? (insert d key value) key = some value := by simp [get?_insert]

theorem get?_mapValues (f : α → β) (d : Dict α) (key : String) :
    get? (mapValues f d) key = (get? d key).map f := by
  induction d with
  | nil => rfl
  | cons e rest ih =>
    by_cases h : e.1 = key
    · simp [mapValues, get?, h]
    · simpa [mapValues, get?, h] using ih

end Dict
end TemplateBar
