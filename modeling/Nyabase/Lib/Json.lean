import Nyabase.Lib.AssocList
import Mathlib.Data.Rat.Defs

/-!
# JSON values

The values `JSON.parse` gives.  An object is the list of its entries, in the order it enumerates them.
-/

namespace Nyabase.Lib

inductive Json where
  | null
  | bool (value : Bool)
  | num (value : Rat)
  | str (value : String)
  | arr (items : List Json)
  | obj (fields : List (String × Json))

namespace Json

/-- The entries of an object; `none` for any other value. -/
def fields? : Json → Option (List (String × Json))
  | obj fields => some fields
  | _ => none

def str? : Json → Option String
  | str value => some value
  | _ => none

def bool? : Json → Option Bool
  | bool value => some value
  | _ => none

def items? : Json → Option (List Json)
  | arr items => some items
  | _ => none

@[simp] theorem fields?_eq_some {value : Json} {fields : List (String × Json)} :
    value.fields? = some fields ↔ value = obj fields := by
  cases value <;> simp [fields?]

/-- The string entries of an object, as a map of strings. -/
def strings (fields : List (String × Json)) : List (String × String) :=
  fields.filterMap fun entry => entry.2.str?.map fun value => (entry.1, value)

/-- A map of strings as an object. -/
def ofStrings (entries : List (String × String)) : Json :=
  obj (entries.map fun entry => (entry.1, str entry.2))

@[simp] theorem strings_ofStrings (entries : List (String × String)) :
    strings (entries.map fun entry => (entry.1, str entry.2)) = entries := by
  induction entries with
  | nil => rfl
  | cons entry entries ih => simp [strings, str?]

end Json
end Nyabase.Lib
