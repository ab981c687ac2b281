import Mathlib.Data.Nat.Notation

/-!
# JSON values

The tree of a decoded JSON document.  Object members are kept in the order of the document's
map.
-/

namespace Lib

/-- A JSON number: unsigned, negative or floating. -/
inductive JsonNumber
  | pos (n : UInt64)
  | neg (n : Int64) (h : n < 0)
  | float (x : Float)

/-- A JSON value. -/
inductive Json
  | null
  | bool (b : Bool)
  | num (n : JsonNumber)
  | str (s : String)
  | arr (items : List Json)
  | obj (members : List (String × Json))

end Lib
