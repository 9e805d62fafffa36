import Breaker.Binary64

/-!
# TOML values

What a TOML document says, without the way it was written: a table is a list
of keys with their values, in the order in which the document brings them up.
-/

namespace Breaker.Toml

/-- A value of a document.  Nothing here looks into a date or time. -/
inductive Value where
  | text (s : String)
  | integer (n : Int)
  | float (x : Binary64)
  | boolean (b : Bool)
  | dateTime
  | array (items : List Value)
  | table (entries : List (String × Value))
  deriving Repr, Inhabited

/-- A reader takes something off the front of a text, if it is there. -/
abbrev Reader (α : Type) := List Char → Option (α × List Char)

end Breaker.Toml
