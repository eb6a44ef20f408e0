import FormWeaver.Text.Numeral

/-!
# JSON values

The program writes its reports as JSON and keeps its cache as lines of JSON. A number is kept as it
is written, since all numbers here are counts and times; a string that spells half of a surrogate
pair denotes no text and is `garbled`, which a reader may pass over but not use; so is an object with
such a string for a name.
-/

namespace FormWeaver

/-- A JSON value. -/
inductive Json where
  | null
  | bool (b : Bool)
  | number (literal : String)
  | string (text : String)
  | garbled
  | array (items : List Json)
  | object (members : List (String × Json))

namespace Json

/-- A number. -/
def ofNat (n : Nat) : Json := .number (Text.decimal n)

end Json
end FormWeaver
