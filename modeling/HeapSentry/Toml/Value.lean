/-!
# TOML values

Dates and times are checked when they are read but not kept: no setting is one.
-/

namespace HeapSentry.Toml

inductive Value where
  | string (s : String)
  | integer (i : Int)
  | float (x : Float)
  | boolean (b : Bool)
  | datetime
  | array (items : List Value)
  | table (entries : List (String × Value))

end HeapSentry.Toml
