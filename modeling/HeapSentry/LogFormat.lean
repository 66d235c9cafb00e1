/-!
# Log formats
-/

namespace HeapSentry

inductive LogFormat where
  | text | json
  deriving DecidableEq, Repr

namespace LogFormat

/-- Reads the name of a format; ASCII letters may be of either case.  A name of no format is given
back in lower case. -/
def ofName (name : String) : Except String LogFormat :=
  let lowered := name.map Char.toLower
  if lowered = "text" then .ok .text
  else if lowered = "json" then .ok .json
  else .error lowered

/-- What is said about a name of no format. -/
def unknownMessage (lowered : String) : String :=
  s!"unknown log format '{lowered}', expected text or json"

end LogFormat

end HeapSentry
