import ListRequest.Json.Basic

/-! # Raw requests

The three values of a request before they are read, and the names under which an object holds them.
A parameter that is absent has the value that selects, filters and sorts nothing.
-/

namespace ListRequest
set_option autoImplicit false

/-- The names of the three parameters of a request. -/
structure Parameters where
  fields : String := "fields"
  filters : String := "filters"
  sort : String := "sort"
  deriving DecidableEq, Inhabited

/-- The values of the three parameters of a request. -/
structure RawRequest where
  fields : Json
  filters : Json
  sorts : Json
  deriving DecidableEq, Inhabited

namespace RawRequest

/-- The values that the members of an object have under the names of the parameters. -/
def pick (names : Parameters) (members : List (String × Json)) : RawRequest where
  fields := (members.lookup names.fields).getD (.str "")
  filters := (members.lookup names.filters).getD (.obj [])
  sorts := (members.lookup names.sort).getD (.arr [])

/-- The names of the parameters where a request is held as a plain mapping. -/
def logicalNames : Parameters := ⟨"fields", "filters", "sorts"⟩

def ofMembers (members : List (String × Json)) : RawRequest := pick logicalNames members

end RawRequest

end ListRequest
