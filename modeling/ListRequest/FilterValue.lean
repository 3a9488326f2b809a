import ListRequest.Json.Basic

/-! # Filter values

A filter is given as a JSON value. Only its shape is looked at: one text, several texts, or anything
else, which is kept as it is.
-/

namespace ListRequest
set_option autoImplicit false

inductive FilterValue where
  | single (text : String)
  /-- An array of nothing but strings. -/
  | many (texts : List String)
  | raw (value : Json)
  deriving DecidableEq, Inhabited

namespace FilterValue

def ofJson : Json → FilterValue
  | .str text => single text
  | .arr items =>
    match items.mapM Json.str? with
    | some texts => many texts
    | none => raw (.arr items)
  | value => raw value

def toJson : FilterValue → Json
  | single text => .str text
  | many texts => .arr (texts.map .str)
  | raw value => value

end FilterValue

/-- Filters by name, in the order in which they are given. -/
abbrev Filters := List (String × FilterValue)

namespace Filters

def ofMembers (members : List (String × Json)) : Filters :=
  members.map fun (name, value) => (name, .ofJson value)

def toJson (filters : Filters) : Json :=
  .obj (filters.map fun (name, value) => (name, value.toJson))

end Filters

end ListRequest
