import ListRequest.Field.Scan
import ListRequest.FilterValue
import ListRequest.SortKey
import ListRequest.Request.Raw

/-! # Requests

What a request asks for: the fields to select, the filters to apply and the order to sort by.

* `RequestError`: why the values of a request are refused.
* `readFields`, `readFilters`, `readSorts`: one parameter each; null asks for nothing.
* `RawRequest.parse`: all three, in this order, up to the first fault.
* `Parameters.parse`: a request object whose parameters have configured names.
* `Request.toJson`: a request as JSON.
-/

namespace ListRequest
set_option autoImplicit false

/-! ## Faults -/

inductive RequestError where
  | fieldsKind (found : Json.Kind)
  | selection (cause : Field.GroupError)
  | filtersKind (found : Json.Kind)
  /-- The sort order, or one entry of it, is not given as a text. -/
  | sortKind (found : Json.Kind)
  deriving DecidableEq, Inhabited

def RequestError.message : RequestError → String
  | fieldsKind found => s!"不支持的字段参数: 期望字符串, 实际为 {found.text}"
  | selection cause => cause.message
  | filtersKind found => s!"无效的过滤参数: 期望对象, 实际为 {found.text}"
  | sortKind found => s!"无效的排序参数: 期望字符串或字符串数组, 实际为 {found.text}"

/-! ## The three parameters -/

/-- The nodes that the value of the fields selects. -/
def readFields : Json → Except RequestError (List Field.Node)
  | .null => .ok []
  | .str text => (Field.parse text).mapError .selection
  | value => .error (.fieldsKind value.kind)

def readFilters : Json → Except RequestError Filters
  | .null => .ok []
  | .obj members => .ok (.ofMembers members)
  | value => .error (.filtersKind value.kind)

/-- The text of one entry of a sort order. -/
def readEntry : Json → Except RequestError String
  | .str entry => .ok entry
  | value => .error (.sortKind value.kind)

/-- The sort keys of a value: a text with commas, or an array with one entry an item. -/
def readSorts : Json → Except RequestError (List SortKey)
  | .null => .ok []
  | .str text => .ok (SortKey.parse text)
  | .arr items => do
    let entries ← items.mapM readEntry
    return entries.filterMap SortKey.ofEntry?
  | value => .error (.sortKind value.kind)

/-! ## Whole requests -/

structure Request where
  fields : List Field.Node := []
  filters : Filters := []
  sorts : List SortKey := []
  deriving DecidableEq, Inhabited

def RawRequest.parse (raw : RawRequest) : Except RequestError Request := do
  let fields ← readFields raw.fields
  let filters ← readFilters raw.filters
  let sorts ← readSorts raw.sorts
  return { fields, filters, sorts }

/-- Reads the request in the members of an object. -/
def Parameters.parse (names : Parameters) (members : List (String × Json)) :
    Except RequestError Request :=
  (RawRequest.pick names members).parse

/-! ## Requests as JSON -/

mutual

/-- A node as an object that is tagged with its type. -/
def Field.Node.toJson : Field.Node → Json
  | .field name => .obj [("type", .str "field"), ("name", .str name)]
  | .relation name children =>
    .obj [("type", .str "relation"), ("name", .str name), ("children", .arr (Field.toJsons children))]

def Field.toJsons : List Field.Node → List Json
  | [] => []
  | n :: ns => n.toJson :: Field.toJsons ns

end

def SortKey.toJson (key : SortKey) : Json :=
  .obj [("field", .str key.field), ("direction", .str key.direction.text)]

def Request.toJson (r : Request) : Json :=
  .obj [("fields", .arr (Field.toJsons r.fields)), ("filters", r.filters.toJson),
    ("sorts", .arr (r.sorts.map SortKey.toJson))]

end ListRequest
