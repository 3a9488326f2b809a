import ListRequest.Text.Basic

/-! # Sort keys

A sort order is a list of keys, each a field and a direction, written `field.direction`.

* `SortKey.ofEntry?`: one entry. Blanks around it do not count, an entry of blanks is no key, the
  first point ends the field, and a direction that is not known means ascending.
* `SortKey.parse`: entries between commas.
* `SortKey.render`: a key as an entry.
-/

namespace ListRequest
set_option autoImplicit false

inductive Direction where
  | ascending
  | descending
  deriving DecidableEq, Inhabited

namespace Direction

def text : Direction → String
  | ascending => "asc"
  | descending => "desc"

def ofText? (word : String) : Option Direction :=
  if word = "asc" then some ascending
  else if word = "desc" then some descending
  else none

@[simp] theorem ofText?_text (d : Direction) : ofText? d.text = some d := by
  cases d <;> decide

end Direction

/-- A field to sort by, and in which direction. -/
structure SortKey where
  field : String
  direction : Direction := .ascending
  deriving DecidableEq, Inhabited

namespace SortKey

/-- A key as an entry of a sort order. -/
def render (key : SortKey) : String := key.field ++ "." ++ key.direction.text

/-- What follows the field of an entry: a direction after a point, or nothing. -/
def directionOf : List Char → Direction
  | '.' :: word => (Direction.ofText? (.ofList word)).getD .ascending
  | _ => .ascending

/-- The key that an entry names; `none` for a blank entry. -/
def ofEntry? (entry : String) : Option SortKey :=
  match Text.trimBlanks entry.toList with
  | [] => none
  | cs => some ⟨.ofList (cs.takeWhile (· ≠ '.')), directionOf (cs.dropWhile (· ≠ '.'))⟩

/-- The keys of a sort order written with commas between its entries. -/
def parse (text : String) : List SortKey :=
  (text.toList.splitOn ',').filterMap fun entry => ofEntry? (.ofList entry)

end SortKey

end ListRequest
