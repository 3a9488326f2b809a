import ListRequest.Json.Basic
import ListRequest.Decimal.Notation

/-! # Writing JSON

* `Json.compact`: a value on one line without spaces.
* `Json.pretty`: a value with one item or member a line, indented by two spaces a level.

Both are `Json.write` with a `Layout`. Quotes, backslashes and control characters are escaped and
all other characters stand for themselves.
-/

namespace ListRequest.Json
set_option autoImplicit false

/-! ## Strings and numbers -/

def hexDigit (n : Nat) : Char := Nat.digitChar (n % 16)

/-- A character inside a JSON string. -/
def escape (c : Char) : List Char :=
  if c = '"' then ['\\', '"']
  else if c = '\\' then ['\\', '\\']
  else if c.toNat = 0x08 then ['\\', 'b']
  else if c.toNat = 0x09 then ['\\', 't']
  else if c.toNat = 0x0A then ['\\', 'n']
  else if c.toNat = 0x0C then ['\\', 'f']
  else if c.toNat = 0x0D then ['\\', 'r']
  else if c.toNat < 0x20 then
    ['\\', 'u', '0', '0', hexDigit (c.toNat / 16), hexDigit c.toNat]
  else [c]

def quoted (text : String) : String :=
  "\"" ++ .ofList (text.toList.flatMap escape) ++ "\""

def Number.text : Number → String
  | int value =>
    .ofList (if value < 0 then '-' :: Decimal.digits value.natAbs else Decimal.digits value.natAbs)
  | float value => Decimal.floatText value

/-! ## Values -/

/-- Where line breaks and spaces go. -/
structure Layout where
  /-- What stands before an item or member that so many containers enclose, and before the bracket
  that closes a container that so many containers enclose. -/
  line : Nat → String
  colon : String

def Layout.compact : Layout := ⟨fun _ => "", ":"⟩

/-- One item or member a line, indented by two spaces a level. -/
def Layout.pretty : Layout := ⟨fun depth => .ofList ('\n' :: .replicate (2 * depth) ' '), ": "⟩

mutual

/-- Writes a value inside `depth` containers after `out`. -/
def write (l : Layout) (depth : Nat) (out : String) : Json → String
  | null => out ++ "null"
  | bool true => out ++ "true"
  | bool false => out ++ "false"
  | num value => out ++ value.text
  | str value => out ++ quoted value
  | arr [] => out ++ "[]"
  | arr (v :: vs) =>
    let out := write l (depth + 1) (out ++ "[" ++ l.line (depth + 1)) v
    writeItems l (depth + 1) out vs ++ l.line depth ++ "]"
  | obj [] => out ++ "\x7b\x7d"
  | obj ((key, v) :: ms) =>
    let out := out ++ "\x7b" ++ l.line (depth + 1) ++ quoted key ++ l.colon
    writeMembers l (depth + 1) (write l (depth + 1) out v) ms ++ l.line depth ++ "\x7d"

/-- Writes the items after the first. -/
def writeItems (l : Layout) (depth : Nat) (out : String) : List Json → String
  | [] => out
  | v :: vs => writeItems l depth (write l depth (out ++ "," ++ l.line depth) v) vs

/-- Writes the members after the first. -/
def writeMembers (l : Layout) (depth : Nat) (out : String) : List (String × Json) → String
  | [] => out
  | (key, v) :: ms =>
    let out := out ++ "," ++ l.line depth ++ quoted key ++ l.colon
    writeMembers l depth (write l depth out v) ms

end

def compact (v : Json) : String := write .compact 0 "" v

def pretty (v : Json) : String := write .pretty 0 "" v

end ListRequest.Json
