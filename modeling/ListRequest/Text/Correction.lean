import ListRequest.Text.Cluster.Split
import ListRequest.Text.Basic

/-! # Typed corrections

A line may hold backspaces. Each erases the grapheme cluster before it that is not yet erased, and
one with nothing before it erases nothing. How many bytes a cluster takes is kept in one byte: of a
cluster of 256 bytes or more, only the bytes beyond the last multiple of 256 are erased.

* `Typed`: a line that is being typed; `Typed.press` adds a cluster to it.
* `correct?`: a line without its backspaces, unless one of them cuts a character apart.
-/

namespace ListRequest.Text
set_option autoImplicit false

def backspace : Char := '\x08'

/-- A line that is being typed. -/
structure Typed where
  text : List Char := []
  /-- The sizes of its clusters in bytes, as far as one byte holds them, the last one first. -/
  sizes : List Nat := []
  deriving DecidableEq, Inhabited

/-- Drops as many bytes as `n` from the start; `none` when this cuts a character apart. -/
def dropBytes? (n : Nat) : List Char → Option (List Char)
  | [] => if n = 0 then some [] else none
  | c :: cs =>
    if n = 0 then some (c :: cs)
    else if c.utf8Size ≤ n then dropBytes? (n - c.utf8Size) cs
    else none

namespace Typed

def erase (t : Typed) : Option Typed :=
  match t.sizes with
  | [] => some t
  | n :: sizes => (dropBytes? n t.text).map fun text => ⟨text, sizes⟩

/-- Types one more cluster, or erases one. -/
def press (t : Typed) (cluster : List Char) : Option Typed :=
  if cluster = [backspace] then t.erase
  else some ⟨cluster.reverse ++ t.text, utf8Length cluster % 256 :: t.sizes⟩

end Typed

/-- A line without its backspaces; `none` when one of them cuts a character apart. -/
def correct? (line : String) : Option String :=
  ((Cluster.clusters line.toList).foldlM Typed.press {}).map fun t => .ofList t.text.reverse

end ListRequest.Text
