import ListRequest.Field.Scan

/-! # What happens to groups while a selection is read

The events of a selection text: each group as it is opened and closed, up to the first fault.
-/

namespace ListRequest.Field
set_option autoImplicit false

inductive GroupEvent where
  /-- A group is opened at an offset; so many groups are then open. -/
  | opened (offset depth : Nat)
  /-- The group of a relation is closed with so many nodes in it. -/
  | closed (name : String) (count : Nat)
  deriving DecidableEq, Inhabited

def GroupEvent.message : GroupEvent → String
  | opened offset depth => s!"opened group at offset {offset}, depth {depth}"
  | closed name count => s!"closed group '{name}' with {count} child node(s)"

namespace Scan

/-- What an accepted symbol does to groups. -/
def event? (s : Scan) (x : Located) : Option GroupEvent :=
  if s.current.quoted then none
  else
    match x.symbol, s.outer with
    | .lparen, outer => some (.opened x.offset (outer.length + 1))
    | .rparen, parent :: _ => some (.closed parent.pending s.current.finish.length)
    | _, _ => none

/-- The events of `xs`, after those in `seen`, until a symbol is at fault. -/
def trace (s : Scan) (seen : Array GroupEvent) : List Located → Array GroupEvent
  | [] => seen
  | x :: xs =>
    match s.step x with
    | .error _ => seen
    | .ok s' =>
      match s.event? x with
      | none => s'.trace seen xs
      | some e => s'.trace (seen.push e) xs

end Scan

def trace (text : String) : List GroupEvent :=
  (Scan.start.trace #[] (symbols text)).toList

end ListRequest.Field
