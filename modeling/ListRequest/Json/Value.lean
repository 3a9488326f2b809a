import ListRequest.Json.Event

/-! # Reading JSON values

* `Builder`: the values of the open containers, as far as they are read.
* `Json.parse`: the value of a text. The number of nested containers can be limited.
-/

namespace ListRequest.Json
set_option autoImplicit false

inductive Frame where
  | array (items : Array Json)
  /-- The members of an object, and the key of the next one. -/
  | object (members : Array (String × Json)) (key : String)
  deriving Inhabited

namespace Frame

def start : Bracket → Frame
  | .array => array #[]
  | .object => object #[] ""

def add (value : Json) : Frame → Frame
  | array items => array (items.push value)
  | object members key => object (insertMember members key value) ""

def close : Frame → Json
  | array items => .arr items.toList
  | object members _ => .obj members.toList

end Frame

structure Builder where
  frames : List Frame := []
  /-- The value outside all containers. -/
  result : Option Json := none
  deriving Inhabited

namespace Builder

def put (value : Json) : List Frame → Builder
  | [] => ⟨[], some value⟩
  | frame :: outer => ⟨frame.add value :: outer, none⟩

/-- Takes one event. At most `limit` containers may be open. -/
def accept (limit : Option Nat) (b : Builder) : Event → Except Fault Builder
  | .string q => do return put (.str (← q.decode)) b.frames
  | .scalar s => do return put (← s.read) b.frames
  | .opened bracket =>
    if limit.any (· ≤ b.frames.length) then .error .malformed
    else .ok { b with frames := .start bracket :: b.frames }
  | .closed =>
    match b.frames with
    | [] => .ok b
    | frame :: outer => .ok (put frame.close outer)
  | .key q => do
    let key ← q.decode
    match b.frames with
    | .object members _ :: outer => return { b with frames := .object members key :: outer }
    | _ => return b
  | .comma => .ok b
  | .colon => .ok b

end Builder

/-- The value of a JSON text, with at most `limit` containers inside each other. -/
def parse (limit : Option Nat) (text : String) : Except Fault Json := do
  let b ← readDocument (Builder.accept limit) {} text
  match b.result with
  | some value => return value
  | none => .error .endOfText

end ListRequest.Json
