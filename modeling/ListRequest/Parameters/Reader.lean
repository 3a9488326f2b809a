import ListRequest.Json.Event
import ListRequest.Request.Raw

/-! # Parameter names from a configuration text

A configuration is a JSON object whose members `fields`, `filters` and `sort` name the parameters;
other members are skipped. It may also be an array with the names in this order. A name that is not
given is the default one.

The text is read in one pass, so that the first fault counts: a value of the wrong kind or a repeated
name is at fault before whatever follows it.
-/

namespace ListRequest
set_option autoImplicit false

inductive Parameter where
  | fields
  | filters
  | sort
  deriving DecidableEq, Inhabited

/-- The parameters in the order of a configuration array. -/
def Parameter.inOrder : List Parameter := [fields, filters, sort]

/-- The parameter that a key of a configuration object names. -/
def Parameter.ofKey? (key : String) : Option Parameter :=
  if key = "fields" then some fields
  else if key = "filters" then some filters
  else if key = "sort" then some sort
  else none

namespace Parameters

/-! ## Names read so far -/

/-- The names that a configuration has given so far. -/
structure Draft where
  fields : Option String := none
  filters : Option String := none
  sort : Option String := none
  deriving DecidableEq, Inhabited

namespace Draft

def get? (d : Draft) : Parameter → Option String
  | .fields => d.fields
  | .filters => d.filters
  | .sort => d.sort

def set (d : Draft) (p : Parameter) (name : String) : Draft :=
  match p with
  | .fields => { d with fields := some name }
  | .filters => { d with filters := some name }
  | .sort => { d with sort := some name }

/-- The names, with defaults for those not given. -/
def names (d : Draft) : Parameters :=
  let usual : Parameters := {}
  { fields := d.fields.getD usual.fields
    filters := d.filters.getD usual.filters
    sort := d.sort.getD usual.sort }

end Draft

/-! ## Reading -/

/-- Where in a configuration the next event falls. -/
inductive Place where
  | outside
  | members
  | named (p : Parameter)
  /-- At or in the value of another member, inside so many containers of it. -/
  | skipped (depth : Nat)
  /-- In the array, with these parameters still to come. -/
  | items (rest : List Parameter)
  | done
  deriving DecidableEq, Inhabited

/-- Where the reading of a skipped value goes on once a part of it has ended. -/
def afterSkipped : Nat → Place
  | 0 => .members
  | depth + 1 => .skipped (depth + 1)

/-- Refuses a value that should have been a string. A fault in its spelling comes first. -/
def refuse : Json.Event → Except Json.Fault (Place × Draft)
  | .scalar s => do
    let _ ← s.read
    .error .wrongShape
  | .string q => do
    let _ ← q.decode
    .error .wrongShape
  | .opened _ => .error .wrongShape
  | _ => .error .malformed

/-- Takes one event of a configuration text. -/
def accept : Place × Draft → Json.Event → Except Json.Fault (Place × Draft)
  | (.outside, d), .opened .object => .ok (.members, d)
  | (.outside, d), .opened .array => .ok (.items Parameter.inOrder, d)
  | (.outside, _), e => refuse e
  | (.members, d), .key q => do
    match Parameter.ofKey? (← q.decode) with
    | none => return (.skipped 0, d)
    | some p => if (d.get? p).isSome then .error .wrongShape else return (.named p, d)
  | (.members, d), .comma => .ok (.members, d)
  | (.members, d), .closed => .ok (.done, d)
  | (.members, _), _ => .error .malformed
  | (.named p, d), .colon => .ok (.named p, d)
  | (.named p, d), .string q => do return (.members, d.set p (← q.decode))
  | (.named _, _), e => refuse e
  | (.skipped depth, d), .string q => do
    q.skip
    return (afterSkipped depth, d)
  | (.skipped depth, d), .scalar s => do
    s.skip
    return (afterSkipped depth, d)
  | (.skipped depth, d), .key q => do
    q.skip
    return (.skipped depth, d)
  | (.skipped depth, d), .opened _ => .ok (.skipped (depth + 1), d)
  | (.skipped depth, d), .closed => .ok (afterSkipped (depth - 1), d)
  | (.skipped depth, d), .comma => .ok (.skipped depth, d)
  | (.skipped depth, d), .colon => .ok (.skipped depth, d)
  | (.items _, d), .closed => .ok (.done, d)
  | (.items [], _), _ => .error .malformed
  | (.items rest, d), .comma => .ok (.items rest, d)
  | (.items (p :: rest), d), .string q => do return (.items rest, d.set p (← q.decode))
  | (.items _, _), e => refuse e
  | (.done, _), _ => .error .malformed

def ofText (text : String) : Except Json.Fault Parameters := do
  let (_, d) ← Json.readDocument accept (.outside, {}) text
  return d.names

end Parameters

end ListRequest
