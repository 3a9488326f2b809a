import ListRequest.Field.Trace
import ListRequest.Request.Basic

/-! # The log of a request

What is recorded while a request is read: each group of the selection as it is opened and closed,
then how much was read. After a fault nothing more is recorded.

* `Record`: one record, with its severity and its message.
* `Recorded`: a reading that keeps records.
* `RawRequest.recorded`: the three parameters in their order; `RawRequest.log`: its records.
-/

namespace ListRequest
set_option autoImplicit false

inductive Severity where
  | trace
  | debug
  deriving DecidableEq, Inhabited

def Severity.text : Severity → String
  | trace => "trace"
  | debug => "debug"

inductive Record where
  | group (event : Field.GroupEvent)
  /-- The selection has so many nodes outside all groups. -/
  | fields (count : Nat)
  | sorts (count : Nat)
  /-- The request has so many nodes, filters and sort keys. -/
  | request (fields filters sorts : Nat)
  deriving DecidableEq, Inhabited

namespace Record

def severity : Record → Severity
  | group _ => .trace
  | _ => .debug

def message : Record → String
  | group event => event.message
  | fields count => s!"parsed {count} top-level field node(s)"
  | sorts count => s!"parsed {count} sort directive(s)"
  | request nodes named keys =>
    s!"parsed request input: {nodes} field node(s), {named} filter(s), {keys} sort(s)"

end Record

/-! ## Reading with records -/

/-- What is read, and what is recorded meanwhile. -/
structure Recorded (α : Type) where
  records : List Record
  outcome : Except RequestError α

namespace Recorded

def record (r : Record) : Recorded Unit := ⟨[r], .ok ()⟩

/-- Goes on with what was read; after a fault nothing more is recorded. -/
def bind {α β : Type} (x : Recorded α) (f : α → Recorded β) : Recorded β :=
  match x.outcome with
  | .error e => ⟨x.records, .error e⟩
  | .ok a => ⟨x.records ++ (f a).records, (f a).outcome⟩

instance : Monad Recorded where
  pure a := ⟨[], .ok a⟩
  bind := bind

/-- A reading without records. -/
instance : MonadLift (Except RequestError) Recorded where
  monadLift outcome := ⟨[], outcome⟩

end Recorded

/-! ## Requests -/

/-- What is recorded while the value of the fields is read. -/
def logFields : Json → List Record
  | .str text =>
    (Field.trace text).map .group ++
      match Field.parse text with
      | .ok nodes => [.fields nodes.length]
      | .error _ => []
  | _ => []

def recordFields (value : Json) : Recorded (List Field.Node) := ⟨logFields value, readFields value⟩

def recordSorts (value : Json) : Recorded (List SortKey) := do
  let keys ← readSorts value
  .record (.sorts keys.length)
  return keys

namespace RawRequest

def recorded (raw : RawRequest) : Recorded Request := do
  let fields ← recordFields raw.fields
  let filters ← readFilters raw.filters
  let sorts ← recordSorts raw.sorts
  .record (.request fields.length filters.length sorts.length)
  return { fields, filters, sorts }

/-- What is recorded while a request is read. -/
def log (raw : RawRequest) : List Record := raw.recorded.records

end RawRequest

end ListRequest
