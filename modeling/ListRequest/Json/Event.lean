import ListRequest.Json.Token

/-! # Events of JSON texts

The grammar of JSON as a machine over tokens. It keeps the brackets that are open and what may come
next, refuses a token that is out of place, and reports each other token as an event, so that a
reader of JSON texts has to say only what it does with keys, scalars and brackets.

* `Outline`: the state of the machine; `Outline.step`: one token.
* `readDocument`: feeds the events of a whole text to a reader.
-/

namespace ListRequest.Json
set_option autoImplicit false

inductive Bracket where
  | array
  | object
  deriving DecidableEq, Inhabited

/-- What a token does in its place. -/
inductive Event where
  | key (q : Quoted)
  | string (q : Quoted)
  /-- Another scalar as a value. -/
  | scalar (s : Scalar)
  | opened (b : Bracket)
  | closed
  /-- A comma: another item or member follows. -/
  | comma
  /-- A colon: the value of the key follows. -/
  | colon
  deriving DecidableEq, Inhabited

/-- What may come next. -/
inductive Due where
  | value
  /-- A value, or the end of an array that has no items yet. -/
  | firstItem
  | key
  /-- A key, or the end of an object that has no members yet. -/
  | firstKey
  | colon
  /-- A comma or the end of the container; outside all containers, nothing. -/
  | separator
  deriving DecidableEq, Inhabited

/-- How far a JSON text is read. -/
structure Outline where
  due : Due := .value
  inside : List Bracket := []
  deriving DecidableEq, Inhabited

namespace Outline

/-- A value has been read to its end. -/
def complete (o : Outline) : Bool := o.due = .separator && o.inside.isEmpty

def value? (o : Outline) : Token → Option (Outline × Event)
  | .string q => some ({ o with due := .separator }, .string q)
  | .scalar s => some ({ o with due := .separator }, .scalar s)
  | .lbracket => some (⟨.firstItem, .array :: o.inside⟩, .opened .array)
  | .lbrace => some (⟨.firstKey, .object :: o.inside⟩, .opened .object)
  | _ => none

def key? (o : Outline) : Token → Option (Outline × Event)
  | .string q => some ({ o with due := .colon }, .key q)
  | _ => none

def separator? (o : Outline) (t : Token) : Option (Outline × Event) :=
  match o.inside, t with
  | .array :: _, .comma => some ({ o with due := .value }, .comma)
  | .object :: _, .comma => some ({ o with due := .key }, .comma)
  | .array :: outer, .rbracket => some (⟨.separator, outer⟩, .closed)
  | .object :: outer, .rbrace => some (⟨.separator, outer⟩, .closed)
  | _, _ => none

/-- Reads one token; `none` when it is out of place. -/
def step (o : Outline) (t : Token) : Option (Outline × Event) :=
  match o.due with
  | .value => o.value? t
  | .firstItem => if t = .rbracket then o.separator? t else o.value? t
  | .key => o.key? t
  | .firstKey => if t = .rbrace then o.separator? t else o.key? t
  | .colon => if t = .colon then some ({ o with due := .value }, .colon) else none
  | .separator => o.separator? t

end Outline

/-- Feeds one token to a reader of events. -/
def readToken {σ : Type} (accept : σ → Event → Except Fault σ) (reached : Outline × σ) (t : Token) :
    Except Fault (Outline × σ) :=
  match reached.1.step t with
  | none => .error .malformed
  | some (o, e) => (accept reached.2 e).map (o, ·)

/-- Feeds the events of a text to a reader. The text has to hold exactly one value. -/
def readDocument {σ : Type} (accept : σ → Event → Except Fault σ) (start : σ) (text : String) :
    Except Fault σ :=
  match Token.fold (readToken accept) ({}, start) text.toList with
  | .error f => .error f
  | .ok (o, s) => if o.complete then .ok s else .error .endOfText

end ListRequest.Json
