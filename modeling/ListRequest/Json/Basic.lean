import ListRequest.Json.Number

/-! # JSON values

* `Json`: a value. The members of an object are kept in order.
* `Kind`: the six kinds of values, with the words for them.
* `insertMember`: adds a member; the last value of a repeated key stays at its first place.
* `Fault`: what is wrong with a text at the first place where something is wrong.
-/

namespace ListRequest
set_option autoImplicit false

inductive Json where
  | null
  | bool (value : Bool)
  | num (value : Json.Number)
  | str (value : String)
  | arr (items : List Json)
  | obj (members : List (String × Json))
  deriving Inhabited

namespace Json

inductive Kind where
  | null
  | boolean
  | number
  | string
  | array
  | object
  deriving DecidableEq, Inhabited

def Kind.text : Kind → String
  | null => "null"
  | boolean => "boolean"
  | number => "number"
  | string => "string"
  | array => "array"
  | object => "object"

def kind : Json → Kind
  | null => .null
  | bool _ => .boolean
  | num _ => .number
  | str _ => .string
  | arr _ => .array
  | obj _ => .object

def str? : Json → Option String
  | str value => some value
  | _ => none

/-- Adds a member. A key that is there already keeps its place and gets the new value. -/
def insertMember (members : Array (String × Json)) (key : String) (value : Json) :
    Array (String × Json) :=
  match members.findIdx? fun m => m.1 = key with
  | some i => members.setIfInBounds i (key, value)
  | none => members.push (key, value)

/-! ## Faults of JSON texts -/

/-- The first thing that is wrong with a text. -/
inductive Fault where
  | endOfText
  | malformed
  /-- The text is JSON so far, but not of the shape that is wanted. -/
  | wrongShape
  deriving DecidableEq, Inhabited

/-! ## Equality -/

mutual

def decEq : (a b : Json) → Decidable (a = b)
  | null, null => isTrue rfl
  | bool x, bool y => if h : x = y then isTrue (h ▸ rfl) else isFalse fun e => h (bool.inj e)
  | num x, num y => if h : x = y then isTrue (h ▸ rfl) else isFalse fun e => h (num.inj e)
  | str x, str y => if h : x = y then isTrue (h ▸ rfl) else isFalse fun e => h (str.inj e)
  | arr xs, arr ys =>
    match decEqItems xs ys with
    | isTrue h => isTrue (h ▸ rfl)
    | isFalse h => isFalse fun e => h (arr.inj e)
  | obj xs, obj ys =>
    match decEqMembers xs ys with
    | isTrue h => isTrue (h ▸ rfl)
    | isFalse h => isFalse fun e => h (obj.inj e)
  | null, bool _ | null, num _ | null, str _ | null, arr _ | null, obj _
  | bool _, null | bool _, num _ | bool _, str _ | bool _, arr _ | bool _, obj _
  | num _, null | num _, bool _ | num _, str _ | num _, arr _ | num _, obj _
  | str _, null | str _, bool _ | str _, num _ | str _, arr _ | str _, obj _
  | arr _, null | arr _, bool _ | arr _, num _ | arr _, str _ | arr _, obj _
  | obj _, null | obj _, bool _ | obj _, num _ | obj _, str _ | obj _, arr _ => isFalse nofun

def decEqItems : (xs ys : List Json) → Decidable (xs = ys)
  | [], [] => isTrue rfl
  | [], _ :: _ => isFalse nofun
  | _ :: _, [] => isFalse nofun
  | x :: xs, y :: ys =>
    match decEq x y, decEqItems xs ys with
    | isTrue h, isTrue hs => isTrue (by rw [h, hs])
    | isFalse h, _ => isFalse fun e => h (List.cons.inj e).1
    | _, isFalse hs => isFalse fun e => hs (List.cons.inj e).2

def decEqMembers : (xs ys : List (String × Json)) → Decidable (xs = ys)
  | [], [] => isTrue rfl
  | [], _ :: _ => isFalse nofun
  | _ :: _, [] => isFalse nofun
  | (k, x) :: xs, (l, y) :: ys =>
    if hk : k = l then
      match decEq x y, decEqMembers xs ys with
      | isTrue h, isTrue hs => isTrue (by rw [hk, h, hs])
      | isFalse h, _ => isFalse fun e => h (Prod.mk.inj (List.cons.inj e).1).2
      | _, isFalse hs => isFalse fun e => hs (List.cons.inj e).2
    else isFalse fun e => hk (Prod.mk.inj (List.cons.inj e).1).1

end

instance : DecidableEq Json := decEq

end Json

end ListRequest
