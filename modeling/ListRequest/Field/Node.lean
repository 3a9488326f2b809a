/-! # Field trees

A field selection is a list of nodes. A node is a plain field, or a relation that selects nodes of
its own.

* `Node`: the tree, with decidable equality.
* `Node.render`: a node in the selection grammar; `renderAll` joins siblings with commas. A name is
  put in quotes when it holds a comma or a parenthesis (`writeName`).
-/

namespace ListRequest.Field
set_option autoImplicit false

inductive Node where
  | field (name : String)
  | relation (name : String) (children : List Node)
  deriving Inhabited

namespace Node

def name : Node → String
  | field name => name
  | relation name _ => name

/-- The nodes below a relation; `none` for a plain field. -/
def children? : Node → Option (List Node)
  | field _ => none
  | relation _ children => some children

def isRelation (n : Node) : Bool := n.children?.isSome

/-! ## Equality -/

mutual

def decEq : (a b : Node) → Decidable (a = b)
  | field m, field n =>
    if h : m = n then isTrue (h ▸ rfl) else isFalse fun e => h (field.inj e)
  | field _, relation _ _ => isFalse nofun
  | relation _ _, field _ => isFalse nofun
  | relation m as, relation n bs =>
    if h : m = n then
      match decEqAll as bs with
      | isTrue hs => isTrue (by rw [h, hs])
      | isFalse hs => isFalse fun e => hs (relation.inj e).2
    else isFalse fun e => h (relation.inj e).1

def decEqAll : (as bs : List Node) → Decidable (as = bs)
  | [], [] => isTrue rfl
  | [], _ :: _ => isFalse nofun
  | _ :: _, [] => isFalse nofun
  | a :: as, b :: bs =>
    match decEq a b with
    | isTrue h =>
      match decEqAll as bs with
      | isTrue hs => isTrue (by rw [h, hs])
      | isFalse hs => isFalse fun e => hs (List.cons.inj e).2
    | isFalse h => isFalse fun e => h (List.cons.inj e).1

end

instance : DecidableEq Node := decEq

end Node

/-! ## The selection grammar -/

/-- A character that ends a name outside quotes. -/
def isDelimiter (c : Char) : Bool := c = ',' || c = '(' || c = ')'

/-- A name as it is written in a selection: in quotes when it holds a delimiter. -/
def writeName (name : String) : String :=
  if name.toList.any isDelimiter then "\"" ++ name ++ "\"" else name

mutual

/-- A node as it is written in a selection. -/
def Node.render : Node → String
  | .field name => writeName name
  | .relation name children => writeName name ++ "(" ++ renderAll children ++ ")"

/-- Sibling nodes as they are written in a selection, with commas between them. -/
def renderAll : List Node → String
  | [] => ""
  | [n] => n.render
  | n :: m :: ns => n.render ++ "," ++ renderAll (m :: ns)

end

end ListRequest.Field
