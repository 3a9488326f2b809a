import ListRequest.Field.Trace
import ListRequest.Proofs.Field.Acceptance

/-! # Groups and their places

A tree of nodes does not say where its groups stand in the text. Here each relation keeps the offset
of the parenthesis that opens its group, so that a depth-first traversal of the tree tells what
happens to groups while the text is read. A text that ends too early has some groups that are still
open, and complete nodes before each of them.

* `Placed`: a node with places; `Places`: the grammar of selections with places.
* `Placed.events`, `eventsAll`: the traversal of a tree, each relation entered and left.
* `OpenGroup`, `EndsInside`, `eventsInside`: the same for a text that ends inside groups.
-/

namespace ListRequest.Field
set_option autoImplicit false

/-- A node with the offset at which its group is opened. -/
inductive Placed where
  | field (name : String)
  | relation (name : String) (offset : Nat) (children : List Placed)

mutual

def Placed.erase : Placed → Node
  | .field name => .field name
  | .relation name _ children => .relation name (eraseAll children)

def eraseAll : List Placed → List Node
  | [] => []
  | p :: ps => p.erase :: eraseAll ps

end

@[simp] theorem length_eraseAll (ps : List Placed) : (eraseAll ps).length = ps.length := by
  induction ps with
  | nil => rfl
  | cons p ps ih => simp [eraseAll, ih]

/-! ## The grammar with places -/

mutual

/-- What happens to groups along a depth-first traversal of a node inside `depth` groups. -/
def Placed.events (depth : Nat) : Placed → List GroupEvent
  | .field _ => []
  | .relation name offset children =>
    .opened offset (depth + 1) ::
      (eventsAll (depth + 1) children ++ [.closed name children.length])

def eventsAll (depth : Nat) : List Placed → List GroupEvent
  | [] => []
  | p :: ps => p.events depth ++ eventsAll depth ps

end

/-! ## Texts that end inside groups -/

def GroupEvent.isOpened : GroupEvent → Bool
  | opened _ _ => true
  | closed _ _ => false

def GroupEvent.isClosed : GroupEvent → Bool
  | opened _ _ => false
  | closed _ _ => true

mutual

theorem Placed.countP_isOpened (depth : Nat) (p : Placed) :
    (p.events depth).countP GroupEvent.isOpened = (p.events depth).countP GroupEvent.isClosed := by
  match p with
  | .field _ => rfl
  | .relation name offset children =>
    have h := countP_isOpened_eventsAll (depth + 1) children
    simp [Placed.events, List.countP_cons, GroupEvent.isOpened, GroupEvent.isClosed, h]

theorem countP_isOpened_eventsAll (depth : Nat) (ps : List Placed) :
    (eventsAll depth ps).countP GroupEvent.isOpened =
      (eventsAll depth ps).countP GroupEvent.isClosed := by
  match ps with
  | [] => rfl
  | p :: ps =>
    have hp := p.countP_isOpened depth
    have hps := countP_isOpened_eventsAll depth ps
    simp [eventsAll, hp, hps]

end

end ListRequest.Field
