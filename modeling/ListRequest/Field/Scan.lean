import ListRequest.Field.Node
import ListRequest.Field.Symbol

/-! # Reading a selection

A selection is read in one pass with an explicit stack of levels, so that its depth is bounded by
nothing but its length. Each open group has a level: the text of the name that is being read, the
nodes that are complete, whether a quote is open, and where the group was opened. The level outside
all groups was opened nowhere.

Every fault of the selection grammar concerns a group, that is, a pair of parentheses. Offsets count
the bytes of UTF-8 text before the parenthesis at fault.

* `GroupError`: why a text is no selection.
* `Level`: what has been read inside one group.
* `Scan`: the level being read and the levels around it, innermost first.
* `Scan.step`: one symbol. Inside quotes all symbols but the quote are text.
* `Scan.read`: a list of symbols; `Scan.finish`: the end of the text.
* `parse`: a whole text.
-/

namespace ListRequest.Field
set_option autoImplicit false

/-! ## Faults -/

/-- The two ways in which parentheses fail to match. -/
inductive Imbalance where
  | unclosed
  | unexpectedClose
  deriving DecidableEq, Inhabited

def Imbalance.text : Imbalance → String
  | unclosed => "未闭合的 '('"
  | unexpectedClose => "多余的 ')'"

/-- Why a text is no selection. -/
inductive GroupError where
  /-- A parenthesis without its partner. -/
  | unbalanced (offset : Nat) (kind : Imbalance)
  /-- An opening parenthesis with no name before it. -/
  | missingName (offset : Nat)
  deriving DecidableEq, Inhabited

namespace GroupError

def offset : GroupError → Nat
  | unbalanced offset _ => offset
  | missingName offset => offset

def message : GroupError → String
  | unbalanced offset kind => s!"括号不匹配: 位置 {offset} 处{kind.text}"
  | missingName offset => s!"缺少关联名: 位置 {offset} 处的 '(' 前没有名称"

end GroupError

/-! ## Levels -/

/-- What has been read inside one group, or outside all groups. -/
structure Level where
  pending : String := ""
  nodes : Array Node := #[]
  quoted : Bool := false
  /-- The offset of the group's opening parenthesis. -/
  openedAt : Option Nat := none
  deriving Inhabited

namespace Level

def root : Level := {}

/-- The level of a group opened at `offset`. -/
def group (offset : Nat) : Level := { openedAt := some offset }

def write (l : Level) (c : Char) : Level := { l with pending := l.pending.push c }

def toggleQuote (l : Level) : Level := { l with quoted := !l.quoted }

def push (l : Level) (n : Node) : Level := { l with nodes := l.nodes.push n }

def clear (l : Level) : Level := { l with pending := "" }

/-- Completes the name being read as a field; an empty name is no field. -/
def flush (l : Level) : Level :=
  if l.pending = "" then l else (l.push (.field l.pending)).clear

/-- The nodes of the level once the group ends. -/
def finish (l : Level) : List Node := l.flush.nodes.toList

/-- Completes the name being read as a relation to `children`. -/
def relate (l : Level) (children : List Node) : Level :=
  (l.push (.relation l.pending children)).clear

end Level

/-! ## Scans -/

/-- A selection read up to some point. -/
structure Scan where
  current : Level := .root
  /-- The levels around it, innermost first. -/
  outer : List Level := []
  deriving Inhabited

namespace Scan

def start : Scan := {}

def depth (s : Scan) : Nat := s.outer.length

def openGroup (s : Scan) (offset : Nat) : Except GroupError Scan :=
  if s.current.pending = "" then .error (.missingName offset)
  else .ok ⟨.group offset, s.current :: s.outer⟩

/-- Closes the current group and makes it a relation of the level around it. -/
def closeGroup (s : Scan) (offset : Nat) : Except GroupError Scan :=
  match s.outer with
  | [] => .error (.unbalanced offset .unexpectedClose)
  | parent :: outer => .ok ⟨parent.relate s.current.finish, outer⟩

def step (s : Scan) (x : Located) : Except GroupError Scan :=
  match x.symbol with
  | .quote => .ok { s with current := s.current.toggleQuote }
  | .char c => .ok { s with current := s.current.write c }
  | .comma =>
    if s.current.quoted then .ok { s with current := s.current.write ',' }
    else .ok { s with current := s.current.flush }
  | .lparen =>
    if s.current.quoted then .ok { s with current := s.current.write '(' }
    else s.openGroup x.offset
  | .rparen =>
    if s.current.quoted then .ok { s with current := s.current.write ')' }
    else s.closeGroup x.offset

def read (s : Scan) (xs : List Located) : Except GroupError Scan :=
  xs.foldlM step s

/-- The selected nodes once the text ends. A group that is still open is at fault. -/
def finish (s : Scan) : Except GroupError (List Node) :=
  match s.current.openedAt with
  | some offset => .error (.unbalanced offset .unclosed)
  | none => .ok s.current.finish

end Scan

/-- The nodes that a text selects. -/
def parse (text : String) : Except GroupError (List Node) := do
  let s ← Scan.start.read (symbols text)
  s.finish

end ListRequest.Field
