/-! # Symbols of a selection text

The characters of a selection with their roles, each at its byte offset in the UTF-8 text.

* `Symbol.ofChar`, `Symbol.toChar`: the role of a character and back.
* `locate`: the located symbols of a list of characters, from a given offset.
* `symbols`: the located symbols of a text; `symbols_eq` says that they are `locate 0`.
-/

namespace ListRequest.Field
set_option autoImplicit false

/-- The role of a character outside quotes. -/
inductive Symbol where
  | quote
  | comma
  | lparen
  | rparen
  | char (c : Char)
  deriving DecidableEq, Inhabited

namespace Symbol

def ofChar (c : Char) : Symbol :=
  if c = '"' then quote
  else if c = ',' then comma
  else if c = '(' then lparen
  else if c = ')' then rparen
  else char c

def toChar : Symbol → Char
  | quote => '"'
  | comma => ','
  | lparen => '('
  | rparen => ')'
  | char c => c

@[simp] theorem toChar_ofChar (c : Char) : (ofChar c).toChar = c := by
  unfold ofChar
  split
  · subst c; rfl
  · split
    · subst c; rfl
    · split
      · subst c; rfl
      · split
        · subst c; rfl
        · rfl

end Symbol

/-- A symbol and the number of bytes of text before it. -/
structure Located where
  symbol : Symbol
  offset : Nat
  deriving DecidableEq, Inhabited

/-- The symbols of `cs` when `offset` bytes of text stand before them. -/
def locate (offset : Nat) : List Char → List Located
  | [] => []
  | c :: cs => ⟨.ofChar c, offset⟩ :: locate (offset + c.utf8Size) cs

/-- One more character after the symbols found so far and the bytes they take. -/
def place (found : Array Located × Nat) (c : Char) : Array Located × Nat :=
  (found.1.push ⟨.ofChar c, found.2⟩, found.2 + c.utf8Size)

def symbols (text : String) : List Located :=
  (text.toList.foldl place (#[], 0)).1.toList

theorem foldl_place (cs : List Char) (found : Array Located) (offset : Nat) :
    (cs.foldl place (found, offset)).1.toList = found.toList ++ locate offset cs := by
  induction cs generalizing found offset with
  | nil => simp [locate]
  | cons c cs ih => simp [locate, place, ih]

theorem symbols_eq (text : String) : symbols text = locate 0 text.toList := by
  simp [symbols, foldl_place]

end ListRequest.Field
