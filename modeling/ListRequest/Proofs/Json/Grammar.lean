/-! # The grammar of JSON texts

Which texts are JSON, and what they say, without regard to any reader. Each production is a relation
between a text and what it stands for, so that one value has all its spellings: with any spaces
between its parts and any escapes in its strings.

* `Tree`: what a text says.
* `SpellsChars`: the characters between the quotes of a string. Surrogates have to come in pairs.
* `IsNumber`: numbers, of any size.
* `Spells`, `SpellsPadded`: the texts of a value, without and with spaces around it.
-/

namespace ListRequest.Json
set_option autoImplicit false

/-- What a JSON text says. A number stands as it is spelled, and an object has its members in their
order, with all members of a repeated key. -/
inductive Tree where
  | null
  | bool (value : Bool)
  | number (spelling : String)
  | string (text : String)
  | array (items : List Tree)
  | object (members : List (String × Tree))

/-- Spaces, tabs and line ends, any number of them. -/
def IsSpaces (cs : List Char) : Prop := ∀ c ∈ cs, c = ' ' ∨ c = '\t' ∨ c = '\n' ∨ c = '\r'

/-! ## Strings -/

/-- The letters that may follow a backslash, each with the character that it stands for there. -/
def escapes : List (Char × Char) :=
  [('"', '"'), ('\\', '\\'), ('/', '/'), ('b', Char.ofNat 0x08), ('f', Char.ofNat 0x0C),
    ('n', '\n'), ('r', '\r'), ('t', '\t')]

/-- A hexadecimal digit of either case, and its value. -/
def IsHexDigit (c : Char) (value : Nat) : Prop :=
  "0123456789abcdef".toList[value]? = some c ∨ "0123456789ABCDEF".toList[value]? = some c

/-- The four hexadecimal digits of a UTF-16 code unit. -/
inductive SpellsUnit : List Char → Nat → Prop where
  | digits {a b c d : Char} {u v w x : Nat} :
      IsHexDigit a u → IsHexDigit b v → IsHexDigit c w → IsHexDigit d x →
      SpellsUnit [a, b, c, d] (u * 0x1000 + v * 0x100 + w * 0x10 + x)

/-- One character of a string, as it is spelled. -/
inductive SpellsChar : List Char → Char → Prop where
  | plain {c : Char} : c ≠ '"' → c ≠ '\\' → 0x20 ≤ c.toNat → SpellsChar [c] c
  | escape {letter c : Char} : (letter, c) ∈ escapes → SpellsChar ['\\', letter] c
  | unit {digits : List Char} {c : Char} :
      SpellsUnit digits c.toNat → SpellsChar ('\\' :: 'u' :: digits) c
  | pair {digits digits' : List Char} {high low : Nat} {c : Char} :
      high < 0x400 → low < 0x400 → c.toNat = 0x10000 + high * 0x400 + low →
      SpellsUnit digits (0xD800 + high) → SpellsUnit digits' (0xDC00 + low) →
      SpellsChar ('\\' :: 'u' :: (digits ++ '\\' :: 'u' :: digits')) c

/-- What stands between the quotes of a string, and the characters that it stands for. -/
inductive SpellsChars : List Char → List Char → Prop where
  | nil : SpellsChars [] []
  | cons {as cs ds : List Char} {c : Char} :
      SpellsChar as c → SpellsChars cs ds → SpellsChars (as ++ cs) (c :: ds)

/-- Characters that need no escape stand for themselves. -/
theorem SpellsChars.of_plain {cs : List Char}
    (h : cs.all fun c => c ≠ '"' && c ≠ '\\' && 0x20 ≤ c.toNat) : SpellsChars cs cs := by
  induction cs with
  | nil => exact .nil
  | cons c cs ih =>
    rw [List.all_cons, Bool.and_eq_true] at h
    obtain ⟨hc, hcs⟩ := h
    obtain ⟨⟨hquote, hbackslash⟩, hcontrol⟩ : (c ≠ '"' ∧ c ≠ '\\') ∧ 0x20 ≤ c.toNat := by
      simpa using hc
    exact .cons (.plain hquote hbackslash hcontrol) (ih hcs)

/-! ## Numbers -/

def IsDigits (cs : List Char) : Prop := cs ≠ [] ∧ ∀ c ∈ cs, c.isDigit

/-- The digits before the point, which start with a zero only if there is no other. -/
def IsWhole (cs : List Char) : Prop := IsDigits cs ∧ (cs.head? = some '0' → cs = ['0'])

inductive IsFraction : List Char → Prop where
  | absent : IsFraction []
  | digits {cs : List Char} : IsDigits cs → IsFraction ('.' :: cs)

inductive IsExponent : List Char → Prop where
  | absent : IsExponent []
  | digits {mark : Char} {sign cs : List Char} :
      mark = 'e' ∨ mark = 'E' → sign = [] ∨ sign = ['+'] ∨ sign = ['-'] → IsDigits cs →
      IsExponent (mark :: (sign ++ cs))

inductive IsNumber : List Char → Prop where
  | positive {whole fraction exponent : List Char} :
      IsWhole whole → IsFraction fraction → IsExponent exponent →
      IsNumber (whole ++ fraction ++ exponent)
  | negative {whole fraction exponent : List Char} :
      IsWhole whole → IsFraction fraction → IsExponent exponent →
      IsNumber ('-' :: (whole ++ fraction ++ exponent))

/-! ## Values -/

mutual

/-- The text of a value, without spaces around it. -/
inductive Spells : List Char → Tree → Prop where
  | null : Spells "null".toList .null
  | yes : Spells "true".toList (.bool true)
  | no : Spells "false".toList (.bool false)
  | number {cs : List Char} : IsNumber cs → Spells cs (.number (.ofList cs))
  | string {cs ds : List Char} :
      SpellsChars cs ds → Spells ('"' :: (cs ++ ['"'])) (.string (.ofList ds))
  | noItems {spaces : List Char} :
      IsSpaces spaces → Spells ('[' :: (spaces ++ [']'])) (.array [])
  | items {cs : List Char} {vs : List Tree} :
      SpellsItems cs vs → Spells ('[' :: (cs ++ [']'])) (.array vs)
  | noMembers {spaces : List Char} :
      IsSpaces spaces → Spells ('\x7b' :: (spaces ++ ['\x7d'])) (.object [])
  | members {cs : List Char} {ms : List (String × Tree)} :
      SpellsMembers cs ms → Spells ('\x7b' :: (cs ++ ['\x7d'])) (.object ms)

/-- The text of a value with spaces around it. A JSON text is one. -/
inductive SpellsPadded : List Char → Tree → Prop where
  | padded {before cs after : List Char} {v : Tree} :
      IsSpaces before → Spells cs v → IsSpaces after → SpellsPadded (before ++ cs ++ after) v

/-- Items with commas between them. -/
inductive SpellsItems : List Char → List Tree → Prop where
  | single {cs : List Char} {v : Tree} : SpellsPadded cs v → SpellsItems cs [v]
  | cons {cs ds : List Char} {v w : Tree} {vs : List Tree} :
      SpellsPadded cs v → SpellsItems ds (w :: vs) → SpellsItems (cs ++ ',' :: ds) (v :: w :: vs)

/-- A key with spaces around it, a colon and a value. -/
inductive SpellsMember : List Char → String × Tree → Prop where
  | member {before key after cs : List Char} {ds : List Char} {v : Tree} :
      IsSpaces before → SpellsChars key ds → IsSpaces after → SpellsPadded cs v →
      SpellsMember (before ++ '"' :: (key ++ '"' :: (after ++ ':' :: cs))) (.ofList ds, v)

/-- Members with commas between them. -/
inductive SpellsMembers : List Char → List (String × Tree) → Prop where
  | single {cs : List Char} {m : String × Tree} : SpellsMember cs m → SpellsMembers cs [m]
  | cons {cs ds : List Char} {m n : String × Tree} {ms : List (String × Tree)} :
      SpellsMember cs m → SpellsMembers ds (n :: ms) →
      SpellsMembers (cs ++ ',' :: ds) (m :: n :: ms)

end

theorem Spells.padded {cs : List Char} {v : Tree} (h : Spells cs v) : SpellsPadded cs v := by
  have hnone : IsSpaces [] := fun _ hc => nomatch hc
  simpa using SpellsPadded.padded hnone h hnone

end ListRequest.Json
