import ListRequest.Json.Quoted
import ListRequest.Json.Scalar

/-! # Tokens of JSON texts

* `Token`: brackets, separators, strings and scalars. A string or scalar whose spelling is at fault
  is a token as well.
* `Token.next?`: splits the next token off a text; `length_next?_lt` says that the rest is shorter.
* `Token.all`: the tokens of a text; `Token.fold` feeds them to a reader without listing them.
-/

namespace ListRequest.Json
set_option autoImplicit false

inductive Token where
  | lbrace
  | rbrace
  | lbracket
  | rbracket
  | colon
  | comma
  | string (q : Quoted)
  | scalar (s : Scalar)
  /-- A character that starts no token. -/
  | stray
  deriving DecidableEq, Inhabited

namespace Token

def isSpace (c : Char) : Bool := c = ' ' || c = '\t' || c = '\n' || c = '\r'

/-- The bracket or separator that a character is. -/
def mark? (c : Char) : Option Token :=
  if c = '\x7b' then some lbrace
  else if c = '\x7d' then some rbrace
  else if c = '[' then some lbracket
  else if c = ']' then some rbracket
  else if c = ':' then some colon
  else if c = ',' then some comma
  else none

/-- The word that starts with a letter: its meaning and its other letters. -/
def word? (c : Char) : Option (Scalar × List Char) :=
  if c = 'n' then some (.null, ['u', 'l', 'l'])
  else if c = 't' then some (.bool true, ['r', 'u', 'e'])
  else if c = 'f' then some (.bool false, ['a', 'l', 's', 'e'])
  else none

/-- Splits the number that starts with `c` off a text. -/
def number? (c : Char) (cs : List Char) : Option (Scalar × List Char) :=
  if c = '-' then some (Scalar.numberOf true (Scalar.digitsOf cs) (Scalar.afterDigits cs))
  else if c.isDigit then
    some (Scalar.numberOf false (Scalar.digitsOf (c :: cs)) (Scalar.afterDigits cs))
  else none

/-- Splits the token that starts with `c` off a text. -/
def startingWith (c : Char) (cs : List Char) : Token × List Char :=
  match mark? c, word? c, number? c cs with
  | some t, _, _ => (t, cs)
  | none, some (value, letters), _ => (Scalar.word value letters cs).map scalar id
  | none, none, some n => n.map scalar id
  | none, none, none =>
    if c = '"' then (Quoted.scan #[] cs).map string id else (stray, cs)

/-- Splits the next token off a text; `none` at the end of the text. -/
def next? (cs : List Char) : Option (Token × List Char) :=
  match cs.dropWhile isSpace with
  | [] => none
  | c :: cs => some (startingWith c cs)

theorem length_number?_le {c : Char} {cs : List Char} {n : Scalar × List Char}
    (h : number? c cs = some n) : n.2.length ≤ cs.length := by
  have h1 := Scalar.length_afterDigits_le cs
  unfold number? at h
  split at h
  · rw [← Option.some.inj h]
    exact Nat.le_trans (Scalar.length_numberOf_le _ _ _) h1
  · split at h
    · rw [← Option.some.inj h]
      exact Nat.le_trans (Scalar.length_numberOf_le _ _ _) h1
    · contradiction

theorem length_startingWith_le (c : Char) (cs : List Char) :
    (startingWith c cs).2.length ≤ cs.length := by
  unfold startingWith
  split
  · exact Nat.le_refl _
  · exact Scalar.length_word_le _ _ _
  · rename_i h
    exact length_number?_le h
  · split
    · exact Quoted.length_scan_le _ _
    · exact Nat.le_refl _

theorem length_next?_lt {cs rest : List Char} {t : Token} (h : next? cs = some (t, rest)) :
    rest.length < cs.length := by
  have h1 := (List.dropWhile_sublist isSpace (l := cs)).length_le
  unfold next? at h
  split at h
  · contradiction
  · rename_i c ds hd
    have h2 := length_startingWith_le c ds
    rw [hd] at h1
    simp only [Option.some.injEq] at h
    rw [h] at h2
    simp only [List.length_cons] at h1
    exact Nat.lt_of_le_of_lt h2 h1

def all (cs : List Char) : List Token :=
  match _h : next? cs with
  | none => []
  | some (t, rest) => t :: all rest
termination_by cs.length
decreasing_by exact length_next?_lt ‹_›

/-- Feeds the tokens of a text to `f`, one by one, until it fails. -/
def fold {σ : Type} (f : σ → Token → Except Fault σ) (s : σ) (cs : List Char) : Except Fault σ :=
  match _h : next? cs with
  | none => .ok s
  | some (t, rest) =>
    match f s t with
    | .ok s' => fold f s' rest
    | .error e => .error e
termination_by cs.length
decreasing_by exact length_next?_lt ‹_›

theorem fold_eq_foldlM {σ : Type} (f : σ → Token → Except Fault σ) (s : σ) (cs : List Char) :
    fold f s cs = (all cs).foldlM f s := by
  fun_induction fold f s cs with
  | case1 s cs h => rw [all, h]; rfl
  | case2 s cs t rest h s' hs ih =>
    rw [all, h, ih]
    simp only [List.foldlM_cons, hs]
    rfl
  | case3 s cs t rest h e he =>
    rw [all, h]
    simp only [List.foldlM_cons, he]
    rfl

end Token

end ListRequest.Json
