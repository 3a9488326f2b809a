import ListRequest.Json.Basic

/-! # JSON scalars as they are spelled

* `Scalar`: a null, a boolean or a number. A scalar whose spelling is at fault is kept with its
  fault, because it depends on its place which fault of a text is met first.
* `Scalar.read`: the value that a scalar stands for; `Scalar.skip`: whether it can be skipped.
* `Scalar.word`, `Scalar.numberOf`: split a scalar off a text. The lemmas `length_word_le` and
  `length_numberOf_le` say that they add nothing to it.
-/

namespace ListRequest.Json
set_option autoImplicit false

/-- A null, a boolean or a number, as far as it is spelled. -/
inductive Scalar where
  | null
  | bool (value : Bool)
  | number (value : Numeral)
  /-- The start of `null`, `true` or `false`. -/
  | badWord (fault : Fault)
  /-- A number without some of its digits. -/
  | badNumber (fault : Fault)
  deriving DecidableEq, Inhabited

namespace Scalar

def read : Scalar → Except Fault Json
  | null => .ok .null
  | bool value => .ok (.bool value)
  | number value =>
    match Number.ofNumeral? value with
    | some n => .ok (.num n)
    | none => .error .malformed
  | badWord fault => .error fault
  | badNumber fault => .error fault

/-- Passes over a scalar. The size of a number does not count, and a number without digits is at
fault whether the text ends there or not. -/
def skip : Scalar → Except Fault Unit
  | null | bool _ | number _ => .ok ()
  | badWord fault => .error fault
  | badNumber _ => .error .malformed

/-- Splits the remaining letters of a word off a text. -/
def word (value : Scalar) : List Char → List Char → Scalar × List Char
  | [], cs => (value, cs)
  | _ :: _, [] => (badWord .endOfText, [])
  | e :: es, c :: cs => if c = e then word value es cs else (badWord .malformed, cs)

theorem length_word_le (value : Scalar) (es cs : List Char) :
    (word value es cs).2.length ≤ cs.length := by
  induction es generalizing cs with
  | nil => exact Nat.le_refl _
  | cons e es ih =>
    cases cs with
    | nil => exact Nat.le_refl _
    | cons c cs =>
      simp only [word, List.length_cons]
      split
      · exact Nat.le_succ_of_le (ih cs)
      · exact Nat.le_succ _

/-! ## Numbers -/

def digitValue (c : Char) : Nat := c.toNat - '0'.toNat

def digitsOf (cs : List Char) : List Nat := (cs.takeWhile Char.isDigit).map digitValue

def afterDigits (cs : List Char) : List Char := cs.dropWhile Char.isDigit

def valueOf (digits : List Nat) : Nat := digits.foldl (fun n d => n * 10 + d) 0

/-- A number whose digits are missing before `rest`. -/
def digitless (rest : List Char) : Scalar × List Char :=
  (badNumber (if rest.isEmpty then .endOfText else .malformed), rest)

def signed (negative : Bool) (digits : List Nat) : Int :=
  if negative then -valueOf digits else valueOf digits

/-- The sign at the start of a text, whether it is negative, and the text after it. -/
def signOf : List Char → Bool × List Char
  | [] => (false, [])
  | c :: cs => if c = '-' then (true, cs) else if c = '+' then (false, cs) else (false, c :: cs)

/-- Splits the digits of an exponent off a text, after its sign. -/
def exponentDigits (n : Numeral) (negative : Bool) (cs : List Char) : Scalar × List Char :=
  match digitsOf cs with
  | [] => digitless cs
  | ds => (number { n with exponent := some (signed negative ds) }, afterDigits cs)

/-- Splits an exponent off a text, after its `e`. -/
def exponent (n : Numeral) (cs : List Char) : Scalar × List Char :=
  exponentDigits n (signOf cs).1 (signOf cs).2

/-- Splits an exponent, if there is one, off a text. -/
def exponent? (n : Numeral) : List Char → Scalar × List Char
  | [] => (number n, [])
  | c :: cs => if c = 'e' || c = 'E' then exponent n cs else (number n, c :: cs)

/-- Splits a fraction, and an exponent if there is one, off a text, after the point. -/
def fraction (n : Numeral) (cs : List Char) : Scalar × List Char :=
  match digitsOf cs with
  | [] => digitless cs
  | ds => exponent? { n with fraction := ds } (afterDigits cs)

/-- Splits what follows the digits before the point off a text. -/
def afterWhole (n : Numeral) : List Char → Scalar × List Char
  | [] => (number n, [])
  | c :: cs => if c = '.' then fraction n cs else exponent? n (c :: cs)

/-- Splits a number off a text, whose digits before the point are known. A zero is the first of
them only when it is alone. -/
def numberOf (negative : Bool) (whole : List Nat) (rest : List Char) : Scalar × List Char :=
  match whole with
  | [] => digitless rest
  | 0 :: _ :: _ => (badNumber .malformed, rest)
  | whole => afterWhole { negative, whole } rest

theorem length_afterDigits_le (cs : List Char) : (afterDigits cs).length ≤ cs.length :=
  (List.dropWhile_sublist _).length_le

theorem length_signOf_le (cs : List Char) : (signOf cs).2.length ≤ cs.length := by
  cases cs with
  | nil => exact Nat.le_refl _
  | cons c cs =>
    rw [signOf]
    split
    · exact Nat.le_succ _
    · split
      · exact Nat.le_succ _
      · exact Nat.le_refl _

theorem length_exponent_le (n : Numeral) (cs : List Char) :
    (exponent n cs).2.length ≤ cs.length := by
  have h := length_signOf_le cs
  unfold exponent exponentDigits
  split
  · exact h
  · exact Nat.le_trans (length_afterDigits_le _) h

theorem length_exponent?_le (n : Numeral) (cs : List Char) :
    (exponent? n cs).2.length ≤ cs.length := by
  cases cs with
  | nil => exact Nat.le_refl _
  | cons c cs =>
    rw [exponent?]
    split
    · exact Nat.le_succ_of_le (length_exponent_le n cs)
    · exact Nat.le_refl _

theorem length_fraction_le (n : Numeral) (cs : List Char) :
    (fraction n cs).2.length ≤ cs.length := by
  unfold fraction
  split
  · exact Nat.le_refl _
  · exact Nat.le_trans (length_exponent?_le _ _) (length_afterDigits_le cs)

theorem length_afterWhole_le (n : Numeral) (cs : List Char) :
    (afterWhole n cs).2.length ≤ cs.length := by
  cases cs with
  | nil => exact Nat.le_refl _
  | cons c cs =>
    rw [afterWhole]
    split
    · exact Nat.le_succ_of_le (length_fraction_le n cs)
    · exact length_exponent?_le n (c :: cs)

theorem length_numberOf_le (negative : Bool) (whole : List Nat) (rest : List Char) :
    (numberOf negative whole rest).2.length ≤ rest.length := by
  unfold numberOf
  split
  · exact Nat.le_refl _
  · exact Nat.le_refl _
  · exact length_afterWhole_le _ rest

end Scalar

end ListRequest.Json
