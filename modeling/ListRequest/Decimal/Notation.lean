import ListRequest.Decimal.Shortest

/-! # Decimal notation

Doubles as text. A number is written with its shortest decimal: positionally and always with a
fraction from `0.00001` up to below `10 ^ 16`, and with an exponent otherwise.
-/

namespace ListRequest.Decimal
set_option autoImplicit false

def digits (n : Nat) : List Char := Nat.toDigits 10 n

def zeros (n : Nat) : List Char := List.replicate n '0'

/-- Digits with the point after the first `point` of them. -/
def positional (ds : List Char) (point : Int) : List Char :=
  if point ≤ 0 then '0' :: '.' :: zeros (-point).toNat ++ ds
  else if ds.length ≤ point.toNat then ds ++ zeros (point.toNat - ds.length) ++ ['.', '0']
  else ds.take point.toNat ++ '.' :: ds.drop point.toNat

/-- An exponent: a sign stands before it whatever it is. -/
def exponentMark (e : Int) : List Char :=
  (if e < 0 then '-' else '+') :: digits e.natAbs

/-- Digits with the point after the first, and an exponent. -/
def scientific (ds : List Char) (e : Int) : List Char :=
  let mantissa :=
    match ds with
    | [] => []
    | [d] => [d]
    | d :: fraction => d :: '.' :: fraction
  mantissa ++ 'e' :: exponentMark e

/-- Whether a number is written positionally, given how many of its digits stand before the point:
up to sixteen digits before it and up to four zeros after it. -/
def isPositional (point : Int) : Bool := -5 < point && point ≤ 16

def notate (d : Decimal) : List Char :=
  let ds := digits d.significand
  let point := d.exponent + ds.length
  if isPositional point then positional ds point else scientific ds (point - 1)

def floatText (x : Float) : String :=
  let b := Binary.ofFloat x
  let magnitude := if b.significand = 0 then ['0', '.', '0'] else b.shortest.notate
  .ofList (if Binary.isNegative x then '-' :: magnitude else magnitude)

end ListRequest.Decimal
