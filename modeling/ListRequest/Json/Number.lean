/-! # JSON numbers

A number without fraction and exponent that fits a 64-bit word is kept as an integer, all others as
doubles.

* `Numeral`: a number as it is spelled, digit by digit.
* `Number.ofNumeral?`: the number that a numeral stands for, `none` when it is too large.

A double is made from the leading digits that fit a 64-bit word, scaled once by a power of ten, so
its last bit may differ from the nearest double.
-/

namespace ListRequest.Json
set_option autoImplicit false

/-- The spelling of a number. -/
structure Numeral where
  negative : Bool := false
  whole : List Nat
  /-- The digits after the point, none when there is no point. -/
  fraction : List Nat := []
  exponent : Option Int := none
  deriving DecidableEq, Inhabited

inductive Number where
  | int (value : Int)
  | float (value : Float)
  deriving DecidableEq, Inhabited

namespace Number

/-- The largest significand. -/
def wordLimit : Nat := 0xFFFFFFFFFFFFFFFF

/-- The largest magnitude of a negative integer. -/
def negativeLimit : Nat := 0x8000000000000000

/-- Appends digits to a significand as long as they fit; also the digits that are left. -/
def absorb (significand : Nat) : List Nat → Nat × List Nat
  | [] => (significand, [])
  | d :: ds =>
    if significand * 10 + d ≤ wordLimit then absorb (significand * 10 + d) ds
    else (significand, d :: ds)

def pow10 (n : Nat) : Float := Float.ofScientific 1 false n

/-- The largest exponent whose power of ten is a double. -/
def maxExponent : Nat := 308

/-- Divides by a power of ten, in steps that are doubles. -/
def scaleDown (x : Float) (n : Nat) : Float :=
  if x == 0 then x
  else if n ≤ maxExponent then x / pow10 n
  else scaleDown (x / pow10 maxExponent) (n - maxExponent)
termination_by n
decreasing_by simp_all only [maxExponent]; omega

/-- Multiplies by a power of ten; `none` when the product is too large. -/
def scaleUp? (x : Float) (n : Nat) : Option Float :=
  if maxExponent < n then if x == 0 then some x else none
  else
    let y := x * pow10 n
    if y.isInf then none else some y

/-- The double `significand * 10 ^ exponent`; `none` when it is too large. -/
def scale? (significand : Nat) (exponent : Int) : Option Float :=
  let x := significand.toUInt64.toFloat
  if exponent < 0 then some (scaleDown x exponent.natAbs) else scaleUp? x exponent.natAbs

/-- The number that a numeral stands for; `none` when it is too large for a double. -/
def ofNumeral? (n : Numeral) : Option Number :=
  let (whole, excess) := absorb 0 n.whole
  if excess.isEmpty && n.fraction.isEmpty && n.exponent.isNone then
    if n.negative then
      if whole = 0 || negativeLimit < whole then some (.float (-whole.toUInt64.toFloat))
      else some (.int (-whole))
    else some (.int whole)
  else
    let (significand, dropped) := absorb whole n.fraction
    let kept := n.fraction.length - dropped.length
    let exponent := (excess.length : Int) - kept + n.exponent.getD 0
    (scale? significand exponent).map fun x => .float (if n.negative then -x else x)

end Number

end ListRequest.Json
