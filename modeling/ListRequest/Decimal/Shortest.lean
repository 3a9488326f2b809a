/-! # The shortest decimal for a binary number

A finite double is `m * 2 ^ q`. The reals that round to it form an interval around it; its shortest
decimal is the point of that interval on the coarsest grid of powers of ten, and of two such points
the nearer one, with ties to the even one.

* `Binary.ofFloat`: the significand and exponent of a double.
* `Binary.shortest`: its shortest decimal.
-/

namespace ListRequest
set_option autoImplicit false

/-- The number `significand * 10 ^ exponent`. -/
structure Decimal where
  significand : Nat
  exponent : Int
  deriving DecidableEq, Inhabited

/-- The number `significand * 2 ^ exponent`, as a double holds it. -/
structure Binary where
  significand : Nat
  exponent : Int
  /-- The double below is only half as far away as the one above. -/
  narrow : Bool
  deriving DecidableEq, Inhabited

namespace Binary

/-- The leading bit of a significand, which a double does not store: bit 52. -/
def hiddenBit : Nat := 0x10000000000000

/-- Whether the sign bit of a double, bit 63, is set. -/
def isNegative (x : Float) : Bool := 0x8000000000000000 ≤ x.toBits.toNat

def ofFloat (x : Float) : Binary :=
  let bits : Nat := x.toBits.toNat
  let fraction : Nat := bits % hiddenBit
  let biased : Nat := bits / hiddenBit % 2048
  if biased = 0 then ⟨fraction, -1074, false⟩
  else ⟨hiddenBit + fraction, (biased : Int) - 1075, fraction = 0 && biased ≠ 1⟩

/-- The points of the grid of multiples of `10 ^ k` next to a number, as far as they round to it;
the nearer one comes first. The number is `middle / unit`, and the reals that round to it lie
between `low / unit` and `high / unit`, in grid steps. -/
def onGrid (b : Binary) (k : Int) : List Nat :=
  let scale := Nat.pow 2 b.exponent.toNat * Nat.pow 10 (-k).toNat
  let unit := 4 * Nat.pow 2 (-b.exponent).toNat * Nat.pow 10 k.toNat
  let middle := 4 * b.significand * scale
  let low := (4 * b.significand - if b.narrow then 1 else 2) * scale
  let high := (4 * b.significand + 2) * scale
  let rounds (c : Nat) : Bool :=
    if b.significand % 2 = 0 then low ≤ c * unit && c * unit ≤ high
    else low < c * unit && c * unit < high
  let below := middle / unit
  let above := below + 1
  let up := above * unit - middle
  let down := middle - below * unit
  let nearest :=
    if up < down || (up = down && above % 2 = 0) then [above, below] else [below, above]
  nearest.filter rounds

/-- The first grid, from `10 ^ k` downwards, that has a point rounding to the number. -/
def search (b : Binary) (k : Int) : Nat → Decimal
  | 0 => ⟨b.significand, 0⟩
  | tries + 1 =>
    match b.onGrid k with
    | c :: _ => ⟨c, k⟩
    | [] => b.search (k - 1) tries

/-- An exponent whose power of ten is larger than the number. -/
def ceiling (b : Binary) : Int :=
  (b.significand.log2 + 1 + b.exponent) * 30103 / 100000 + 1

/-- The shortest decimal that rounds to the number. Seventeen digits always suffice, so the search
ends within a few grids below them. -/
def shortest (b : Binary) : Decimal := b.search b.ceiling 24

end Binary

end ListRequest
