import Attestor.Text.Number

/-!
Natural numbers as gauges show them. A gauge keeps the nearest of the numbers that have 53 significant binary
digits, a tie going to the even one. It shows the decimal with the fewest digits other than trailing zeros
that no other such number is nearer to, and of several the nearest.
-/

namespace Attestor.Text.Rounded

/-- The gap between the neighbours of a number, just above it. -/
def gap (n : Nat) : Nat :=
  1 <<< (n.log2 - 52)

/-- The nearest number with 53 significant binary digits. -/
def nearest (n : Nat) : Nat :=
  let g := gap n
  let low := n / g
  let rest := n % g
  if 2 * rest < g ∨ (2 * rest = g ∧ low % 2 = 0) then low * g else (low + 1) * g

/-- The decimal `c` is nearest to the gauge value `v`. Below a power of two the gap is half as wide. A
tie goes to the even one of two neighbours. -/
def identifies (v c : Nat) : Bool :=
  let g := gap v
  let below := if v = 1 <<< v.log2 then g else 2 * g
  if v / g % 2 = 0 then 4 * v ≤ 4 * c + below && 4 * c ≤ 4 * v + 2 * g
  else 4 * v < 4 * c + below && 4 * c < 4 * v + 2 * g

/-- A decimal that identifies `v` among its two neighbours on the grid of `10 ^ zeros`, or on a finer one;
of two the nearer. -/
def shortest (v : Nat) : (zeros : Nat) → Nat
  | 0 => v
  | zeros + 1 =>
    let grid := Nat.pow 10 (zeros + 1)
    let low := v / grid * grid
    let high := low + grid
    match identifies v low, identifies v high with
    | true, true => if v - low ≤ high - v then low else high
    | true, false => low
    | false, true => high
    | false, false => shortest v zeros

/-- The digits that a gauge shows. A number in 64 bits has at most 20 of them. -/
def digits (n : UInt64) : List Char :=
  if n.toNat < 0x20000000000000 then decimal n.toNat else decimal (shortest (nearest n.toNat) 20)

end Attestor.Text.Rounded
