import SceneStream.Binary.Nearest

/-!
# The fewest digits that read back

A binary number stands for a whole cell of reals: all that round to it. Its shortest decimal is the
point of the cell on the coarsest decimal grid that meets the cell, the point nearest to the number
where the grid has more than one.
-/

namespace SceneStream

/-- A decimal number: `digits * 10 ^ exponent`. -/
structure Decimal where
  digits : Nat
  exponent : Int
  deriving DecidableEq, Repr

/-- Where a number half way between two decimals of the same length goes. -/
inductive Decimal.Tie where
  | toEven
  | up
  deriving DecidableEq, Repr

namespace Decimal

/-- A power of ten. -/
def tenPow : Int → Rat := powerOf 10

/-- The reals that round to one positive binary number. The two ends round to it only where its
significand is even. -/
structure Cell where
  lower : Rat
  value : Rat
  upper : Rat
  closed : Bool

namespace Cell

def contains (c : Cell) (x : Rat) : Bool :=
  if c.closed then c.lower ≤ x ∧ x ≤ c.upper else c.lower < x ∧ x < c.upper

/-- The cell of `m * 2 ^ q`. Below a power of two the neighbour is half as far away, unless the
unit is already the format's least. -/
def of (f : Binary.Format) (m : Nat) (q : Int) : Cell :=
  let unit := Binary.twoPow q
  let below := if 2 * m = f.capacity ∧ f.least < q then unit / 4 else unit / 2
  { lower := m * unit - below
    value := m * unit
    upper := m * unit + unit / 2
    closed := m % 2 = 0 }

/-- The point of the cell among the multiples of `10 ^ e`, if there is one. Where there are
several, one of the value's two neighbours is among them. -/
def onGrid? (c : Cell) (tie : Tie) (e : Int) : Option Decimal :=
  let step := tenPow e
  let below := (c.value / step).floor.toNat
  let low := below * step
  let high := (below + 1 : Nat) * step
  let highIsNearer := high - c.value < c.value - low ∨
    high - c.value = c.value - low ∧ (tie = .up ∨ below % 2 = 1)
  match c.contains low, c.contains high with
  | true, true => some ⟨if highIsNearer then below + 1 else below, e⟩
  | true, false => some ⟨below, e⟩
  | false, true => some ⟨below + 1, e⟩
  | false, false => none

/-- The exponent of a power of ten above the whole cell. -/
def ceiling (c : Cell) : Int := (floorLog2 c.upper + 1) * 30103 / 100000 + 2

/-- The decimal of the cell on the coarsest grid that has one. Grids are tried from above the cell
downwards. -/
def shortest? (c : Cell) (tie : Tie) : Option Decimal :=
  (List.range 30).findSome? fun (i : Nat) => c.onGrid? tie (c.ceiling - i)

end Cell

/-- All digits of `m * 2 ^ q`. -/
def exact (m : Nat) : Int → Decimal
  | .ofNat n => ⟨m * Nat.pow 2 n, 0⟩
  | .negSucc n => ⟨m * Nat.pow 5 (n + 1), .negSucc n⟩

end Decimal

/-- The shortest decimal of a positive number `m * 2 ^ q`. A cell of at most 53 bits meets a grid
before its eighteenth digit; all digits would be in the cell as well. -/
def Binary.shortest (f : Format) (tie : Decimal.Tie) (m : Nat) (q : Int) : Decimal :=
  ((Decimal.Cell.of f m q).shortest? tie).getD (Decimal.exact m q)

end SceneStream
