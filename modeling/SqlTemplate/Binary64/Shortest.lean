import SqlTemplate.Binary64.Rounding

/-!
The shortest decimal that reads back as a given 64-bit number.

The reals that round to a number form an interval around it, from halfway to the number below to
halfway to the number above; a rounding tie goes to the even significand, so the ends belong to the
interval exactly when the significand is even. `shortest` takes the coarsest grid of powers of ten
that meets the interval and there the grid point nearest to the number. A coarser grid has none, so
no decimal with fewer digits reads back.
-/

set_option autoImplicit false

namespace SqlTemplate.Binary64

/-- An interval of positive reals around a value, all three in quarters of a unit. -/
structure Interval where
  low : Nat
  value : Nat
  high : Nat
  /-- Whether the ends belong to the interval. -/
  closed : Bool

/-- The reals that round to a finite number other than zero, without regard to sign. Below a power
of two the neighbours lie half as far away. -/
def roundingInterval (x : Binary64) : Interval :=
  let step := step x.magnitude
  let significand := significand x.magnitude
  let below := if significand = binade ∧ 0 < step then Nat.pow 2 step else 2 * Nat.pow 2 step
  { low := 4 * x.units - below
    value := 4 * x.units
    high := 4 * x.units + 2 * Nat.pow 2 step
    closed := significand % 2 = 0 }

namespace Interval

/-- A quarter of a unit on the grid of multiples of `10 ^ k` is `quarter k / point k`. -/
def quarter (k : Int) : Nat := Nat.pow 10 (-k).toNat

/-- One point of the grid of multiples of `10 ^ k`, in the measure of `quarter`. -/
def point (k : Int) : Nat := Nat.pow 10 k.toNat * (4 * one)

/-- Whether `c · 10 ^ k` lies in the interval. -/
def holds (i : Interval) (k : Int) (c : Nat) : Bool :=
  let low := i.low * quarter k
  let here := c * point k
  let high := i.high * quarter k
  if i.closed then decide (low ≤ here ∧ here ≤ high) else decide (low < here ∧ here < high)

/-- The multiple of `10 ^ k` in the interval that is nearest to the value, if the interval has one.
Only the two neighbours of the value need a look; of two equally near the larger is taken. -/
def onGrid? (i : Interval) (k : Int) : Option Nat :=
  let value := i.value * quarter k
  let c := value / point k
  let rest := value % point k
  match i.holds k c, i.holds k (c + 1) with
  | true, true => some (if 2 * rest < point k then c else c + 1)
  | true, false => some c
  | false, true => some (c + 1)
  | false, false => none

/-- A power of ten above which no multiple but zero is as small as the upper end. -/
def topOrder (i : Interval) : Int :=
  let whole := i.high / (4 * one)
  if whole = 0 then 1 - (Decimal.digitCount (4 * one / i.high) : Int)
  else (Decimal.digitCount whole : Int) - 1

/-- The first grid that meets the interval, going down from `10 ^ k`, with its point. -/
def search (i : Interval) : Nat → Int → Decimal
  | 0, k => ⟨0, k⟩
  | n + 1, k =>
    match i.onGrid? k with
    | some c => ⟨c, k⟩
    | none => search i n (k - 1)

/-- The decimal with the fewest digits in the interval, and of those the nearest to its value. The
value itself is a multiple of `10 ^ (-1076)`, so the way down to there is long enough. -/
def shortest (i : Interval) : Decimal :=
  i.search (i.topOrder + 1077).toNat i.topOrder

end Interval

/-- The shortest decimal that reads back as a finite number, without regard to sign. -/
def shortest (x : Binary64) : Decimal :=
  if x.magnitude = 0 then ⟨0, 0⟩ else x.roundingInterval.shortest

end SqlTemplate.Binary64
