import EmbeddedVm.Number.Binary64

/-!
# The shortest decimal of a double

Every double is the nearest double to a whole interval of reals, and the decimal that stands for it
is the one with the fewest digits in that interval; of two such the nearer to the double, and of two
equally near ones the larger. All comparisons are exact, in natural numbers.
-/

namespace EmbeddedVm.Decimal

/-- A positive decimal `0.d₁d₂…dₙ · 10 ^ point`, by its digits; neither the first nor the last is
    zero. The point may lie ahead of them. -/
structure Digits where
  digits : List Char
  point : Int
deriving DecidableEq, Repr, Inhabited

/-- The reals that round to a double, and the double itself, over a common denominator. In a
    `closed` interval the ends round to the double too. -/
structure Interval where
  value : Nat
  lower : Nat
  upper : Nat
  denominator : Nat
  closed : Bool
deriving DecidableEq, Repr, Inhabited

/-! ## 1. The interval of a double -/

/-- Significand and exponent of a finite double without its sign: `m · 2 ^ q`. -/
def parts (x : Binary64) : Nat × Int :=
  if x.exponentBits = 0 then (x.fractionBits, -1074)
  else (x.fractionBits + Nat.pow 2 52, (x.exponentBits : Int) - 1075)

/-- The interval of `m · 2 ^ q`. It reaches half a unit up, and half a unit down; below a power of
    two the doubles stand twice as close, and it reaches a quarter of a unit down. -/
def interval (m : Nat) (q : Int) : Interval :=
  let scale := Nat.pow 2 (q - 2).toNat
  { value := 4 * m * scale
    lower := (if m = Nat.pow 2 52 ∧ -1074 < q then 4 * m - 1 else 4 * m - 2) * scale
    upper := (4 * m + 2) * scale
    denominator := Nat.pow 2 (2 - q).toNat
    closed := m % 2 = 0 }

/-! ## 2. Decimal grids -/

/-- `n · 10 ^ k` as a pair of numerator and denominator. -/
def scaled (n : Nat) (k : Int) : Nat × Nat := (n * Nat.pow 10 k.toNat, Nat.pow 10 (-k).toNat)

/-- Whether the decimal `n · 10 ^ k` lies in the interval. -/
def Interval.contains (i : Interval) (n : Nat) (k : Int) : Bool :=
  let (num, den) := scaled n k
  let x := num * i.denominator
  if i.closed then i.lower * den ≤ x && x ≤ i.upper * den
  else i.lower * den < x && x < i.upper * den

/-- The least `e` from `start` on, trying `fuel` of them, with the value below `10 ^ e`. -/
def magnitude (i : Interval) : (fuel : Nat) → (start : Int) → Int
  | 0, e => e
  | fuel + 1, e =>
    let (num, den) := scaled 1 e
    if i.value * den < num * i.denominator then e else magnitude i fuel (e + 1)

/-- The point of the grid of multiples of `10 ^ k` that stands for the value: of its two
    neighbours the one in the interval, of two the nearer, of two equally near the upper. -/
def pick (i : Interval) (k : Int) : Option Nat :=
  let (num, den) := scaled 1 k
  let step := num * i.denominator
  let low := i.value * den / step
  let high := low + 1
  match i.contains low k, i.contains high k with
  | true, true =>
    let below := i.value * den - low * step
    let above := high * step - i.value * den
    if below < above then some low else some high
  | true, false => some low
  | false, true => some high
  | false, false => none

/-- The first grid that stands for the value, among those with `digits`, `digits + 1`, … digits
    before the magnitude `e`. -/
def search (i : Interval) (e : Int) : (fuel : Nat) → (digits : Nat) → Nat × Int
  | 0, digits => (i.value / i.denominator, e - digits)
  | fuel + 1, digits =>
    let k := e - digits
    match pick i k with
    | some n => (n, k)
    | none => search i e fuel (digits + 1)

/-- A decimal without the zeros at its end. -/
def trim (n : Nat) (k : Int) : Digits :=
  let written := Nat.toDigits 10 n
  { digits := (written.reverse.dropWhile (· == '0')).reverse
    point := written.length + k }

/-- **The shortest decimal** of a finite double other than zero, without its sign. -/
def shortest (x : Binary64) : Digits :=
  let (m, q) := parts x
  let i := interval m q
  -- A double below `2 ^ 1024` is below `10 ^ 309`, and the least one is above `10 ^ (-324)`.
  let e := magnitude i 640 (-323)
  let (n, k) := search i e 17 1
  trim n k

end EmbeddedVm.Decimal
