import TaggedText.Number.Binary

/-!
# The shortest decimal of a double

Of all decimals that read back to a given double, the one with the fewest digits is written, and of
those the one nearest to the double; of two that are equally near, a `Tie` rule takes one.

The rule that carries the search is that a decimal reads back to a double exactly if it lies between
the midpoints to the two neighbouring doubles; the midpoints themselves belong to the double whose
significand is even.  `Interval` holds these bounds as exact fractions.  `shortest` then asks, for
one, two, … seventeen digits, which of the two decimals of that many digits around the double lie in
its interval.  Seventeen digits always suffice; the last grid is the answer should none be found
before.
-/

namespace TaggedText.Number

/-- The number `digits · 10 ^ exponent`. -/
structure Decimal where
  digits : Nat
  exponent : Int
  deriving DecidableEq, Repr, Inhabited

/-- A positive double `value / scale` with the ends of the interval that rounds to it, all over
the one denominator `scale`. -/
structure Interval where
  low : Nat
  value : Nat
  high : Nat
  scale : Nat
  closed : Bool
  deriving Repr

/-- The interval around a positive double.  Below a power of two the neighbour is only half as
far away, except at the foot of the range. -/
def Binary.interval (b : Binary) : Interval :=
  let below := if b.significand = twoTo fractionBits ∧ b.exponent ≠ leastExponent then 1 else 2
  let up := twoTo (b.exponent - 2).toNat
  { low := (4 * b.significand - below) * up
    value := 4 * b.significand * up
    high := (4 * b.significand + 2) * up
    scale := twoTo (2 - b.exponent).toNat
    closed := b.significand % 2 = 0 }

/-- The decimal `n · unit` (as the fraction `unitNum / unitDen`) lies in the interval. -/
def Interval.holds (i : Interval) (n unitNum unitDen : Nat) : Bool :=
  let x := n * unitNum * i.scale
  if i.closed then i.low * unitDen ≤ x && x ≤ i.high * unitDen
  else i.low * unitDen < x && x < i.high * unitDen

/-- The number of decimal digits of a natural number. -/
def digitCount (n : Nat) : Nat :=
  (Nat.toDigits 10 n).length

/-- The power of ten of the leading digit of the positive fraction `num / den`. -/
def leadingExponent (num den : Nat) : Int :=
  let e : Int := (digitCount num : Int) - digitCount den
  if num * tenTo (-e).toNat ≥ den * tenTo e.toNat then e else e - 1

/-- **Which of two equally near decimals is taken:** always the larger, or the one whose last digit
is even. -/
inductive Tie where
  | larger
  | even
  deriving DecidableEq, Repr

/-- Whether a tie between `down` and `down + 1` goes to the larger of them. -/
def Tie.takesLarger (tie : Tie) (down : Nat) : Bool :=
  match tie with
  | .larger => true
  | .even => down % 2 = 1

/-- Of the two decimals with unit `10 ^ unit` around the value, the nearest one in the interval. -/
def Interval.pick? (tie : Tie) (i : Interval) (unit : Int) : Option Decimal :=
  let unitNum := tenTo unit.toNat
  let unitDen := tenTo (-unit).toNat
  let down := i.value * unitDen / (unitNum * i.scale)
  let remainder := i.value * unitDen % (unitNum * i.scale)
  let takesUp :=
    2 * remainder > unitNum * i.scale
      || (2 * remainder = unitNum * i.scale && tie.takesLarger down)
  match i.holds down unitNum unitDen, i.holds (down + 1) unitNum unitDen with
  | true, true => some ⟨if takesUp then down + 1 else down, unit⟩
  | true, false => some ⟨down, unit⟩
  | false, true => some ⟨down + 1, unit⟩
  | false, false => none

/-- Tries ever more digits, `left` times, with `unit` the unit of the next try. -/
def Interval.search (tie : Tie) (i : Interval) (unit : Int) : Nat → Decimal
  | 0 => (i.pick? tie unit).getD ⟨0, 0⟩
  | left + 1 =>
    match i.pick? tie unit with
    | some d => d
    | none => search tie i (unit - 1) left

/-- Moves trailing zeros of the digits into the exponent. -/
def Decimal.normalize (d : Decimal) : Nat → Decimal
  | 0 => d
  | fuel + 1 =>
    if d.digits ≠ 0 ∧ d.digits % 10 = 0 then normalize ⟨d.digits / 10, d.exponent + 1⟩ fuel else d

/-- **The shortest decimal** of the size of a finite double; zero is `0`. -/
def Binary.shortest (tie : Tie) (b : Binary) : Decimal :=
  if b.significand = 0 then ⟨0, 0⟩
  else
    let i := b.interval
    (i.search tie (leadingExponent i.value i.scale) 16).normalize 20

end TaggedText.Number
