/-! The fewest decimal digits that single out a binary fraction of double width. -/

namespace BuildGraph.Decimal

/-- A positive decimal number: `digits` times ten to the power `exponent`. -/
structure Scientific where
  -- The digits may end in zeros.
  digits : Nat
  exponent : Int
deriving DecidableEq, Inhabited, Repr

/-- The ratio of `x * 2 ^ s` to `10 ^ e`, as a numerator and a denominator. -/
def ratio (x : Nat) (s e : Int) : Nat × Nat :=
  -- Negative powers go to the other side, so both numbers are natural.
  (x * Nat.pow 2 s.toNat * Nat.pow 10 (-e).toNat, Nat.pow 10 e.toNat * Nat.pow 2 (-s).toNat)

/-- The numbers that are read as `significand * 2 ^ (scale + 2)`, in units of `2 ^ scale`. -/
structure Interval where
  -- Its ends lie half way to the neighbouring doubles.
  low : Nat
  middle : Nat
  high : Nat
  scale : Int
  /-- The two ends belong to the interval. -/
  closed : Bool
deriving DecidableEq, Inhabited, Repr

namespace Interval

/-- The numbers nearest to a significand of `fractionBits + 1` bits at a power of two. -/
def around (significand : Nat) (power : Int) (atPower : Bool) : Interval where
  -- Below a power of two the neighbours are twice as dense.
  low := if atPower then 4 * significand - 1 else 4 * significand - 2
  middle := 4 * significand
  high := 4 * significand + 2
  scale := power - 2
  -- A number halfway between two neighbours is read as the even one.
  closed := significand % 2 == 0

/-- Whether `d * 10 ^ e` lies in the interval. -/
def holds (i : Interval) (d : Nat) (e : Int) : Bool :=
  -- Both sides are brought to one denominator, so nothing is rounded.
  let (low, unit) := ratio i.low i.scale e
  let (high, _) := ratio i.high i.scale e
  if i.closed then low ≤ d * unit && d * unit ≤ high else low < d * unit && d * unit < high

/-- The one of two neighbours on the grid of step `10 ^ e` that is nearest and lies inside. -/
def nearest? (i : Interval) (e : Int) : Option Nat :=
  -- Of two that are equally near, the even one comes first.
  let (middle, unit) := ratio i.middle i.scale e
  let below := middle / unit
  let gap := 2 * (middle % unit)
  let belowFirst := gap < unit || (gap == unit && below % 2 == 0)
  let candidates := if belowFirst then [below, below + 1] else [below + 1, below]
  candidates.find? fun d => i.holds d e

/-- The power of ten at the first digit of the middle. -/
def magnitude (i : Interval) : Int :=
  -- The powers are tried from above, and doubles have none beyond these.
  let powers := (List.range 650).map fun (n : Nat) => (320 : Int) - n
  (powers.find? fun e => let (middle, unit) := ratio i.middle i.scale e; unit ≤ middle).getD (-330)

/-- The first grid, from coarse to fine, that has a number inside. -/
def shortest (i : Interval) : Scientific :=
  -- Seventeen digits are enough to tell any two doubles apart.
  let grids := (List.range 17).map fun (n : Nat) => i.magnitude - n
  (grids.findSome? fun e => (i.nearest? e).map fun d => ⟨d, e⟩).getD ⟨0, 0⟩

end Interval

/-- The digits of a number without the zeros at its end, and how many zeros those were. -/
def strip (digits : Nat) : Nat → Nat × Nat
  -- The second argument only bounds the number of zeros.
  | 0 => (digits, 0)
  | more + 1 =>
    if digits % 10 = 0 ∧ digits ≠ 0 then
      let (kept, zeros) := strip (digits / 10) more
      (kept, zeros + 1)
    else (digits, 0)

/-- How a decimal number is set out. -/
structure Style where
  -- Between the two bounds a number is written without an exponent.
  /-- The least power of ten at the first digit that is written without an exponent. -/
  leastPlain : Int
  /-- The greatest power of ten at the first digit that is written without an exponent. -/
  greatestPlain : Int

/-- The text of a positive decimal number. -/
def Scientific.text (style : Style) (x : Scientific) : String :=
  let (digits, zeros) := strip x.digits 20
  let shown := (toString digits).toList
  let exponent := x.exponent + zeros
  -- The power of ten at the first digit.
  let first := exponent + shown.length - 1
  let chars :=
    if style.leastPlain ≤ first ∧ first ≤ style.greatestPlain then
      if 0 ≤ exponent then shown ++ List.replicate exponent.toNat '0' ++ ['.', '0']
      else if 0 ≤ first then
        shown.take (first.toNat + 1) ++ '.' :: shown.drop (first.toNat + 1)
      else '0' :: '.' :: List.replicate (-first - 1).toNat '0' ++ shown
    else
      let sign := if first < 0 then '-' else '+'
      let fraction := if shown.length = 1 then [] else '.' :: shown.drop 1
      shown.take 1 ++ fraction ++ 'e' :: sign :: (toString first.natAbs).toList
  String.ofList chars

/-- The text of a finite double given by its bits. -/
def ofBits (style : Style) (bits : UInt64) : String :=
  let n := bits.toNat
  -- The sign, eleven bits of exponent and fifty-two of fraction.
  let one : Nat := 1 <<< 52
  let sign := if n >>> 63 = 1 then "-" else ""
  let biased : Nat := n / one % 2048
  let fraction : Nat := n % one
  if biased = 0 ∧ fraction = 0 then sign ++ "0.0"
  else
    let interval :=
      if biased = 0 then Interval.around fraction (-1074) false
      else Interval.around (one + fraction) ((biased : Int) - 1075) (fraction = 0 ∧ 1 < biased)
    sign ++ interval.shortest.text style

end BuildGraph.Decimal
