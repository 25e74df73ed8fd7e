import BuildGraph.Json.Token
import BuildGraph.Decimal.Shortest

/-! The number that a numeral stands for: an integer of 64 bits, or else a double. -/

namespace BuildGraph.Json

/-- A number as it is told to the writer of a text. -/
inductive Number where
  -- A real is kept by its bits, so that two numbers can be compared.
  | integer (n : Int)
  /-- A finite double by its bits. -/
  | real (bits : UInt64)
deriving DecidableEq, Inhabited, Repr

/-- The greatest significand that is kept exactly. -/
def significandLimit : Nat :=
  -- It is the greatest number of sixty-four bits.
  UInt64.size - 1

/-- The greatest exponent that is kept exactly. -/
def exponentLimit : Nat :=
  -- It is the greatest number of thirty-one bits.
  2147483647

/-- The digits of a number read so far, as a significand and a power of ten. -/
structure Significand where
  -- The value is exact until a digit is dropped.
  value : Nat := 0
  exponent : Int := 0
  /-- A digit did not fit any more. -/
  full : Bool := false
deriving DecidableEq, Inhabited, Repr

namespace Significand

/-- The significand and one more digit, unless it is too great. -/
def push? (s : Significand) (digit : Nat) : Option Nat :=
  -- Once a digit was dropped, no later one is taken.
  let value := s.value * 10 + digit
  if s.full ∨ significandLimit < value then none else some value

/-- One more digit before the point; one that does not fit only counts as a place. -/
def whole (s : Significand) (digit : Nat) : Significand :=
  -- A dropped digit before the point makes the number ten times greater.
  match s.push? digit with
  | some value => ⟨value, s.exponent, false⟩
  | none => ⟨s.value, s.exponent + 1, true⟩

/-- One more digit after the point; one that does not fit is dropped. -/
def fraction (s : Significand) (digit : Nat) : Significand :=
  -- A dropped digit after the point changes nothing.
  match s.push? digit with
  | some value => ⟨value, s.exponent - 1, false⟩
  | none => ⟨s.value, s.exponent, true⟩

end Significand

/-- The double next to ten to the power `n`. -/
def powerOfTen (n : Nat) : Float :=
  -- One that is too great becomes infinite.
  Float.ofScientific 1 false n

/-- `f` times ten to the power `exponent`, in steps that a double can take. -/
def scale (f : Float) (exponent : Int) : Except Fault Float :=
  -- A power beyond the range of doubles is taken in steps, each within the range.
  if exponent.natAbs ≤ 308 then
    if 0 ≤ exponent then
      let scaled := f * powerOfTen exponent.natAbs
      if scaled.isInf then .error .malformed else .ok scaled
    else .ok (f / powerOfTen exponent.natAbs)
  else if f == 0 then .ok f
  else if 0 ≤ exponent then .error .malformed
  else scale (f / powerOfTen 308) (exponent + 308)
termination_by exponent.natAbs

/-- The exponent that follows the mark: its sign and its digits. -/
def readPower (spelling : List Char) : Bool × Nat :=
  -- Without a sign the power is positive.
  let digits := spelling.filter Char.isDigit
  (spelling.head? = some '-', digits.foldl (fun n c => 10 * n + (c.toNat - '0'.toNat)) 0)

/-- The double of a significand and an exponent after the mark, if there is one. -/
def double (s : Significand) (power : Option (Bool × Nat)) : Except Fault Float :=
  match power with
  | none => scale (Float.ofNat s.value) s.exponent
  | some (negative, power) =>
    if exponentLimit < power then
      -- So great an exponent leaves nothing, unless it would leave too much.
      if s.value ≠ 0 ∧ !negative then .error .malformed else .ok 0
    else scale (Float.ofNat s.value) (if negative then s.exponent - power else s.exponent + power)

namespace Numeral

/-- The number that a spelling without fault stands for; it may be too great for a double. -/
def evaluate (spelling : List Char) : Except Fault Number :=
  let negative := spelling.head? = some '-'
  let unsigned := if negative then spelling.drop 1 else spelling
  let digit := fun (c : Char) => c.toNat - '0'.toNat
  let (whole, rest) := unsigned.span Char.isDigit
  let read := whole.foldl (fun s c => s.whole (digit c)) ({} : Significand)
  let real := fun (s : Significand) (power : Option (Bool × Nat)) => do
    let f ← double s power
    return Number.real (if negative then (-f).toBits else f.toBits)
  match rest with
  | '.' :: rest =>
    let (fraction, rest) := rest.span Char.isDigit
    let read := fraction.foldl (fun s c => s.fraction (digit c)) ⟨read.value, read.exponent, false⟩
    real read (if rest.isEmpty then none else some (readPower (rest.drop 1)))
  | _ :: rest => real read (some (readPower rest))
  | [] =>
    if read.full then real read none
    else if !negative then .ok (.integer read.value)
    -- Zero with a sign is no integer, and neither is what lies below all 64-bit integers.
    else if read.value = 0 ∨ UInt64.size / 2 < read.value then real read none
    else .ok (.integer (-read.value))

/-- The number that a numeral stands for. -/
def value (n : Numeral) : Except Fault Number :=
  -- A fault inside a numeral comes before any question of size.
  match n.fault with
  | some fault => .error fault
  | none => evaluate n.spelling

end Numeral

/-- Doubles are written plainly from a hundred-thousandth up to sixteen digits before the point. -/
def realStyle : Decimal.Style :=
  -- The bounds are those of the writer whose texts are told in errors.
  ⟨-5, 15⟩

end BuildGraph.Json
