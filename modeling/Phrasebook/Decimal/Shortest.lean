/-!
The shortest decimal of a binary floating-point number: of all decimals that read back as the
number, one with the fewest digits, and of those the nearest.
-/
namespace Phrasebook.Decimal

/-- The number `0.d₁d₂… × 10 ^ point`. -/
structure Digits where
  digits : List Nat
  point : Int
  deriving DecidableEq

/-- A finite magnitude `significand × 2 ^ exponent`; `atBoundary` says that the gap below it is
half the gap above. -/
structure Magnitude where
  significand : Nat
  exponent : Int
  atBoundary : Bool

/-- The magnitude of a finite number. -/
def Magnitude.ofFloat (x : Float) : Magnitude :=
  let bits := x.toBits.toNat
  let field : Nat := bits / Nat.pow 2 52 % Nat.pow 2 11
  let fraction : Nat := bits % Nat.pow 2 52
  if field = 0 then ⟨fraction, -1074, false⟩
  else ⟨Nat.pow 2 52 + fraction, (field : Int) - 1075, fraction = 0 && field > 1⟩

/-- How many times `num` must be multiplied by ten to reach `den`, at most `fuel`. -/
def shiftsToReach (den : Nat) : Nat → Nat → Nat
  | 0, _ => 0
  | fuel + 1, num => if num ≥ den then 0 else shiftsToReach den fuel (num * 10) + 1

/-- The number of decimal digits. -/
def digitCount (n : Nat) : Nat :=
  (Nat.toDigits 10 n).length

/-- The exponent `e` with `10 ^ e ≤ num / den < 10 ^ (e + 1)`. -/
def floorLog (num den : Nat) : Int :=
  if num ≥ den then (digitCount (num / den) : Int) - 1
  else -(shiftsToReach den 400 num : Int)

/-- The candidates with `count` digits: those of the two neighbours of `value / den` on the grid
of `10 ^ step` that lie between `low / den` and `high / den`, the nearer first and an even one
before an odd one. All three numerators share `den`. -/
def onGrid? (value low high den : Nat) (closed : Bool) (step : Int) : Option Nat :=
  let up := Nat.pow 10 step.toNat
  let down := Nat.pow 10 (-step).toNat
  let unit := den * up
  let below := value * down / unit
  let inside (n : Nat) : Bool :=
    let place := n * unit
    if closed then low * down ≤ place && place ≤ high * down
    else low * down < place && place < high * down
  let exact := below * unit = value * down
  let above := if exact then below else below + 1
  let dBelow := value * down - below * unit
  let dAbove := above * unit - value * down
  let belowFirst := dBelow < dAbove || (dBelow = dAbove && below % 2 = 0)
  let first := if belowFirst then below else above
  let second := if belowFirst then above else below
  if inside first then some first else if inside second then some second else none

/-- Tries one digit, then two, and so on. -/
def searchGrids (value low high den : Nat) (closed : Bool) (top : Int) :
    Nat → Nat → Option (Nat × Int)
  | 0, _ => none
  | fuel + 1, count =>
    let step := top - count + 1
    match onGrid? value low high den closed step with
    | some n => if n = 0 then searchGrids value low high den closed top fuel (count + 1)
                else some (n, step)
    | none => searchGrids value low high den closed top fuel (count + 1)

def digitsOf (n : Nat) : List Nat :=
  (Nat.toDigits 10 n).map fun c => c.toNat - 48

def stripZeros (ds : List Nat) : List Nat :=
  (ds.reverse.dropWhile (· == 0)).reverse

/-- The shortest decimal of a magnitude; zero has no digits. -/
def shortest (m : Magnitude) : Digits :=
  if m.significand = 0 then ⟨[], 0⟩
  else
    let e := m.exponent - 2
    let scale := Nat.pow 2 e.toNat
    let den := Nat.pow 2 (-e).toNat
    let value := 4 * m.significand * scale
    let low := (4 * m.significand - if m.atBoundary then 1 else 2) * scale
    let high := (4 * m.significand + 2) * scale
    match searchGrids value low high den (m.significand % 2 = 0) (floorLog value den) 18 1 with
    | some (n, step) =>
      let ds := digitsOf n
      ⟨stripZeros ds, (ds.length : Int) + step⟩
    | none => ⟨[], 0⟩

end Phrasebook.Decimal
