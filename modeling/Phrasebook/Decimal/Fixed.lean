import Phrasebook.Decimal.Layout

/-!
Numbers rounded to a fixed count of decimal places. The exact value is rounded, not its shortest
decimal.
-/
namespace Phrasebook.Decimal

/-- `num / den` rounded to a whole number, a half to the even neighbour. -/
def roundHalfEven (num den : Nat) : Nat :=
  let q := num / den
  let twice := 2 * (num % den)
  if twice > den || (twice == den && q % 2 == 1) then q + 1 else q

/-- `|x| × 10 ^ places` rounded to a whole number. -/
def scaled (x : Float) (places : Nat) : Nat :=
  let m := Magnitude.ofFloat x
  roundHalfEven (m.significand * Nat.pow 2 m.exponent.toNat * Nat.pow 10 places)
    (Nat.pow 2 (-m.exponent).toNat)

/-- The number with so many places behind its point. -/
def fixed (places : Nat) (x : Float) : String :=
  if x.isNaN then "NaN"
  else if x.isInf then if isNegative x then "-Inf" else "+Inf"
  else
    let digits := toString (scaled x places)
    let padded := (zeros (places + 1 - digits.length) ++ digits).toList
    let whole := padded.length - places
    (if isNegative x then "-" else "") ++ String.ofList (padded.take whole) ++
      (if places = 0 then "" else "." ++ String.ofList (padded.drop whole))

end Phrasebook.Decimal
