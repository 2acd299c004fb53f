import Phrasebook.Decimal.Shortest

/-!
Decimals as text: in positional notation, with an exponent, and as number literals.
-/
namespace Phrasebook.Decimal

def digitText (ds : List Nat) : String :=
  String.ofList (ds.map Nat.digitChar)

def zeros (n : Nat) : String :=
  String.ofList (List.replicate n '0')

/-- All digits around the decimal point: `0.00012`, `1500`. -/
def Digits.positional (d : Digits) : String :=
  if d.digits.isEmpty then "0"
  else if d.point ≤ 0 then "0." ++ zeros (-d.point).toNat ++ digitText d.digits
  else
    let p := d.point.toNat
    if d.digits.length ≤ p then digitText d.digits ++ zeros (p - d.digits.length)
    else digitText (d.digits.take p) ++ "." ++ digitText (d.digits.drop p)

/-- One digit before the point and an exponent of at least two digits: `1.5e+21`. -/
def Digits.scientific (d : Digits) : String :=
  let (lead, rest) := match d.digits with
    | [] => ([0], [])
    | x :: r => ([x], r)
  let e := if d.digits.isEmpty then 0 else d.point - 1
  let mag := toString e.natAbs
  digitText lead ++ (if rest.isEmpty then "" else "." ++ digitText rest) ++
    (if e < 0 then "e-" else "e+") ++ (if mag.length < 2 then "0" ++ mag else mag)

/-- Which exponents are written positionally: from -4 up to, and without, 6. -/
def Digits.general (d : Digits) : String :=
  let e := d.point - 1
  if e < -4 || e ≥ 6 then d.scientific else d.positional

def isNegative (x : Float) : Bool :=
  x.toBits ≥ 0x8000000000000000

def isIntegral (x : Float) : Bool :=
  x == x.floor && !x.isInf && !x.isNaN

/-- The fewest digits that read back, with an exponent from 10^6 on. -/
def shown (x : Float) : String :=
  if x.isNaN then "NaN"
  else if x.isInf then if isNegative x then "-Inf" else "+Inf"
  else (if isNegative x then "-" else "") ++ (shortest (Magnitude.ofFloat x)).general

/-- A number literal: whole numbers below 10^21 with all their digits, other numbers with the
fewest digits that read back. -/
def literal (x : Float) : String :=
  if x.isNaN then "NaN"
  else
    let sign := if isNegative x then "-" else ""
    if x.isInf then sign ++ "Infinity"
    else
      let d := shortest (Magnitude.ofFloat x)
      sign ++ if isIntegral x && x.abs < 1e21 then d.positional else d.general

end Phrasebook.Decimal
