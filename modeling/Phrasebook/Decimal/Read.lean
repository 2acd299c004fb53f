/-!
Reading numbers: decimal and hexadecimal notation with an optional exponent, the names of infinity
and of the undefined number, and low lines between digits. The result is the nearest
floating-point number; a number too large to have one is refused.
-/
namespace Phrasebook.Decimal

def lowerAscii (cs : List Char) : List Char :=
  cs.map Char.toLower

/-- A number of a named value: infinity with an optional sign, or the undefined number. -/
def named? (cs : List Char) : Option Float :=
  let inf : Float := 1.0 / 0.0
  let isInf (r : List Char) := lowerAscii r == "inf".toList || lowerAscii r == "infinity".toList
  match cs with
  | '+' :: r => if isInf r then some inf else none
  | '-' :: r => if isInf r then some (-inf) else none
  | _ =>
    if isInf cs then some inf
    else if lowerAscii cs == "nan".toList then some (0.0 / 0.0)
    else none

def isHexDigit (c : Char) : Bool :=
  c.isDigit || ('a' ≤ c.toLower && c.toLower ≤ 'f')

def hexValue (c : Char) : Nat :=
  if c.isDigit then c.toNat - 48 else c.toLower.toNat - 87

/-- What stands before a place where a low line may stand. -/
inductive Neighbour where
  | start | digit | line | other
  deriving DecidableEq

/-- Low lines stand only between digits; a base mark counts as a digit. -/
def linesSeparate (isDigit : Char → Bool) : Neighbour → List Char → Bool
  | prev, [] => prev != .line
  | prev, c :: r =>
    if isDigit c then linesSeparate isDigit .digit r
    else if c == '_' then prev == .digit && linesSeparate isDigit .line r
    else prev != .line && linesSeparate isDigit .other r

/-- The digits before and after the point, low lines dropped, and the rest of the text. -/
structure Mantissa where
  whole : List Char
  fraction : List Char
  rest : List Char

/-- Splits off digits and low lines. -/
def spanDigits (isDigit : Char → Bool) (cs : List Char) : List Char × List Char :=
  let p := fun c => isDigit c || c == '_'
  ((cs.takeWhile p).filter isDigit, cs.dropWhile p)

def mantissa? (isDigit : Char → Bool) (cs : List Char) : Option Mantissa :=
  let (whole, r) := spanDigits isDigit cs
  let (fraction, rest) := match r with
    | '.' :: r => spanDigits isDigit r
    | r => ([], r)
  if whole.isEmpty && fraction.isEmpty then none else some ⟨whole, fraction, rest⟩

/-- Exponents saturate at five digits: far beyond any that changes the result. -/
def exponentValue (cs : List Char) : Nat :=
  cs.foldl (fun e c => if e < 10000 then e * 10 + (c.toNat - 48) else e) 0

/-- Reads `mark`, an optional sign and digits to the end of the text; nothing at all is zero
unless the exponent is `required`. -/
def exponent? (mark : Char) (required : Bool) (cs : List Char) : Option Int :=
  match cs with
  | [] => if required then none else some 0
  | c :: r =>
    if c.toLower != mark then none
    else
      let (neg, r) := match r with
        | '+' :: r => (false, r)
        | '-' :: r => (true, r)
        | r => (false, r)
      match r with
      | [] => none
      | d :: _ =>
        if !d.isDigit then none
        else
          let (ds, rest) := spanDigits Char.isDigit r
          if !rest.isEmpty then none
          else
            let e : Int := exponentValue ds
            some (if neg then -e else e)

def natOfDigits (base : Nat) (value : Char → Nat) (cs : List Char) : Nat :=
  cs.foldl (fun n c => n * base + value c) 0

/-- The number nearest to `m × 10 ^ e`. -/
def nearestDecimal (m : Nat) (e : Int) : Float :=
  if m = 0 then 0.0
  else
    let size := ((Nat.toDigits 10 m).length : Int) + e
    if size > 310 then 1.0 / 0.0
    else if size < -330 then 0.0
    else if e < 0 then Float.ofScientific m true e.natAbs
    else Float.ofScientific (m * Nat.pow 10 e.natAbs) false 0

/-- The number nearest to `m × 2 ^ e`. -/
def nearestBinary (m : Nat) (e : Int) : Float :=
  if m = 0 then 0.0
  else
    let size := (Nat.log2 m : Int) + e
    if size > 1100 then 1.0 / 0.0
    else if size < -1200 then 0.0
    else if e < 0 then Float.ofScientific (m * Nat.pow 5 e.natAbs) true e.natAbs
    else Float.ofScientific (m * Nat.pow 2 e.natAbs) false 0

def readDecimal? (cs : List Char) : Option Float := do
  let m ← mantissa? Char.isDigit cs
  let e ← exponent? 'e' false m.rest
  guard (!cs.contains '_' || linesSeparate Char.isDigit .start cs)
  return nearestDecimal (natOfDigits 10 hexValue (m.whole ++ m.fraction)) (e - m.fraction.length)

/-- Reads what follows the mark of hexadecimal notation. -/
def readHex? (cs : List Char) : Option Float := do
  let m ← mantissa? isHexDigit cs
  let e ← exponent? 'p' true m.rest
  guard (!cs.contains '_' || linesSeparate isHexDigit .digit cs)
  return nearestBinary (natOfDigits 16 hexValue (m.whole ++ m.fraction))
    (e - 4 * m.fraction.length)

def readUnsigned? (cs : List Char) : Option Float :=
  match cs with
  | '0' :: x :: r =>
    if x.toLower == 'x' && !r.isEmpty then readHex? r else readDecimal? cs
  | _ => readDecimal? cs

/-- Reads a whole text as a number. -/
def read? (cs : List Char) : Option Float :=
  match named? cs with
  | some x => some x
  | none =>
    let x := match cs with
      | '+' :: r => readUnsigned? r
      | '-' :: r => (readUnsigned? r).map (- ·)
      | _ => readUnsigned? cs
    x.filter (!·.isInf)

end Phrasebook.Decimal
